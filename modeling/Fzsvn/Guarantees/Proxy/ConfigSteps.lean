import Fzsvn.Library.Fallible
import Fzsvn.Source.Config.ProxyConfig

/-!
# What a line of the configuration does

`LineStep py sect kw py' sect'` says what a line with the keyword `kw` can do to the proxy,
in a section: a section line opens a new object at the end of its list after the object of
the section before has passed its check, and any other line changes the open object and, if
it refers to another one, that one's reference count. `cfgLoadFile_invariant` is the
induction over the lines of a file.
-/
namespace Fzsvn.Guarantees.Proxy.ConfigSteps
open Library.Fallible Library.Registry Source.Config Source.Netutil List

/-! ## Rules for the helpers of the parser -/

variable {α : Type} {post : α → Prop} {format : String} {printed : List Arg}

@[simp] lemma gives_errRet : Gives (errRet format printed) post := gives_error _

@[simp] lemma gives_errIf {fails : Prop} [Decidable fails] {post : Unit → Prop} :
    Gives (errIf fails format printed) post ↔ (¬ fails → post ()) := by
  simp [errIf, gives_ite]

@[simp] lemma gives_orErrRet {run : Except Stop α} :
    Gives (orErrRet run format printed) post ↔ Gives run post := by
  unfold orErrRet
  split <;> simp

@[simp] lemma gives_deref {xs : List α} {i : Nat} :
    Gives (deref xs i) post ↔ ∀ x, xs[i]? = some x → post x := by
  unfold deref
  split <;> simp_all

@[simp] lemma gives_incr {n : Int} {post : Int → Prop} :
    Gives (incr n) post ↔ (n + 1 < 2 ^ 31 → post (n + 1)) := by
  simp [incr, gives_ite]

/-- Whatever a computation returns. -/
lemma gives_of_forall {run : Except Stop α} (all : ∀ value, post value) : Gives run post :=
  fun value _ => all value

variable {py : Proxy} {name : Text}

lemma proxyFindCertset_none (missing : ¬ proxyFindCertset py name ≠ none) :
    ∀ c ∈ py.certlist, c.name ≠ name := by
  intro c hm he
  have all := List.findIdx?_eq_none_iff.mp (not_not.mp missing) c hm
  exact of_decide_eq_false all he

lemma lastIdx?_none {α : Type} {nameOf : α → Text} {xs : List α}
    (missing : ¬ lastIdx? (nameOf · = name) xs ≠ none) : ∀ c ∈ xs, nameOf c ≠ name := by
  intro c hm
  exact of_decide_eq_false (lastIdx?_eq_none (not_not.mp missing) c hm)

/-! ## The steps -/

/-- The name stays, or becomes one that no object of the list has. -/
def Renamed {α : Type} (nameOf : α → Text) (xs : List α) (a b : α) : Prop :=
  nameOf b = nameOf a ∨ ∀ c ∈ xs, nameOf c ≠ nameOf b

inductive CertsetLine (py : Proxy) (i : Nat) : Proxy → Prop where
  | set {cert cert' : Certset} (entry : py.certlist[i]? = some cert)
      (name : Renamed Certset.name py.certlist cert cert') :
      CertsetLine py i (py.setCertset i cert')

inductive ListenerLine (py : Proxy) (i : Nat) : Proxy → Prop where
  | set {ltn ltn' : Listener} (entry : py.ltnlist[i]? = some ltn)
      (name : Renamed Listener.name py.ltnlist ltn ltn') (cert : ltn'.cert = ltn.cert) :
      ListenerLine py i (py.setListener i ltn')
  | certset {ltn : Listener} {c : Nat} {cert : Certset} (entry : py.ltnlist[i]? = some ltn)
      (found : py.certlist[c]? = some cert) :
      ListenerLine py i
        ((py.setCertset c { cert with refcnt := fetchAndAdd cert.refcnt }).setListener i
          { ltn with cert := some c })

inductive SvrpoolLine (py : Proxy) (i : Nat) (kw : Text) : Proxy → Prop where
  | set {sp sp' : Svrpool} (entry : py.splist[i]? = some sp)
      (name : Renamed Svrpool.name py.splist sp sp') (servers : sp'.svrlist = sp.svrlist)
      (count : sp'.nserver = sp.nserver) (other : kw ≠ "server".toList) :
      SvrpoolLine py i kw (py.setSvrpool i sp')
  | server {sp : Svrpool} (entry : py.splist[i]? = some sp) (svr : Server)
      (keyword : kw = "server".toList) :
      SvrpoolLine py i kw
        (py.setSvrpool i { sp with svrlist := sp.svrlist ++ [svr], nserver := sp.nserver + 1 })

inductive PolicyLine (py : Proxy) (i : Nat) : Proxy → Prop where
  | set {pl pl' : Policy} (entry : py.pllist[i]? = some pl)
      (name : Renamed Policy.name py.pllist pl pl') (listener : pl'.listener = pl.listener)
      (svrpool : pl'.svrpool = pl.svrpool) :
      PolicyLine py i (py.setPolicy i pl')
  | listener {pl : Policy} {l : Nat} {ltn : Listener} (entry : py.pllist[i]? = some pl)
      (found : py.ltnlist[l]? = some ltn) (unused : ∀ c ∈ py.pllist, c.listener ≠ some l) :
      PolicyLine py i
        ((py.setListener l { ltn with refcnt := fetchAndAdd ltn.refcnt }).setPolicy i
          { pl with listener := some l })
  | svrpool {pl : Policy} {s : Nat} {sp : Svrpool} (entry : py.pllist[i]? = some pl)
      (found : py.splist[s]? = some sp) :
      PolicyLine py i
        ((py.setSvrpool s { sp with refcnt := fetchAndAdd sp.refcnt }).setPolicy i
          { pl with svrpool := some s })

/-- The keywords that open a section. -/
def headers : List Text :=
  ["[proxy]", "[certset]", "[listener]", "[svrpool]", "[policy]"].map (·.toList)

inductive LineStep (py : Proxy) : Section → Text → Proxy → Section → Prop where
  | openProxy {sect : Section} (closed : cfgCheckSection py sect = .ok ()) :
      LineStep py sect "[proxy]".toList py .proxy
  | openCertset {sect : Section} {cert : Certset} (closed : cfgCheckSection py sect = .ok ())
      (new : certsetAlloc true = .ok cert) :
      LineStep py sect "[certset]".toList { py with certlist := py.certlist ++ [cert] }
        (.certset py.certlist.length)
  | openListener {sect : Section} {ltn : Listener} (closed : cfgCheckSection py sect = .ok ())
      (new : listenerAlloc true = .ok ltn) :
      LineStep py sect "[listener]".toList { py with ltnlist := py.ltnlist ++ [ltn] }
        (.listener py.ltnlist.length)
  | openSvrpool {sect : Section} {sp : Svrpool} (closed : cfgCheckSection py sect = .ok ())
      (new : svrpoolAlloc true = .ok sp) :
      LineStep py sect "[svrpool]".toList { py with splist := py.splist ++ [sp] } (.svrpool py.splist.length)
  | openPolicy {sect : Section} {pl : Policy} (closed : cfgCheckSection py sect = .ok ())
      (new : policyAlloc true = .ok pl) :
      LineStep py sect "[policy]".toList { py with pllist := py.pllist ++ [pl] } (.policy py.pllist.length)
  | proxy {kw : Text} (cfg : ProxyCfg) (inside : kw ∉ headers) :
      LineStep py .proxy kw { py with cfg } .proxy
  | certset {kw : Text} {i : Nat} {py' : Proxy} (inside : kw ∉ headers)
      (line : CertsetLine py i py') : LineStep py (.certset i) kw py' (.certset i)
  | listener {kw : Text} {i : Nat} {py' : Proxy} (inside : kw ∉ headers)
      (line : ListenerLine py i py') : LineStep py (.listener i) kw py' (.listener i)
  | svrpool {kw : Text} {i : Nat} {py' : Proxy} (inside : kw ∉ headers)
      (line : SvrpoolLine py i kw py') : LineStep py (.svrpool i) kw py' (.svrpool i)
  | policy {kw : Text} {i : Nat} {py' : Proxy} (inside : kw ∉ headers)
      (line : PolicyLine py i py') : LineStep py (.policy i) kw py' (.policy i)

/-! ## The parser makes no others -/

variable {i : Nat} {inet : Inet} {lineno : Int} {calloc : Bool} {kw : Text} {args : List Text}

lemma cfgParseCertset_gives : Gives (cfgParseCertset lineno calloc py i kw args) (CertsetLine py i) := by
  unfold cfgParseCertset
  rw [gives_bind, gives_deref]
  intro cert entry
  have hk : ∀ cert', cert'.name = cert.name → CertsetLine py i (py.setCertset i cert') :=
    fun cert' he => .set entry (.inl he)
  split_ifs <;> simp only [gives_bind, gives_errIf, gives_pure, gives_errRet, checkName, gives_incr]
  -- name
  · apply gives_of_forall
    intro arg _ _ hm
    exact .set entry (.inr (proxyFindCertset_none hm))
  -- domain
  · exact gives_of_forall fun arg _ _ => hk _ rfl
  -- certificate, privatekey and pkcs12
  · exact gives_of_forall fun arg _ _ => hk _ rfl
  · exact gives_of_forall fun arg _ _ => hk _ rfl
  · exact gives_of_forall fun arg _ _ _ => hk _ rfl
  -- intca and ca
  · exact gives_of_forall fun arg => gives_of_forall fun ca _ => hk _ rfl
  · exact gives_of_forall fun arg => gives_of_forall fun ca _ => hk _ rfl
  -- crl
  · exact gives_of_forall fun arg _ => hk _ rfl

lemma cfgParseListener_gives : Gives (cfgParseListener inet lineno py i kw args) (ListenerLine py i) := by
  unfold cfgParseListener
  rw [gives_bind, gives_deref]
  intro ltn he
  split_ifs <;> simp only [gives_bind, gives_errIf, gives_pure, gives_errRet, checkName]
  -- name
  · apply gives_of_forall
    intro arg _ _ hm
    exact .set he (.inr (lastIdx?_none hm)) rfl
  -- address and ssl
  · exact gives_of_forall fun arg => gives_of_forall fun address => .set he (.inl rfl) rfl
  · exact gives_of_forall fun arg => gives_of_forall fun ssl => .set he (.inl rfl) rfl
  -- certset
  · apply gives_of_forall
    intro arg _
    cases proxyFindCertset py arg with
    | none => exact gives_errRet
    | some c =>
      simp only [gives_bind, gives_pure, certsetClone, gives_deref]
      intro cert hf
      exact .certset he hf

lemma cfgParseSvrpool_gives :
    Gives (cfgParseSvrpool inet lineno calloc py i kw args) (SvrpoolLine py i kw) := by
  unfold cfgParseSvrpool
  rw [gives_bind, gives_deref]
  intro sp he
  split_ifs with name algo hs
  · simp only [gives_bind, gives_errIf, gives_pure, checkName]
    apply gives_of_forall
    intro arg _ hm _
    exact .set he (.inr (lastIdx?_none hm)) rfl rfl (by rw [name]; decide)
  · simp only [gives_bind, gives_pure]
    refine gives_of_forall fun arg => gives_of_forall fun value => ?_
    exact .set he (.inl rfl) rfl rfl (by rw [algo]; decide)
  · split
    · simp only [gives_bind, gives_incr, gives_pure, gives_orErrRet]
      refine gives_of_forall fun weight => gives_of_forall fun ssl => ?_
      refine gives_of_forall fun address => gives_of_forall fun svr _ => ?_
      exact .server he svr hs
    · exact gives_errRet
  · exact gives_errRet

lemma cfgParsePolicy_gives : Gives (cfgParsePolicy lineno py i kw args) (PolicyLine py i) := by
  unfold cfgParsePolicy
  rw [gives_bind, gives_deref]
  intro pl he
  split_ifs <;> simp only [gives_bind, gives_errIf, gives_pure, gives_errRet, checkName]
  -- name
  · apply gives_of_forall
    intro arg _ _ missing
    exact .set he (.inr (lastIdx?_none missing)) rfl rfl
  -- mode
  · exact gives_of_forall fun arg => gives_of_forall fun mode => .set he (.inl rfl) rfl rfl
  -- listener
  · apply gives_of_forall
    intro arg
    cases proxyFindListener py arg with
    | none => exact gives_errRet
    | some l =>
      dsimp only
      cases hu : py.pllist.find? (·.listener = some l) with
      | some user => exact gives_errRet
      | none =>
        simp only [gives_bind, gives_pure, listenerClone, gives_deref]
        intro ltn hf
        refine .listener he hf fun c hm => ?_
        exact of_decide_eq_true (by simpa using List.find?_eq_none.mp hu c hm)
  -- svrpool
  · apply gives_of_forall
    intro arg
    cases proxyFindSvrpool py arg with
    | none => exact gives_errRet
    | some s =>
      simp only [gives_bind, gives_pure, svrpoolClone, gives_deref]
      intro sp hf
      exact .svrpool he hf

lemma closeSection_gives {sect : Section} {format : String} :
    Gives (closeSection py sect format) fun _ => cfgCheckSection py sect = .ok () :=
  gives_orErrRet.mpr fun _ hc => hc

/-- An allocation that succeeded. -/
lemma gives_alloc {α : Type} {alloc : Bool → Except Stop α} {format : String}
    (hf : alloc false = errRet format []) : Gives (alloc calloc) fun x => alloc true = .ok x := by
  cases calloc with
  | true => exact fun x hm => hm
  | false =>
    rw [hf]
    exact gives_errRet

lemma cfgParseLine_gives {sect : Section} :
    Gives (cfgParseLine inet calloc { sect, lineno } py kw args) fun after =>
      LineStep py sect kw after.1 after.2 := by
  unfold cfgParseLine
  split_ifs with isProxy isCertset isListener isSvrpool isPolicy
  · subst kw
    simp only [gives_bind, gives_pure]
    exact closeSection_gives.mono fun _ hc => .openProxy hc
  · subst kw
    simp only [gives_bind, gives_orErrRet, gives_pure, proxyAddCertset, gives_errIf]
    refine closeSection_gives.mono fun _ hc => (gives_alloc rfl).mono fun cert new _ => ?_
    exact .openCertset hc new
  · subst kw
    simp only [gives_bind, gives_orErrRet, gives_pure, proxyAddListener, gives_errIf]
    refine closeSection_gives.mono fun _ hc => (gives_alloc rfl).mono fun ltn new _ => ?_
    exact .openListener hc new
  · subst kw
    simp only [gives_bind, gives_orErrRet, gives_pure, proxyAddSvrpool, gives_errIf]
    refine closeSection_gives.mono fun _ hc => (gives_alloc rfl).mono fun sp new _ => ?_
    exact .openSvrpool hc new
  · subst kw
    simp only [gives_bind, gives_orErrRet, gives_pure, proxyAddPolicy, gives_errIf]
    refine closeSection_gives.mono fun _ hc => (gives_alloc rfl).mono fun pl new _ => ?_
    exact .openPolicy hc new
  · have hi : kw ∉ headers := by
      simp_all [headers]
    cases sect with
    | proxy =>
      simp only [gives_bind, gives_pure]
      exact gives_of_forall fun cfg => .proxy cfg hi
    | certset i =>
      simp only [gives_bind, gives_pure]
      exact cfgParseCertset_gives.mono fun _ hl => .certset hi hl
    | listener i =>
      simp only [gives_bind, gives_pure]
      exact cfgParseListener_gives.mono fun _ hl => .listener hi hl
    | svrpool i =>
      simp only [gives_bind, gives_pure]
      exact cfgParseSvrpool_gives.mono fun _ hl => .svrpool hi hl
    | policy i =>
      simp only [gives_bind, gives_pure]
      exact cfgParsePolicy_gives.mono fun _ hl => .policy hi hl

/-! ## Files -/

/-- The keyword of a line that has one. -/
def keyword? (line : Text) : Option Text :=
  match strtokR (lineText line) with
  | none => none
  | some (keyword, _) => if keyword.head? = some '#' then none else some keyword

/-- The keywords of a file. -/
def keywords (content : Text) : List Text := (fgetsAll [] content).filterMap keyword?

variable {inv : List Text → Proxy → Section → Prop}

/-- A line without a keyword changes nothing, any other makes a step. -/
lemma cfgLoadLine_gives {calloc : Bool} {st : Loading} {line : Text} {kws : List Text}
    (step : ∀ {kws py sect kw py' sect'}, inv kws py sect → LineStep py sect kw py' sect' →
      inv (kws ++ [kw]) py' sect') (hh : inv kws st.py st.pctx.sect) :
    Gives (cfgLoadLine inet calloc st line) fun st' =>
      inv (kws ++ (keyword? line).toList) st'.py st'.pctx.sect := by
  have hs (none : keyword? line = none) : inv (kws ++ (keyword? line).toList) st.py st.pctx.sect := by
    rw [none, Option.toList_none, append_nil]
    exact hh
  unfold cfgLoadLine
  rw [gives_bind, gives_errIf]
  intro _
  cases ht : strtokR (lineText line) with
  | none =>
    simp only [gives_bind, gives_incr, gives_pure]
    exact fun _ => hs (by rw [keyword?, ht])
  | some pair =>
    obtain ⟨keyword, rest⟩ := pair
    dsimp only
    split_ifs with hc
    · simp only [gives_bind, gives_incr, gives_pure]
      exact fun _ => hs (by simp only [keyword?, ht, if_pos hc])
    · have hf : keyword? line = some keyword := by simp only [keyword?, ht, if_neg hc]
      rw [hf, Option.toList_some]
      simp only [gives_bind, gives_errIf, gives_orErrRet, gives_incr, gives_pure]
      intro _
      exact cfgParseLine_gives.mono fun after hm _ _ => step hh hm

/-- What each line keeps holds when the file is accepted, and its last section has passed
its check. -/
lemma cfgLoadFile_invariant {calloc : Nat → Bool} {py : Proxy} {file content : Text}
    (step : ∀ {kws py sect kw py' sect'}, inv kws py sect → LineStep py sect kw py' sect' →
      inv (kws ++ [kw]) py' sect') (hs : inv [] py .proxy) :
    Gives (cfgLoadFile inet calloc py file (some content)) fun py' =>
      ∃ sect, inv (keywords content) py' sect ∧ cfgCheckSection py' sect = .ok () := by
  have hl : ∀ (lines : List (Text × Nat)) (kws : List Text) (st : Loading), inv kws st.py st.pctx.sect →
      Gives (lines.foldlM (fun st e => cfgLoadLine inet (calloc e.2) st e.1) st) fun st' =>
        inv (kws ++ lines.filterMap (keyword? ·.1)) st'.py st'.pctx.sect := by
    intro lines
    induction lines with
    | nil =>
      intro kws st hh
      rw [filterMap_nil, append_nil]
      exact (gives_ok st).mpr hh
    | cons line lines ih =>
      intro kws st hh
      rw [foldlM_cons, gives_bind]
      refine (cfgLoadLine_gives step hh).mono fun st' hh' => ?_
      have hw := ih _ st' hh'
      rw [append_assoc] at hw
      rw [filterMap_eq_flatMap_toList, flatMap_cons, ← filterMap_eq_flatMap_toList]
      exact hw
  have all : (fgetsAll [] content).zipIdx.filterMap (keyword? ·.1) = keywords content := by
    conv_rhs => rw [keywords, ← zipIdx_map_fst 0 (fgetsAll [] content), filterMap_map]
    rfl
  simp only [cfgLoadFile, gives_bind, gives_orErrRet, gives_pure]
  have hw := hl (fgetsAll [] content).zipIdx []
    { py, pctx := { sect := .proxy, lineno := 1 }, lineno := 1 } hs
  rw [nil_append, all] at hw
  exact hw.mono fun st hh _ hc => ⟨st.pctx.sect, hh, hc⟩

/-- One address for every text, to run the parser on a file. -/
def anyAddress : Inet where
  ntop _ := []
  pton4 _ := some #v[10, 200, 2, 1]
  pton6 _ := none

end Fzsvn.Guarantees.Proxy.ConfigSteps
