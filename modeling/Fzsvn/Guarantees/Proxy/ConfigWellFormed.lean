import Fzsvn.Guarantees.Proxy.ConfigSteps

/-!
# Accepted configurations

A file that `cfg_load_file` accepts leaves a well-formed proxy: `WellFormed`. An object is in
the proxy's lists from the line that opens its section on, and is checked only when the next
section or the end of the file closes it. `Sound` says what holds in between: everything but
the object of the open section is complete, no name and no listener is used twice, and each
pointer points into its list.
-/
namespace Fzsvn.Guarantees.Proxy.ConfigWellFormed
open Library.Fallible Library.Registry Source.Config Source.Netutil ConfigSteps List

/-! ## What well-formed means -/

structure WellFormed (py : Proxy) : Prop where
  certsetNamed : ∀ cert ∈ py.certlist, cert.name ≠ []
  listenerNamed : ∀ ltn ∈ py.ltnlist, ltn.name ≠ []
  svrpoolNamed : ∀ sp ∈ py.splist, sp.name ≠ []
  policyNamed : ∀ pl ∈ py.pllist, pl.name ≠ []
  certsetNames : (py.certlist.map (·.name)).Nodup
  listenerNames : (py.ltnlist.map (·.name)).Nodup
  svrpoolNames : (py.splist.map (·.name)).Nodup
  policyNames : (py.pllist.map (·.name)).Nodup
  listenerAddress : ∀ ltn ∈ py.ltnlist, ltn.address ≠ none
  listenerCert : ∀ ltn ∈ py.ltnlist, ltn.ssl → ∃ c, ltn.cert = some c ∧ c < py.certlist.length
  servers : ∀ sp ∈ py.splist, sp.svrlist ≠ [] ∧ sp.nserver = sp.svrlist.length
  policyListener : ∀ pl ∈ py.pllist, ∃ l, pl.listener = some l ∧ l < py.ltnlist.length
  policySvrpool : ∀ pl ∈ py.pllist, ∃ s, pl.svrpool = some s ∧ s < py.splist.length
  listenersOnce : (py.pllist.map (·.listener)).Nodup

/-- An object without a name has none to share. -/
def nameKey (name : Text) : Option Text := if name = [] then none else some name

lemma nameKey_inj {name name' : Text} (he : nameKey name = nameKey name') : name = name' := by
  unfold nameKey at he
  split at he <;> split at he <;> simp_all

lemma nameKey_eq_some {name : Text} (hn : name ≠ []) : nameKey name = some name :=
  if_neg hn

/-! ## The invariant -/

/-- The checks of a section, without those of the certificates. -/
def CertsetDone (cert : Certset) : Prop := cert.name ≠ []

def ListenerDone (ltn : Listener) : Prop :=
  ltn.name ≠ [] ∧ ltn.address ≠ none ∧ (ltn.ssl → ltn.cert ≠ none)

def SvrpoolDone (sp : Svrpool) : Prop := sp.name ≠ [] ∧ 1 ≤ sp.nserver

def PolicyDone (pl : Policy) : Prop := pl.name ≠ [] ∧ pl.listener ≠ none ∧ pl.svrpool ≠ none

def openCertset : Section → Option Nat
  | .certset i => some i
  | _ => none

def openListener : Section → Option Nat
  | .listener i => some i
  | _ => none

def openSvrpool : Section → Option Nat
  | .svrpool i => some i
  | _ => none

def openPolicy : Section → Option Nat
  | .policy i => some i
  | _ => none

structure Sound (py : Proxy) (sect : Section) : Prop where
  certsets : Registered (nameKey ·.name) CertsetDone (openCertset sect) py.certlist
  listeners : Registered (nameKey ·.name) ListenerDone (openListener sect) py.ltnlist
  svrpools : Registered (nameKey ·.name) SvrpoolDone (openSvrpool sect) py.splist
  policies : Registered (nameKey ·.name) PolicyDone (openPolicy sect) py.pllist
  listenersOnce : Unique Policy.listener py.pllist
  certified : ∀ ltn ∈ py.ltnlist, ∀ c ∈ ltn.cert, c < py.certlist.length
  counted : ∀ sp ∈ py.splist, sp.nserver = sp.svrlist.length
  listening : ∀ pl ∈ py.pllist, ∀ l ∈ pl.listener, l < py.ltnlist.length
  serving : ∀ pl ∈ py.pllist, ∀ s ∈ pl.svrpool, s < py.splist.length

lemma sound_proxyAlloc : Sound proxyAlloc .proxy where
  certsets := .nil
  listeners := .nil
  svrpools := .nil
  policies := .nil
  listenersOnce := nodup_nil
  certified := nofun
  counted := nofun
  listening := nofun
  serving := nofun

lemma Sound.wellFormed {py : Proxy} (hh : Sound py .proxy) : WellFormed py where
  certsetNamed := hh.certsets.all_done
  listenerNamed ltn member := (hh.listeners.all_done ltn member).1
  svrpoolNamed sp member := (hh.svrpools.all_done sp member).1
  policyNamed pl member := (hh.policies.all_done pl member).1
  certsetNames := hh.certsets.unique.nodup_map fun cert member =>
    nameKey_eq_some (hh.certsets.all_done cert member)
  listenerNames := hh.listeners.unique.nodup_map fun ltn member =>
    nameKey_eq_some (hh.listeners.all_done ltn member).1
  svrpoolNames := hh.svrpools.unique.nodup_map fun sp member =>
    nameKey_eq_some (hh.svrpools.all_done sp member).1
  policyNames := hh.policies.unique.nodup_map fun pl member =>
    nameKey_eq_some (hh.policies.all_done pl member).1
  listenerAddress ltn member := (hh.listeners.all_done ltn member).2.1
  listenerCert ltn member ssl := by
    obtain ⟨c, cert⟩ := Option.ne_none_iff_exists'.mp ((hh.listeners.all_done ltn member).2.2 ssl)
    exact ⟨c, cert, hh.certified ltn member c cert⟩
  servers sp member := by
    have hc := hh.counted sp member
    have some := (hh.svrpools.all_done sp member).2
    constructor
    · rintro hn
      rw [hn] at hc
      simp only [length_nil, Int.ofNat_zero] at hc
      omega
    · exact hc
  policyListener pl member := by
    obtain ⟨l, hl⟩ := Option.ne_none_iff_exists'.mp (hh.policies.all_done pl member).2.1
    exact ⟨l, hl, hh.listening pl member l hl⟩
  policySvrpool pl member := by
    obtain ⟨s, hs⟩ := Option.ne_none_iff_exists'.mp (hh.policies.all_done pl member).2.2
    exact ⟨s, hs, hh.serving pl member s hs⟩
  listenersOnce := by
    have set : ∀ pl ∈ py.pllist, pl.listener = some (pl.listener.getD 0) := by
      intro pl member
      obtain ⟨l, hl⟩ := Option.ne_none_iff_exists'.mp (hh.policies.all_done pl member).2.1
      rw [hl, Option.getD_some]
    have ho := (hh.listenersOnce.nodup_map set).map (Option.some_injective Nat)
    rw [map_map] at ho
    rw [map_congr_left set]
    exact ho

/-! ## Changes of one object -/

variable {py : Proxy} {sect : Section} {i : Nat}

/-- A name that `proxy_find_xxx` did not find. -/
lemma renamed_keys {α : Type} {xs : List α} {nameOf : α → Text} {a b : α} (hc : Renamed nameOf xs a b) :
    nameKey (nameOf b) = nameKey (nameOf a) ∨ ∀ c ∈ xs, nameKey (nameOf c) ≠ nameKey (nameOf b) := by
  rcases hc with he | hf
  · exact .inl (congrArg nameKey he)
  · exact .inr fun c hm he => hf c hm (nameKey_inj he)

lemma forall_mem_set {α : Type} {xs : List α} {b : α} {P : α → Prop} (all : ∀ c ∈ xs, P c)
    (new : P b) : ∀ c ∈ xs.set i b, P c := by
  intro c hm
  rcases mem_or_eq_of_mem_set hm with old | rfl
  · exact all c old
  · exact new

lemma forall_mem_append {α : Type} {xs : List α} {b : α} {P : α → Prop} (all : ∀ c ∈ xs, P c)
    (new : P b) : ∀ c ∈ xs ++ [b], P c := by
  intro c hm
  rcases mem_append.mp hm with old | hl
  · exact all c old
  · exact mem_singleton.mp hl ▸ new

section

variable (hh : Sound py sect)
include hh

lemma Sound.setCertset {cert cert' : Certset} (he : py.certlist[i]? = some cert)
    (hc : Renamed Certset.name py.certlist cert cert')
    (hk : openCertset sect = some i ∨ (CertsetDone cert → CertsetDone cert')) :
    Sound (py.setCertset i cert') sect :=
  { hh with
    certsets := hh.certsets.set he (renamed_keys hc) hk
    certified := by simpa [Proxy.setCertset] using hh.certified }

lemma Sound.setListener {ltn ltn' : Listener} (he : py.ltnlist[i]? = some ltn)
    (hc : Renamed Listener.name py.ltnlist ltn ltn') (certified : ∀ c ∈ ltn'.cert, c < py.certlist.length)
    (hk : openListener sect = some i ∨ (ListenerDone ltn → ListenerDone ltn')) :
    Sound (py.setListener i ltn') sect :=
  { hh with
    listeners := hh.listeners.set he (renamed_keys hc) hk
    certified := forall_mem_set hh.certified certified
    listening := by simpa [Proxy.setListener] using hh.listening }

lemma Sound.setSvrpool {sp sp' : Svrpool} (he : py.splist[i]? = some sp)
    (hc : Renamed Svrpool.name py.splist sp sp') (counted : sp'.nserver = sp'.svrlist.length)
    (hk : openSvrpool sect = some i ∨ (SvrpoolDone sp → SvrpoolDone sp')) :
    Sound (py.setSvrpool i sp') sect :=
  { hh with
    svrpools := hh.svrpools.set he (renamed_keys hc) hk
    counted := forall_mem_set hh.counted counted
    serving := by simpa [Proxy.setSvrpool] using hh.serving }

lemma Sound.setPolicy {pl pl' : Policy} (entry : py.pllist[i]? = some pl)
    (hc : Renamed Policy.name py.pllist pl pl')
    (once : pl'.listener = pl.listener ∨ ∀ c ∈ py.pllist, c.listener ≠ pl'.listener)
    (listening : ∀ l ∈ pl'.listener, l < py.ltnlist.length)
    (serving : ∀ s ∈ pl'.svrpool, s < py.splist.length) (ho : openPolicy sect = some i) :
    Sound (py.setPolicy i pl') sect :=
  { hh with
    policies := hh.policies.set entry (renamed_keys hc) (.inl ho)
    listenersOnce := by
      rcases once with he | hf
      · exact hh.listenersOnce.set_same entry he
      · exact hh.listenersOnce.set_fresh entry hf
    listening := forall_mem_set hh.listening listening
    serving := forall_mem_set hh.serving serving }

end

/-! ## Lines -/

variable {py' : Proxy} {kw : Text}

lemma CertsetLine.sound (hl : CertsetLine py i py') (hh : Sound py (.certset i)) :
    Sound py' (.certset i) := by
  cases hl with
  | set he hn => exact hh.setCertset he hn (.inl rfl)

lemma ListenerLine.sound (hl : ListenerLine py i py') (hh : Sound py (.listener i)) :
    Sound py' (.listener i) := by
  cases hl with
  | @set ltn ltn' he hn cert =>
    apply hh.setListener he hn _ (.inl rfl)
    rw [cert]
    exact hh.certified ltn (mem_of_getElem? he)
  | @certset ltn c cert he hf =>
    have hc : Sound (py.setCertset c { cert with refcnt := fetchAndAdd cert.refcnt })
        (.listener i) := hh.setCertset hf (.inl rfl) (.inr id)
    refine hc.setListener he (.inl rfl) ?_ (.inl rfl)
    rintro c' ⟨⟩
    rw [Proxy.setCertset, length_set]
    exact (List.getElem?_eq_some_iff.mp hf).1

lemma SvrpoolLine.sound (hl : SvrpoolLine py i kw py') (hh : Sound py (.svrpool i)) :
    Sound py' (.svrpool i) := by
  cases hl with
  | @set sp sp' he hn hs hc ho =>
    apply hh.setSvrpool he hn _ (.inl rfl)
    rw [hs, hc]
    exact hh.counted sp (mem_of_getElem? he)
  | @server sp he svr hk =>
    refine hh.setSvrpool he (.inl rfl) ?_ (.inl rfl)
    rw [hh.counted sp (mem_of_getElem? he), length_append, length_singleton, Int.natCast_succ]

lemma PolicyLine.sound (line : PolicyLine py i py') (hh : Sound py (.policy i)) :
    Sound py' (.policy i) := by
  cases line with
  | @set pl pl' entry name listener svrpool =>
    have hl := hh.listening pl (mem_of_getElem? entry)
    have hs := hh.serving pl (mem_of_getElem? entry)
    rw [← listener] at hl
    rw [← svrpool] at hs
    exact hh.setPolicy entry name (.inl listener) hl hs rfl
  | @listener pl l ltn entry found unused =>
    have hs := hh.serving pl (mem_of_getElem? entry)
    have hc := hh.certified ltn (mem_of_getElem? found)
    have cloned : Sound (py.setListener l { ltn with refcnt := fetchAndAdd ltn.refcnt })
        (.policy i) := hh.setListener found (.inl rfl) hc (.inr id)
    refine cloned.setPolicy entry (.inl rfl) (.inr unused) ?_ hs rfl
    rintro l' ⟨⟩
    rw [Proxy.setListener, length_set]
    exact (List.getElem?_eq_some_iff.mp found).1
  | @svrpool pl s sp entry found =>
    have hl := hh.listening pl (mem_of_getElem? entry)
    have counted := hh.counted sp (mem_of_getElem? found)
    have cloned : Sound (py.setSvrpool s { sp with refcnt := fetchAndAdd sp.refcnt })
        (.policy i) := hh.setSvrpool found (.inl rfl) counted (.inr id)
    refine cloned.setPolicy entry (.inl rfl) (.inl rfl) hl ?_ rfl
    rintro s' ⟨⟩
    rw [Proxy.setSvrpool, length_set]
    exact (List.getElem?_eq_some_iff.mp found).1

/-- The object that was open has passed its check. -/
lemma Sound.close (hh : Sound py sect) (hc : cfgCheckSection py sect = .ok ()) : Sound py .proxy := by
  revert hc
  suffices checked : Gives (cfgCheckSection py sect) fun _ => Sound py .proxy from checked ()
  cases sect with
  | proxy => exact (gives_ok ()).mpr hh
  | certset i =>
    simp only [cfgCheckSection, cfgCheckCertset, gives_bind, gives_deref, gives_errIf]
    intro cert he hn
    apply gives_of_forall
    intro _
    exact { hh with certsets := hh.certsets.close he hn }
  | listener i =>
    simp only [cfgCheckSection, cfgCheckListener, gives_bind, gives_deref, gives_errIf]
    intro ltn he hn ha cert
    have hw : ListenerDone ltn := ⟨hn, ha, fun ssl none => cert ⟨ssl, none⟩⟩
    exact { hh with listeners := hh.listeners.close he hw }
  | svrpool i =>
    simp only [cfgCheckSection, cfgCheckSvrpool, gives_bind, gives_deref, gives_errIf]
    intro sp he hn hs
    have hw : SvrpoolDone sp := ⟨hn, Int.not_lt.mp hs⟩
    exact { hh with svrpools := hh.svrpools.close he hw }
  | policy i =>
    simp only [cfgCheckSection, cfgCheckPolicy, gives_bind, gives_deref, gives_errIf]
    intro pl he hn listener svrpool
    exact { hh with policies := hh.policies.close he ⟨hn, listener, svrpool⟩ }

/-! A new object is empty. -/

section

variable (hh : Sound py .proxy)
include hh

lemma Sound.openCertset {cert : Certset} (new : certsetAlloc true = .ok cert) :
    Sound { py with certlist := py.certlist ++ [cert] } (.certset py.certlist.length) := by
  cases new
  refine { hh with certsets := hh.certsets.add rfl, certified := ?_ }
  intro ltn hm c hp
  rw [length_append]
  exact Nat.lt_add_right _ (hh.certified ltn hm c hp)

lemma Sound.openListener {ltn : Listener} (new : listenerAlloc true = .ok ltn) :
    Sound { py with ltnlist := py.ltnlist ++ [ltn] } (.listener py.ltnlist.length) := by
  cases new
  refine { hh with
    listeners := hh.listeners.add rfl, certified := forall_mem_append hh.certified nofun
    listening := ?_ }
  intro pl hm l hp
  rw [length_append]
  exact Nat.lt_add_right _ (hh.listening pl hm l hp)

lemma Sound.openSvrpool {sp : Svrpool} (new : svrpoolAlloc true = .ok sp) :
    Sound { py with splist := py.splist ++ [sp] } (.svrpool py.splist.length) := by
  cases new
  refine { hh with
    svrpools := hh.svrpools.add rfl, counted := forall_mem_append hh.counted rfl
    serving := ?_ }
  intro pl hm s hp
  rw [length_append]
  exact Nat.lt_add_right _ (hh.serving pl hm s hp)

lemma Sound.openPolicy {pl : Policy} (new : policyAlloc true = .ok pl) :
    Sound { py with pllist := py.pllist ++ [pl] } (.policy py.pllist.length) := by
  cases new
  exact { hh with
    policies := hh.policies.add rfl
    listenersOnce := hh.listenersOnce.append rfl
    listening := forall_mem_append hh.listening nofun
    serving := forall_mem_append hh.serving nofun }

end

lemma LineStep.sound {sect' : Section} (hs : LineStep py sect kw py' sect')
    (hh : Sound py sect) : Sound py' sect' := by
  cases hs with
  | openProxy hc => exact hh.close hc
  | openCertset hc new => exact (hh.close hc).openCertset new
  | openListener hc new => exact (hh.close hc).openListener new
  | openSvrpool hc new => exact (hh.close hc).openSvrpool new
  | openPolicy hc new => exact (hh.close hc).openPolicy new
  | proxy cfg hi => exact { hh with }
  | certset hi hl => exact CertsetLine.sound hl hh
  | listener hi hl => exact ListenerLine.sound hl hh
  | svrpool hi hl => exact SvrpoolLine.sound hl hh
  | policy hi hl => exact PolicyLine.sound hl hh

/-! ## Whole files -/

/-- From any proxy that is sound. -/
lemma cfgLoadFile_sound {inet : Inet} {calloc : Nat → Bool} {py : Proxy} {file : Text}
    {content : Option Text} (hh : Sound py .proxy) :
    Gives (cfgLoadFile inet calloc py file content) fun py' => Sound py' .proxy := by
  cases content with
  | none => exact gives_errRet
  | some content =>
    have hl := @cfgLoadFile_invariant inet (fun _ => Sound) calloc py file content
      (fun hs step => LineStep.sound step hs) hh
    exact hl.mono fun py' ⟨sect, hs, hc⟩ => hs.close hc

/-- Whatever the file and the allocations, what is accepted is well-formed. -/
theorem accepted_wellFormed (inet : Inet) (calloc : Nat → Bool) (file : Text)
    (content : Option Text) (py : Proxy)
    (accepted : cfgLoadFile inet calloc proxyAlloc file content = .ok py) : WellFormed py :=
  (cfgLoadFile_sound sound_proxyAlloc py accepted).wellFormed

def smallFile : Text :=
  ("[listener]\nname v\naddress 10.200.2.1:80\n[svrpool]\nname s\n" ++
    "server 1 http 10.200.2.1:80\n[policy]\nname p\nlistener v\nsvrpool s\n").toList

theorem accepted_wellFormed_small :
    ∃ py, cfgLoadFile anyAddress (fun _ => true) proxyAlloc [] (some smallFile) = .ok py ∧ WellFormed py := by
  obtain ⟨py, ha⟩ :
      ∃ py, cfgLoadFile anyAddress (fun _ => true) proxyAlloc [] (some smallFile) = .ok py :=
    exists_ok (by decide +kernel)
  exact ⟨py, ha, accepted_wellFormed anyAddress (fun _ => true) [] _ py ha⟩

end Fzsvn.Guarantees.Proxy.ConfigWellFormed
