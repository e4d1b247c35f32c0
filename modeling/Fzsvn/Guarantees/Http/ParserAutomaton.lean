import Fzsvn.Source.Http.HttpParse

/-!
# The parser as an automaton

As `_http_VERSION` never ends its token, a parser that starts with a new message stays in the
states before the first end of a line. There every character is read by one of `_http_METHOD`,
`_http_URL` and `_http_VERSION`, and a call of the parser is the automaton `next` run over the
characters, after what the first of these functions does when it is entered. The automaton
leaves out the stored strings.
-/
namespace Fzsvn.Guarantees.Http.ParserAutomaton
open Library.MachineInt Source.Http List Info

variable {σ : Type}

/-! ## The automaton -/

/-- A message without the stored strings. -/
abbrev Core := Info Unit

def core (info : Info σ) : Core := { info with strings := () }

/-- Nothing is stored. -/
def noStrings : Strings Unit where
  empty := ()
  copyMemory _ _ _ _ _ := ()
  decodeCookie _ _ := ()

def versionNext (s : Core) (c : Char) : Option Core :=
  match versionSwitch s c with
  | .go s => some (versionAdvance s)
  | _ => none

/-- The line and the column are set when `_http_VERSION` is entered. -/
def restart (s : Core) : Core := { s with line := 1, col := 1 }

def urlNext (s : Core) (c : Char) : Option Core :=
  match s.tstate with
  | .begin =>
    if c = ' ' then some s.advance
    else if !httpIsUrl c then none
    else some { s with tstate := .inside }.advance
  | .inside =>
    if c = '\r' ∨ c = '\n' ∨ c = ' ' then versionNext (restart (s.turn .version)) c
    else some (s.markUrl c).advance
  | _ => none

def methodEnd (s : Core) : Core := { s with method := some (httpCheckMethod s.cache) }.turn .url

def methodNext (s : Core) (c : Char) : Option Core :=
  match methodSwitch s c with
  | .go s => if s.tstate = .fin then urlNext (methodEnd s) c else some s.advance
  | _ => none

def next (s : Core) (c : Char) : Option Core :=
  match s.mstate with
  | .method => methodNext s c
  | .url => urlNext s c
  | .version => versionNext s c
  | _ => none

/-- What happens when a token function is entered. -/
def enter (s : Core) : Core :=
  match s.mstate with
  | .method => { s with line := 1, col := 1, cache := [] }
  | .version => restart s
  | _ => s

variable {s : Core}

lemma enter_method (hs : s.mstate = .method) : enter s = { s with line := 1, col := 1, cache := [] } := by
  unfold enter
  split <;> simp_all

lemma enter_version (hs : s.mstate = .version) : enter s = restart s := by
  unfold enter
  split <;> simp_all

lemma enter_mstate (s : Core) : (enter s).mstate = s.mstate := by
  unfold enter
  split <;> rfl

lemma enter_url (hs : s.mstate = .url) : enter s = s := by
  unfold enter
  split <;> simp_all

/-- The characters that are left are read by the function of the state. -/
def resume (s : Core) (ptr : List Char) : Option Core :=
  if ptr = [] then some s else ptr.foldlM next (enter s)

/-! ## The token functions -/

/-- A character can leave a token in these states. -/
def Open (info : Info σ) : Prop := info.tstate = .begin ∨ info.tstate = .inside

/-- The parser is inside a message, before the first end of a line. -/
structure Active (msgType : MsgType) (info : Info σ) : Prop where
  kind : info.msgType = msgType
  opened : Open info
  main : info.mstate = .version ∨ (msgType = .request ∧ (info.mstate = .method ∨ info.mstate = .url))

variable {info : Info σ} {msgType : MsgType}

lemma Active.mstate_ne (ha : Active msgType info) :
    info.mstate ≠ .begin ∧ info.mstate ≠ .body ∧ info.mstate ≠ .fin := by
  rcases ha.main with hs | ⟨-, hs | hs⟩ <;> simp [hs]

/-- How many states are still to come. -/
def rank : MainState → Nat
  | .begin => 3
  | .method => 2
  | .url => 1
  | _ => 0

/-- What a token function leaves, against what the automaton does from the same state. -/
def Follows (msgType : MsgType) (s : Core) (buf : List Char) : Scanned σ → Prop
  | (_, none) => buf.foldlM next s = none
  | (info, some ptr) => buf.foldlM next s = resume (core info) ptr ∧ Active msgType info ∧
    ptr.length ≤ buf.length ∧ (ptr = [] ∨ rank info.mstate < rank s.mstate)

section

variable (info : Info σ) (c : Char)

@[simp] lemma core_cacheChar : core (info.cacheChar c) = (core info).cacheChar c := by
  unfold cacheChar
  by_cases hr : info.cache.length < httpMaxCache - 1
  · rw [if_pos hr, if_pos (show (core info).cache.length < _ from hr)]
    rfl
  · rw [if_neg hr, if_neg (show ¬ (core info).cache.length < _ from hr)]

@[simp] lemma cacheChar_mstate : (info.cacheChar c).mstate = info.mstate := by
  unfold cacheChar
  split <;> rfl

@[simp] lemma cacheChar_msgType : (info.cacheChar c).msgType = info.msgType := by
  unfold cacheChar
  split <;> rfl

@[simp] lemma cacheChar_tstate : (info.cacheChar c).tstate = info.tstate := by
  unfold cacheChar
  split <;> rfl

end

lemma Open.ne_fin (opened : Open info) : info.tstate ≠ .fin := by
  rcases opened with hs | hs <;> simp [hs]

lemma versionSwitch_cases (opened : Open info) {c : Char} :
    (versionSwitch info c = .error ∧ versionSwitch (core info) c = .error) ∨
      ∃ info', versionSwitch info c = .go info' ∧ versionSwitch (core info) c = .go (core info') ∧
        Open info' ∧ info'.mstate = info.mstate ∧ info'.msgType = info.msgType := by
  have he : (core info).tstate = info.tstate := rfl
  have pos : (core info).tokpos = info.tokpos := rfl
  rcases opened with hs | hs
  · simp only [versionSwitch, he, hs]
    by_cases hb : c = ' ' ∨ c = '\t'
    · simp only [if_pos hb]
      exact .inr ⟨info, rfl, rfl, .inl hs, rfl, rfl⟩
    · simp only [if_neg hb]
      by_cases hf : c ≠ 'H'
      · simp only [if_pos hf]
        exact .inl ⟨trivial, trivial⟩
      · simp only [if_neg hf]
        refine .inr ⟨_, rfl, ?_, .inr rfl, cacheChar_mstate info c, cacheChar_msgType info c⟩
        rw [← core_cacheChar]
        rfl
  · simp only [versionSwitch, he, hs, pos]
    by_cases hm : ((info.tokpos = 1 ∨ info.tokpos = 2) ∧ c ≠ 'T') ∨ (info.tokpos = 3 ∧ c ≠ 'P') ∨
        (info.tokpos = 4 ∧ c ≠ '/')
    · simp only [if_pos hm]
      exact .inl ⟨trivial, trivial⟩
    · simp only [if_neg hm]
      refine .inr ⟨_, rfl, ?_, .inr ((cacheChar_tstate info c).trans hs), cacheChar_mstate info c,
        cacheChar_msgType info c⟩
      rw [← core_cacheChar]

/-- The loop of a token function: at the end of the token, if it has one, the automaton is
where `finish` leads. -/
def Scans (s : Core) (buf : List Char) (finish : Option (Core → Core)) : Scanned σ → Prop
  | (_, none) => buf.foldlM next s = none
  | (info, some ptr) => info.mstate = s.mstate ∧ info.msgType = s.msgType ∧ ptr.length ≤ buf.length ∧
    ((∃ f ∈ finish, info.tstate = .fin ∧ ptr ≠ [] ∧ buf.foldlM next s = ptr.foldlM next (f (core info))) ∨
      (Open info ∧ ptr = [] ∧ buf.foldlM next s = some (core info)))

variable {finish : Option (Core → Core)}

lemma Scans.empty {s : Core} (opened : Open info) (he : core info = s) :
    Scans s [] finish (info, some []) := by
  subst he
  exact ⟨rfl, rfl, Nat.le_refl _, .inr ⟨opened, rfl, rfl⟩⟩

lemma Scans.cons {s s' : Core} {c : Char} {ptr : List Char} {scanned : Scanned σ}
    (step : next s c = some s') (hm : s'.mstate = s.mstate) (hk : s'.msgType = s.msgType)
    (rest : Scans s' ptr finish scanned) : Scans s (c :: ptr) finish scanned := by
  have run : (c :: ptr).foldlM next s = ptr.foldlM next s' := by
    rw [foldlM_cons, step]
    rfl
  revert rest
  obtain ⟨left, ptr?⟩ := scanned
  cases ptr? with
  | none => exact run.trans
  | some ptr =>
    rintro ⟨sameMain, hs, shorter, ho⟩
    refine ⟨sameMain.trans hm, hs.trans hk, Nat.le_succ_of_le shorter, ?_⟩
    rw [run]
    exact ho

section

variable (opened : Open info)
include opened

lemma version_scans (hs : info.mstate = .version) {buf : List Char} :
    Scans (core info) buf none (scan false versionAdvance versionSwitch buf info) := by
  induction buf generalizing info with
  | nil => exact .empty opened rfl
  | cons c ptr ih =>
    have step : next (core info) c = versionNext (core info) c := by
      rw [next, show (core info).mstate = .version from hs]
    rcases versionSwitch_cases opened with ⟨hf, hf'⟩ | ⟨info', go, go', ho', hm, hk⟩
    · rw [scan, hf, Scans, foldlM_cons, step, versionNext, hf']
      rfl
    · rw [scan, go]
      simp only [if_neg ho'.ne_fin]
      have ho : next (core info) c = some (core (versionAdvance info')) := by
        rw [step, versionNext, go']
        rfl
      exact Scans.cons ho hm hk (@ih (versionAdvance info') ho' (hm.trans hs))

lemma methodSwitch_cases {c : Char} : (methodSwitch info c = .error ∧ methodSwitch (core info) c = .error) ∨
      (∃ info', methodSwitch info c = .go info' ∧ methodSwitch (core info) c = .go (core info') ∧
        Open info' ∧ info'.mstate = info.mstate ∧ info'.msgType = info.msgType) ∨
      (methodSwitch info c = .go { info with tstate := .fin } ∧
        methodSwitch (core info) c = .go (core { info with tstate := .fin })) := by
  have he : (core info).tstate = info.tstate := rfl
  rcases opened with state | state
  · simp only [methodSwitch, he, state]
    by_cases hb : c = ' ' ∨ c = '\t'
    · simp only [if_pos hb]
      exact .inr (.inl ⟨info, rfl, rfl, .inl state, rfl, rfl⟩)
    · simp only [if_neg hb]
      by_cases hi : (!httpIsToken c) = true
      · simp only [if_pos hi]
        exact .inl ⟨trivial, trivial⟩
      · simp only [if_neg hi]
        refine .inr (.inl ⟨_, rfl, ?_, .inr rfl, cacheChar_mstate info c, cacheChar_msgType info c⟩)
        rw [← core_cacheChar]
        rfl
  · simp only [methodSwitch, he, state]
    by_cases hs : c = ' '
    · simp only [if_pos hs]
      exact .inr (.inr ⟨trivial, rfl⟩)
    · simp only [if_neg hs]
      by_cases hi : (!httpIsToken c) = true
      · simp only [if_pos hi]
        exact .inl ⟨trivial, trivial⟩
      · simp only [if_neg hi]
        refine .inr (.inl ⟨_, rfl, ?_, .inr ((cacheChar_tstate info c).trans state),
          cacheChar_mstate info c, cacheChar_msgType info c⟩)
        rw [← core_cacheChar]

lemma method_scans (hs : info.mstate = .method) {buf : List Char} :
    Scans (core info) buf (some methodEnd) (scan false advance methodSwitch buf info) := by
  induction buf generalizing info with
  | nil => exact .empty opened rfl
  | cons c ptr ih =>
    have step : next (core info) c = methodNext (core info) c := by
      rw [next, show (core info).mstate = .method from hs]
    rcases methodSwitch_cases opened with ⟨hf, hf'⟩ | ⟨info', go, go', ho', hm, hk⟩ | ⟨go, go'⟩
    · rw [scan, hf, Scans, foldlM_cons, step, methodNext, hf']
      rfl
    · rw [scan, go]
      simp only [if_neg ho'.ne_fin]
      have ho : next (core info) c = some (core info'.advance) := by
        rw [step, methodNext, go']
        exact if_neg ho'.ne_fin
      exact Scans.cons ho hm hk (ih ho' (hm.trans hs))
    · rw [scan, go]
      refine ⟨rfl, rfl, Nat.le_refl _, .inl ⟨_, rfl, rfl, cons_ne_nil _ _, ?_⟩⟩
      rw [foldlM_cons, foldlM_cons, step, methodNext, go']
      rfl

lemma urlLoop_scans (hs : info.mstate = .url) (buf start : List Char) (ulen : Nat) :
    Scans (core info) buf (some fun s => restart (s.turn .version)) (urlLoop buf start ulen info).1 := by
  induction buf generalizing info start ulen with
  | nil => exact .empty opened rfl
  | cons c ptr ih =>
    have he : (core info).tstate = info.tstate := rfl
    have step : next (core info) c = urlNext (core info) c := by
      rw [next, show (core info).mstate = .url from hs]
    rcases opened with tstate | tstate
    · simp only [urlLoop, urlNext, he, tstate] at step ⊢
      by_cases space : c = ' '
      · simp only [if_pos space] at step ⊢
        exact Scans.cons step rfl rfl (@ih info.advance (.inl tstate) hs _ _)
      · simp only [if_neg space] at step ⊢
        by_cases hi : (!httpIsUrl c) = true
        · simp only [if_pos hi] at step ⊢
          rw [Scans, foldlM_cons, step]
          rfl
        · simp only [if_neg hi] at step ⊢
          let inside : Info σ := { info with tstate := .inside }
          exact Scans.cons step rfl rfl (@ih inside.advance (.inr rfl) hs _ _)
    · simp only [urlLoop, urlNext, he, tstate] at step ⊢
      by_cases ended : c = '\r' ∨ c = '\n' ∨ c = ' '
      · simp only [if_pos ended] at step ⊢
        refine ⟨rfl, rfl, Nat.le_refl _, .inl ⟨_, rfl, rfl, cons_ne_nil _ _, ?_⟩⟩
        rw [foldlM_cons, foldlM_cons, step]
        rfl
      · simp only [if_neg ended] at step ⊢
        exact Scans.cons step rfl rfl (@ih (info.markUrl c).advance (.inr tstate) hs _ _)

end

variable {buf : List Char}

/-- What comes after the loop makes the step to the next state. -/
lemma Scans.follows {s : Core} {scanned : Scanned σ} {after : Info σ → Info σ}
    (hs : Scans s buf finish scanned) (ha : Active msgType s)
    (ends : ∀ f ∈ finish, ∀ info, info.mstate = s.mstate → info.msgType = msgType →
      enter (core (after info)) = f (core info) ∧ Active msgType (after info) ∧
        rank (after info).mstate < rank s.mstate) :
    Follows msgType s buf (finishing after scanned) := by
  obtain ⟨info, ptr?⟩ := scanned
  cases ptr? with
  | none => exact hs
  | some ptr =>
    obtain ⟨hm, hk, shorter, ⟨f, hi, fin, hn, run⟩ | ⟨opened, rfl, run⟩⟩ := hs
    · obtain ⟨he, ho, hl⟩ := ends f hi info hm (hk.trans ha.kind)
      simp only [finishing, if_pos fin]
      refine ⟨?_, ho, shorter, .inr hl⟩
      rw [resume, if_neg hn, he]
      exact run
    · simp only [finishing, if_neg opened.ne_fin]
      refine ⟨run, ⟨hk.trans ha.kind, opened, ?_⟩, shorter, .inl rfl⟩
      rw [hm]
      exact ha.main

lemma Active.core (ha : Active msgType info) : Active msgType (enter (core info)) := by
  obtain ⟨hk, opened, hm⟩ := ha
  have he : Active msgType (ParserAutomaton.core info) := ⟨hk, opened, hm⟩
  unfold enter
  split
  · exact { he with }
  · exact { he with }
  · exact he

lemma httpMethod_follows (ha : Active .request info) (hs : info.mstate = .method) :
    Follows .request (enter (core info)) buf (httpMethod info buf) := by
  have start := ha.core
  rw [enter_method hs] at start ⊢
  have scans := @method_scans σ { info with line := 1, col := 1, cache := [] } start.opened hs buf
  refine scans.follows start fun f hi info' hm hk => ?_
  cases hi
  have hl : rank .url < rank info.mstate := by
    rw [hs]
    decide
  exact ⟨rfl, ⟨hk, .inl rfl, .inr ⟨rfl, .inr rfl⟩⟩, hl⟩

lemma httpUrl_follows (strings : Strings σ) (ha : Active .request info)
    (hs : info.mstate = .url) (buf : List Char) :
    Follows .request (enter (core info)) buf (httpUrl strings info buf) := by
  have start := ha.core
  rw [enter_url hs] at start ⊢
  have scans := urlLoop_scans ha.opened hs buf buf 0
  unfold httpUrl
  revert scans
  generalize urlLoop buf buf 0 info = looped
  obtain ⟨⟨info', ptr?⟩, begins, ulen⟩ := looped
  intro scans
  cases ptr? with
  | none => exact scans
  | some ptr =>
    have hl : rank .version < rank info.mstate := by
      rw [hs]
      decide
    have hc (text : σ) : Follows .request (core info) buf
        (finishing (·.turn .version) ({ info' with strings := text }, some ptr)) := by
      have stored : Scans (core info) buf (some fun s => restart (s.turn .version))
        ({ info' with strings := text }, some ptr) := scans
      refine stored.follows start fun f hi info' hm hk => ?_
      cases hi
      exact ⟨rfl, ⟨hk, .inl rfl, .inl rfl⟩, hl⟩
    by_cases fin : info'.tstate = .fin
    · simpa [finishing, fin] using hc (strings.copyMemory info'.strings (.field .oriurl) (some begins) ulen true)
    · simpa [finishing, fin] using hc (strings.copyMemory info'.strings (.field .oriurl) (some begins) ulen false)

lemma httpVersion_follows (ha : Active msgType info) (hs : info.mstate = .version) :
    Follows msgType (enter (core info)) buf (httpVersion info buf) := by
  have start := ha.core
  rw [enter_version hs] at start ⊢
  have scans := @version_scans σ { info with line := 1, col := 1 } start.opened hs buf
  exact scans.follows start nofun

/-! ## The loop of the parser -/

section

variable (strings : Strings σ)

/-- The parser of requests or of responses. -/
def parse : MsgType → Info σ → List Char → Nat → Except Fault (Int × Info σ)
  | .request => httpParseRequest strings
  | .response => httpParseResponse strings

def firstState : MsgType → MainState
  | .request => .method
  | .response => .version

def tokens : MsgType → MainState → Option (Info σ → List Char → Scanned σ)
  | .request => requestToken strings
  | .response => responseToken strings

lemma token_follows (ha : Active msgType info) :
    ∃ scanToken, tokens strings msgType info.mstate = some scanToken ∧
      Follows msgType (enter (core info)) buf (scanToken info buf) := by
  rcases ha.main with hs | ⟨rfl, hs | hs⟩
  · rw [hs]
    cases msgType <;> exact ⟨httpVersion, rfl, httpVersion_follows ha hs⟩
  · rw [hs]
    exact ⟨httpMethod, rfl, httpMethod_follows ha hs⟩
  · rw [hs]
    exact ⟨httpUrl strings, rfl, httpUrl_follows strings ha hs buf⟩

/-- How a call ends: -1, or 0 with the message in the state of the automaton. -/
def Outcome (msgType : MsgType) (expected : Option Core) (call : Except Fault (Int × Info σ)) : Prop :=
  ∃ result info, call = .ok (result, info) ∧
    ((expected = none ∧ result = -1) ∨ (expected = some (core info) ∧ result = 0 ∧ Active msgType info))

lemma toInt_hidden {seen hidden : Nat} (hs : seen < 2 ^ 31) (hm : 2 ^ 32 ∣ hidden) :
    toInt ((seen + hidden : Nat) : Int) = seen := by
  obtain ⟨k, rfl⟩ := hm
  rw [toInt]
  have he : ((seen + 2 ^ 32 * k : Nat) : Int) = (seen : Int) + (2 ^ 32 : Nat) * k := by push_cast; rfl
  rw [he, Int.add_mul_bmod_self_left]
  exact toInt_small (by omega) (by omega)

/-- An `int` holds the size up to a multiple. -/
lemma toInt_split {n : Nat} (seen : 0 < toInt n) : ∃ k ≤ n, 0 < k ∧ k < 2 ^ 31 ∧ 2 ^ 32 ∣ n - k := by
  refine ⟨(toInt n).toNat, ?_⟩
  rw [toInt, Int.bmod_def] at seen ⊢
  omega

variable {seen hidden : List Char}

/-- The loop reads the characters that it sees; what it does not see is a multiple of what an
`int` can tell apart. -/
lemma parseLoop_runs {fuel : Nat} (start : Nat) (hs : seen.length < 2 ^ 31)
    (hm : 2 ^ 32 ∣ hidden.length) (ha : Active msgType info)
    (hf : (if seen = [] then 1 else rank info.mstate + 2) ≤ fuel) :
    Outcome msgType (resume (core info) seen)
      (parseLoop strings msgType (firstState msgType) (tokens strings msgType) start fuel info (seen ++ hidden)) := by
  induction fuel generalizing info seen with
  | zero =>
    split at hf <;> omega
  | succ fuel ih =>
    have hr : toInt ((seen ++ hidden).length : Int) = seen.length := by
      rw [length_append]
      exact toInt_hidden hs hm
    simp only [parseLoop, hr]
    by_cases hn : seen = []
    · subst hn
      rw [if_pos (by simp)]
      exact ⟨0, info, rfl, .inr ⟨rfl, rfl, ha⟩⟩
    · have filled := length_pos_iff.mpr hn
      have hu : ¬ (seen.length : Int) ≤ 0 := by omega
      obtain ⟨notBegin, -, notFin⟩ := ha.mstate_ne
      obtain ⟨scanToken, found, follows⟩ := token_follows strings ha
      rw [if_neg hu, if_neg notFin]
      simp only [dispatch, if_neg notBegin, found, Int.toNat_natCast, take_left', drop_left']
      rw [resume, if_neg hn]
      revert follows
      obtain ⟨info', ptr?⟩ := scanToken info seen
      cases ptr? with
      | none =>
        intro follows
        exact ⟨-1, info', rfl, .inl ⟨follows, rfl⟩⟩
      | some ptr =>
        rintro ⟨run, ha', shorter, hp⟩
        simp only [if_neg ha'.mstate_ne.2.2]
        rw [run]
        apply ih (Nat.lt_of_le_of_lt shorter hs) ha'
        rw [if_neg hn] at hf
        split
        · omega
        · next unfinished =>
          have hl := hp.resolve_left unfinished
          rw [show (enter (core info)).mstate = info.mstate from enter_mstate (core info)] at hl
          omega

lemma parse_eq (msgType : MsgType) : parse strings msgType =
    httpParse strings msgType (firstState msgType) (tokens strings msgType) := by
  cases msgType <;> rfl

lemma rank_le (state : MainState) : rank state ≤ 3 := by
  cases state <;> decide

/-- A size that is not positive as an `int`: nothing is read. -/
lemma parse_unseen (start : Nat) (hf : buf ≠ []) (hu : toInt buf.length ≤ 0)
    (hk : info.msgType = msgType) : parse strings msgType info buf start = .ok (0, info) := by
  have hn : ¬ buf.length < 1 := Nat.not_lt.mpr (length_pos_iff.mpr hf)
  have hs : ¬ info.msgType ≠ msgType := fun ho => ho hk
  rw [parse_eq, httpParse, if_neg hn]
  simp only [if_neg hs]
  rw [show parseTurns buf.length = 4 * buf.length + 7 + 1 from rfl, parseLoop]
  exact if_pos hu

/-- A call in the middle of a message. -/
lemma parse_active (start : Nat) (filled : seen ≠ []) (hs : seen.length < 2 ^ 31)
    (hm : 2 ^ 32 ∣ hidden.length) (ha : Active msgType info) :
    Outcome msgType (seen.foldlM next (enter (core info))) (parse strings msgType info (seen ++ hidden) start) := by
  have hn : ¬ (seen ++ hidden).length < 1 := by
    have hl := length_pos_iff.mpr filled
    rw [length_append]
    omega
  have hk : ¬ info.msgType ≠ msgType := fun ho => ho ha.kind
  have hf : (if seen = [] then 1 else rank info.mstate + 2) ≤ parseTurns (seen ++ hidden).length := by
    have hb := rank_le info.mstate
    rw [if_neg filled, parseTurns]
    omega
  have run := parseLoop_runs strings start hs hm ha hf
  rw [resume, if_neg filled] at run
  rw [parse_eq, httpParse, if_neg hn]
  simp only [if_neg hk]
  exact run

/-- A message that has begun. -/
def begun (msgType : MsgType) (start : Nat) (info : Info σ) : Info σ :=
  { info with pos := .ofNat start, mstate := firstState msgType }

/-- The first call: the loop takes one turn more. -/
lemma parse_new (start : Nat) (filled : seen ≠ []) (hs : seen.length < 2 ^ 31)
    (hm : 2 ^ 32 ∣ hidden.length) (hk : info.msgType = msgType)
    (state : info.mstate = .begin) (opened : Open info) :
    Outcome msgType (seen.foldlM next (enter (core (begun msgType start info))))
      (parse strings msgType info (seen ++ hidden) start) := by
  have hl := length_pos_iff.mpr filled
  have hn : ¬ (seen ++ hidden).length < 1 := by
    rw [length_append]
    omega
  have sameKind : ¬ info.msgType ≠ msgType := fun ho => ho hk
  have hr : toInt ((seen ++ hidden).length : Int) = seen.length := by
    rw [length_append]
    exact toInt_hidden hs hm
  have hu : ¬ (seen.length : Int) ≤ 0 := by omega
  have notFin : info.mstate ≠ .fin := by simp [state]
  have ha : Active msgType (begun msgType start info) := by
    refine ⟨hk, opened, ?_⟩
    cases msgType
    · exact .inr ⟨rfl, .inl rfl⟩
    · exact .inl rfl
  have hn' : firstState msgType ≠ .fin := by cases msgType <;> decide
  have hf : (if seen = [] then 1 else rank (begun msgType start info).mstate + 2) ≤
      4 * (seen ++ hidden).length + 7 := by
    have hb := rank_le (begun msgType start info).mstate
    rw [if_neg filled]
    omega
  have run := parseLoop_runs strings start hs hm ha hf
  rw [resume, if_neg filled] at run
  rw [parse_eq, httpParse, if_neg hn]
  simp only [if_neg sameKind]
  rw [show parseTurns (seen ++ hidden).length = 4 * (seen ++ hidden).length + 7 + 1 from rfl, parseLoop]
  simp only [hr, if_neg hu, if_neg notFin, dispatch, if_pos state, if_neg hn']
  exact run

/-- The parser is before a message or in its first line. -/
structure Ready (msgType : MsgType) (info : Info σ) : Prop where
  kind : info.msgType = msgType
  opened : Open info
  main : info.mstate = .begin ∨ Active msgType info

/-- Every call returns, and the parser does not get further than the first line. -/
lemma parse_ready (start : Nat) (hf : buf ≠ []) (hr : Ready msgType info) :
    ∃ result info', parse strings msgType info buf start = .ok (result, info') ∧
      (result = -1 ∨ result = 0 ∧ (Active msgType info' ∨ info' = info ∧ toInt buf.length ≤ 0)) := by
  by_cases hv : 0 < toInt buf.length
  · obtain ⟨k, short, some, hs, hm⟩ := toInt_split hv
    have seen : 0 < (buf.take k).length ∧ (buf.take k).length < 2 ^ 31 := by
      rw [length_take]
      omega
    have hidden : 2 ^ 32 ∣ (buf.drop k).length := by
      rw [length_drop]
      exact hm
    have hn := length_pos_iff.mp seen.1
    have ho : ∃ expected,
        Outcome msgType expected (parse strings msgType info (buf.take k ++ buf.drop k) start) := by
      rcases hr.main with state | ha
      · exact ⟨_, parse_new strings start hn seen.2 hidden hr.kind state hr.opened⟩
      · exact ⟨_, parse_active strings start hn seen.2 hidden ha⟩
    rw [take_append_drop] at ho
    obtain ⟨-, result, info', hc, ⟨-, failed⟩ | ⟨-, hd, ha⟩⟩ := ho
    · exact ⟨result, info', hc, .inl failed⟩
    · exact ⟨result, info', hc, .inr ⟨hd, .inl ha⟩⟩
  · have hu := Int.not_lt.mp hv
    exact ⟨0, info, parse_unseen strings start hf hu hr.kind, .inr ⟨rfl, .inr ⟨rfl, hu⟩⟩⟩

end

end Fzsvn.Guarantees.Http.ParserAutomaton
