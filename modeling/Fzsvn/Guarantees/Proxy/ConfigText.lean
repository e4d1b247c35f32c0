import Fzsvn.Guarantees.Netutil.AddressText
import Fzsvn.Guarantees.Proxy.ConfigSteps

/-!
# Numbers and lines of the configuration file

`_cfg_atoi` answers -1 for a token that is no number, which is a legal value of `nice`; it takes
a sign without digits for 0, and `atoi` narrows what does not fit. `numbers_exact_iff` says for
which tokens this does no harm.

`fgets` puts its NUL at the latest into `line[1023]`, where `cfg_load_file` looks for the end of
a line that is too long, so that such a line is read as several ones; and `strlen(line) - 1` is
-1 if what was read begins with a NUL. `lines_read_iff` says that nothing else goes wrong.
-/
namespace Fzsvn.Guarantees.Proxy.ConfigText
open ConfigSteps Guarantees.Netutil.AddressText Library.MachineInt Source.Config Source.Netutil List

/-! ## Numbers -/

def unsigned : Text → Text
  | '-' :: digits => digits
  | '+' :: digits => digits
  | digits => digits

def signed : Text → Int
  | '-' :: digits => -Nat.ofDigitChars 10 digits 0
  | '+' :: digits => Nat.ofDigitChars 10 digits 0
  | digits => Nat.ofDigitChars 10 digits 0

/-- The value of an optionally signed, non-empty decimal numeral. -/
def numeral (token : Text) : Option Int :=
  if unsigned token ≠ [] ∧ (unsigned token).all Char.isDigit = true then some (signed token) else none

/-- A number passes through `long` on its way to `int`. -/
def narrowed (n : Int) : Int := toInt (max (-2 ^ 63) (min n (2 ^ 63 - 1)))

section

variable {β : Type} (low high : Int) (token : Text)

/-- The line is accepted exactly for the numerals in the range, and stores their value. -/
def Exact (run : Except Stop β) (field : β → Int) : Prop :=
  ((∃ result, run = .ok result) ↔ ∃ n, numeral token = some n ∧ low ≤ n ∧ n ≤ high) ∧
    ∀ result, run = .ok result → numeral token = some (field result)

/-- A numeral fits into `int` or becomes a number outside the range there, and the 0 or -1 that
stands for another token is outside the range. -/
def Legible : Prop :=
  match numeral token with
  | some n => (-2 ^ 31 ≤ n ∧ n < 2 ^ 31) ∨ ¬ (low ≤ narrowed n ∧ narrowed n ≤ high)
  | none => if unsigned token = [] then ¬ (low ≤ 0 ∧ 0 ≤ high) else ¬ (low ≤ -1 ∧ -1 ≤ high)

end

variable {token : Text}

lemma strtoul_digits {text : Text} (hd : text.all Char.isDigit = true) :
    strtoul text = Nat.ofDigitChars 10 text 0 := by
  rw [strtoul, List.takeWhile_eq_self_iff.mpr (by simpa using hd)]

lemma dropWhile_isspace (hd : (unsigned token).all Char.isDigit = true) :
    token.dropWhile isspace = token := by
  cases token with
  | nil => rfl
  | cons c rest =>
    refine dropWhile_cons_of_neg fun hs => ?_
    unfold unsigned at hd
    split at hd
    · next he => cases he; cases hs
    · next he => cases he; cases hs
    · simp [not_isDigit_of_isspace hs] at hd

lemma cfgAtoi_digits (hd : (unsigned token).all Char.isDigit = true) :
    cfgAtoi token = narrowed (signed token) := by
  have hb : cfgAtoi token = atoi token := if_pos hd
  rw [hb, atoi, dropWhile_isspace hd, narrowed]
  revert hd
  unfold unsigned signed
  split <;> intro hd <;> simp only [strtoul_digits hd] <;> congr 1 <;> omega

lemma cfgAtoi_none (ho : numeral token = none) :
    cfgAtoi token = if unsigned token = [] then 0 else -1 := by
  unfold numeral at ho
  split
  · next nothing =>
    rw [cfgAtoi_digits (by simp [nothing])]
    revert nothing
    unfold unsigned signed
    split <;> rintro rfl <;> rfl
  · next some =>
    have hb : cfgAtoi token = if (unsigned token).all Char.isDigit = true then atoi token else -1 := rfl
    rw [hb, if_neg (by simpa [some] using ho)]

lemma cfgAtoi_some {n : Int} (hv : numeral token = some n) : cfgAtoi token = narrowed n := by
  unfold numeral at hv
  split at hv
  · next digits =>
    cases hv
    exact cfgAtoi_digits digits.2
  · cases hv

lemma exact_intArg {β : Type} {low high lineno : Int} {format : String} {store : Int → β}
    {field : β → Int} (hr : -2 ^ 31 ≤ low ∧ high < 2 ^ 31) (stored : ∀ n, field (store n) = n) :
    Exact low high token (intArg lineno low high format token >>= fun n => pure (store n)) field ↔
      Legible low high token := by
  have run : ∀ result, intArg lineno low high format token >>= (fun n => pure (store n)) =
      .ok result ↔ result = store (cfgAtoi token) ∧ low ≤ cfgAtoi token ∧ cfgAtoi token ≤ high := by
    intro result
    by_cases hi : low ≤ cfgAtoi token ∧ cfgAtoi token ≤ high
    · have hp : ¬ (cfgAtoi token < low ∨ cfgAtoi token > high) := by omega
      simp [intArg, errIf, hp, hi, eq_comm]
    · have hf : cfgAtoi token < low ∨ cfgAtoi token > high := by omega
      simp [intArg, errIf, errRet, hf, hi]
  simp only [Exact, run, exists_eq_left, and_imp, forall_eq, stored, Legible]
  cases hv : numeral token with
  | none =>
    rw [cfgAtoi_none hv]
    split <;> simp [*]
  | some n =>
    rw [cfgAtoi_some hv]
    simp only [Option.some.injEq, exists_eq_left']
    by_cases hs : -2 ^ 31 ≤ n ∧ n < 2 ^ 31
    · rw [narrowed, Int.min_eq_left (by omega), Int.max_eq_right (by omega), toInt_small hs.1 hs.2]
      exact iff_of_true ⟨Iff.rfl, fun _ _ => rfl⟩ (.inl hs)
    · omega

/-- The numeric keywords of `[proxy]`, with the range of the message and the field. -/
def keywords : List (String × Int × Int × (ProxyCfg → Int)) :=
  [("worker", 1, 40, (·.nworker)), ("nice", -20, 19, (·.nice)), ("naccept", 1, 16, (·.naccept)),
    ("maxconn", 1, 5000000, (·.maxconn)), ("debug", 0, 7, (·.debug)), ("flow", 0, 7, (·.flow)),
    ("http", 0, 7, (·.http))]

/-- A `server` line of which everything but the weight is in order. -/
structure ServerLine where
  inet : Inet
  lineno : Int
  py : Proxy
  i : Nat
  sp : Svrpool
  protocol : String
  ssl : Bool
  addr : Text
  address : IpPort
  pool : py.splist[i]? = some sp
  known : (protocol, ssl) ∈ [("http", false), ("https", true)]
  reads : ipPortFromStr inet addr = .ok (some address)
  counts : sp.nserver + 1 < 2 ^ 31

namespace ServerLine

variable (line : ServerLine)

def parse (weight : Text) : Except Stop Proxy :=
  cfgParseSvrpool line.inet line.lineno true line.py line.i "server".toList
    [weight, line.protocol.toList, line.addr]

/-- The weight of the server that was added last. -/
def weight (py : Proxy) : Int :=
  ((py.splist[line.i]?).bind (·.svrlist.getLast?)).elim 0 (·.weight)

def store (weight : Int) : Proxy :=
  line.py.setSvrpool line.i
    { line.sp with
      svrlist := line.sp.svrlist ++ [⟨line.address, weight, line.ssl, none⟩]
      nserver := line.sp.nserver + 1 }

lemma parse_eq (weight : Text) :
    line.parse weight = intArg line.lineno 1 99 "line %d: argument exceed range(1-99)\n" weight >>=
      fun n => pure (line.store n) := by
  obtain ⟨inet, lineno, py, i, sp, protocol, ssl, addr, address, pool, hk, hr, counts⟩ := line
  have hf : deref py.splist i = .ok sp := by rw [deref, pool]
  have hp : addressArg lineno inet addr "line %d: invalid server address(%s)\n" = .ok address := by
    rw [addressArg, hr]
  have hc : incr sp.nserver = .ok (sp.nserver + 1) := if_pos counts
  rw [parse, cfgParseSvrpool, hf]
  change (intArg lineno 1 99 _ weight >>= fun n => choiceArg _ protocol.toList _ _ >>= fun ssl =>
    addressArg lineno inet addr _ >>= fun address =>
    orErrRet (serverAlloc true address n ssl) _ _ >>= fun svr => incr sp.nserver >>= fun m => pure _) = _
  rw [hp, hc]
  simp only [mem_cons, Prod.mk.injEq, not_mem_nil, or_false] at hk
  rcases hk with ⟨rfl, rfl⟩ | ⟨rfl, rfl⟩ <;> rfl

end ServerLine

theorem numbers_exact_iff (token : Text) : (∀ k ∈ keywords, ∀ lineno pycfg,
      Exact k.2.1 k.2.2.1 token (cfgParseProxy lineno pycfg k.1.toList [token]) k.2.2.2 ↔
        Legible k.2.1 k.2.2.1 token) ∧
    ∀ line : ServerLine, Exact 1 99 token (line.parse token) line.weight ↔ Legible 1 99 token := by
  constructor
  · simp only [keywords, forall_mem_cons]
    refine ⟨?_, ?_, ?_, ?_, ?_, ?_, ?_, by simp⟩
    all_goals
      intro lineno pycfg
      exact exact_intArg (by decide) fun _ => rfl
  · intro line
    rw [line.parse_eq]
    refine exact_intArg (by decide) fun n => ?_
    have hi := (List.getElem?_eq_some_iff.mp line.pool).1
    simp [ServerLine.weight, ServerLine.store, Proxy.setSvrpool, hi]

theorem numbers_exact_three :
    Exact 1 40 "3".toList (cfgParseProxy 1 proxyAlloc.cfg "worker".toList ["3".toList]) (·.nworker) ∧
    ∃ line : ServerLine, Exact 1 99 "3".toList (line.parse "3".toList) line.weight := by
  have hl : ∀ low high, Legible low high "3".toList := fun low high => .inl (by decide)
  let pool : Svrpool := ⟨[], .rr, [], 0, 0⟩
  refine ⟨((numbers_exact_iff _).1 _ mem_cons_self _ _).mpr (hl _ _),
    ⟨anyAddress, 1, { proxyAlloc with splist := [pool] }, 0, pool, "http", false, "10.200.2.1:80".toList, _,
      rfl, mem_cons_self, rfl, by decide⟩, ((numbers_exact_iff _).2 _).mpr (hl _ _)⟩

/-- Letters are taken for -1, a sign for 0, and what is too large for the `int` loses its upper
half. -/
theorem letters_accepted :
    ¬ Exact (-20) 19 "abc".toList (cfgParseProxy 1 proxyAlloc.cfg "nice".toList ["abc".toList]) (·.nice) ∧
    ¬ Exact 0 7 "+".toList (cfgParseProxy 1 proxyAlloc.cfg "debug".toList ["+".toList]) (·.debug) ∧
    ¬ Exact 1 40 "4294967297".toList
      (cfgParseProxy 1 proxyAlloc.cfg "worker".toList ["4294967297".toList]) (·.nworker) := by
  refine ⟨?_, ?_, ?_⟩
  · rintro ⟨-, hv⟩
    cases hv _ rfl
  · rintro ⟨-, hv⟩
    cases hv _ rfl
  · rintro ⟨-, hv⟩
    exact absurd (hv _ rfl) (by decide +kernel)

/-! ## Lines -/

/-- The lines of a file, each with its newline; `line` was read already. -/
def physicalLines (line : Text) : Text → List Text
  | [] => if line = [] then [] else [line]
  | c :: rest =>
    if c = '\n' then (line ++ [c]) :: physicalLines [] rest else physicalLines (line ++ [c]) rest

/-- Where a turn of the loop looks into the buffer: `sizeof(line) - 1` and `strlen(line) - 1`. -/
def indices (piece : Text) : List Int := [lineSize - 1, (piece.takeWhile (· ≠ '\x00')).length - 1]

section

variable (inet : Inet) (calloc : Nat → Bool) (py : Proxy) (content : Text)

/-- The loop of `cfg_load_file`, over what `fgets` reads. -/
def loadPieces (pieces : List Text) : Except Stop Loading :=
  pieces.zipIdx.foldlM (fun st (piece, i) => cfgLoadLine inet (calloc i) st piece)
    { py, pctx := { sect := .proxy, lineno := 1 }, lineno := 1 }

/-- `P` holds of what is read in a turn that is reached, and `Q` of a line that the load gets
through. -/
structure Along (P Q : Text → Prop) : Prop where
  turn : ∀ before piece after st, fgetsAll [] content = before ++ piece :: after →
    loadPieces inet calloc py before = .ok st → P piece
  line : ∀ before line after st, physicalLines [] content = before ++ line :: after →
    loadPieces inet calloc py ((before ++ [line]).flatMap (fgetsAll [])) = .ok st → Q line

/-- The loop stays in its buffer, and a line is one logical line or makes the load fail. -/
def ReadsLines : Prop :=
  Along inet calloc py content (fun piece => ∀ n ∈ indices piece, 0 ≤ n ∧ n < lineSize)
    fun line => fgetsAll [] line = [line]

/-- No turn begins with a NUL, and no line that passes is longer than the buffer. -/
def Readable : Prop :=
  Along inet calloc py content (·.head? ≠ some '\x00') (·.length < lineSize)

variable {inet calloc py content}

lemma Along.mono {P Q P' Q' : Text → Prop} (ha : Along inet calloc py content P Q)
    (ht : ∀ piece ∈ fgetsAll [] content, P piece → P' piece)
    (hl : ∀ line ∈ physicalLines [] content, Q line → Q' line) : Along inet calloc py content P' Q' where
  turn before piece after st split load :=
    ht piece (by simp [split]) (ha.turn before piece after st split load)
  line before line after st split load :=
    hl line (by simp [split]) (ha.line before line after st split load)

end

section

variable {acc line rest : Text}

lemma fgetsAll_filled (hr : acc.length + 1 < lineSize) (hm : line ∈ fgetsAll acc rest) :
    line ≠ [] ∧ line.length < lineSize := by
  induction rest generalizing acc with
  | nil =>
    rw [fgetsAll] at hm
    split at hm
    · cases hm
    · next filled =>
      rw [mem_singleton.mp hm]
      exact ⟨filled, by omega⟩
  | cons c rest ih =>
    rw [fgetsAll] at hm
    have hl : (acc ++ [c]).length = acc.length + 1 := by simp
    split at hm
    · rcases mem_cons.mp hm with rfl | later
      · exact ⟨by simp, by omega⟩
      · exact ih (by decide) later
    · next going => exact ih (by simp only [not_or] at going; omega) hm

/-- A newline ends a turn. -/
lemma fgetsAll_append (acc line rest : Text) :
    fgetsAll acc (line ++ '\n' :: rest) = fgetsAll acc (line ++ ['\n']) ++ fgetsAll [] rest := by
  induction line generalizing acc with
  | nil => simp [fgetsAll]
  | cons c line ih =>
    simp only [cons_append, fgetsAll]
    split
    · rw [ih, cons_append]
    · exact ih _

lemma fgetsAll_physicalLines (line rest : Text) :
    (physicalLines line rest).flatMap (fgetsAll []) = fgetsAll [] (line ++ rest) := by
  induction rest generalizing line with
  | nil =>
    rw [physicalLines]
    split
    · next none => rw [none]; rfl
    · simp
  | cons c rest ih =>
    rw [physicalLines]
    split
    · next newline =>
      rw [flatMap_cons, ih, newline]
      exact (fgetsAll_append [] line rest).symm
    · rw [ih, append_assoc]
      rfl

lemma physicalLines_ends (hu : '\n' ∉ acc) (hm : line ∈ physicalLines acc rest) :
    line ≠ [] ∧ '\n' ∉ line.dropLast := by
  induction rest generalizing acc with
  | nil =>
    rw [physicalLines] at hm
    split at hm
    · cases hm
    · next filled =>
      rw [mem_singleton.mp hm]
      exact ⟨filled, fun hi => hu (mem_of_mem_dropLast hi)⟩
  | cons c rest ih =>
    rw [physicalLines] at hm
    split at hm
    · rcases mem_cons.mp hm with rfl | hl
      · exact ⟨by simp, by simpa using hu⟩
      · exact ih (by simp) hl
    · next other => exact ih (by simp [hu, Ne.symm other]) hm

lemma fgetsAll_short (hf : acc ++ line ≠ []) (ends : '\n' ∉ line.dropLast)
    (hs : (acc ++ line).length < lineSize) : fgetsAll acc line = [acc ++ line] := by
  induction line generalizing acc with
  | nil =>
    rw [append_nil] at hf ⊢
    rw [fgetsAll, if_neg hf]
  | cons c line ih =>
    rw [fgetsAll]
    split
    · next stops =>
      have hl : line = [] := by
        rcases stops with rfl | full
        · by_contra hm
          exact ends (by simp [dropLast_cons_of_ne_nil hm])
        · rw [← length_eq_zero_iff]
          simp at full hs
          omega
      rw [hl]
      rfl
    · have he : acc ++ [c] ++ line = acc ++ c :: line := append_cons .. |>.symm
      rw [ih (by simp) (fun hi => ends ?_) (he ▸ hs), he]
      cases line with
      | nil => cases hi
      | cons _ _ => exact mem_cons_of_mem _ hi

lemma indices_inside (hf : line ≠ []) (hs : line.length < lineSize) :
    (∀ n ∈ indices line, 0 ≤ n ∧ n < lineSize) ↔ line.head? ≠ some '\x00' := by
  obtain ⟨c, line, rfl⟩ := exists_cons_of_ne_nil hf
  have strlen := (takeWhile_sublist (· ≠ '\x00') (l := line)).length_le
  simp only [indices, forall_mem_cons]
  by_cases nul : c = '\x00'
  · simp [nul]
  · rw [takeWhile_cons_of_pos (by simpa using nul)]
    have size : (lineSize : Int) = 1024 := rfl
    simp only [ne_eq, decide_not] at strlen
    simp only [length_cons] at hs ⊢
    simp [nul]
    omega

end

/-- Together the lines are what `fgets` reads, whatever the file contains. -/
theorem lines_read_iff (inet : Inet) (calloc : Nat → Bool) (py : Proxy) (content : Text) :
    (physicalLines [] content).flatMap (fgetsAll []) = fgetsAll [] content ∧
      (ReadsLines inet calloc py content ↔ Readable inet calloc py content) := by
  have ht : ∀ piece ∈ fgetsAll [] content, (∀ n ∈ indices piece, 0 ≤ n ∧ n < lineSize) ↔
      piece.head? ≠ some '\x00' := by
    intro piece hm
    obtain ⟨hf, hs⟩ := fgetsAll_filled (by decide) hm
    exact indices_inside hf hs
  refine ⟨fgetsAll_physicalLines [] content, fun hr => ?_, fun fits => ?_⟩
  · refine hr.mono (fun piece hm => (ht piece hm).mp) fun line _ single => ?_
    have hm : line ∈ fgetsAll [] line := by simp [single]
    exact (fgetsAll_filled (by decide) hm).2
  · refine fits.mono (fun piece hm => (ht piece hm).mpr) fun line hm hs => ?_
    obtain ⟨hf, he⟩ := physicalLines_ends (by simp) hm
    exact fgetsAll_short hf he hs

/-- A comment that fills the buffer, and what is left of the line is read as a setting. -/
def longComment : Text := List.replicate 1023 '#' ++ "worker 2\n".toList

theorem lines_misread : ¬ ReadsLines anyAddress (fun _ => true) proxyAlloc "\x00\n".toList ∧
    ¬ ReadsLines anyAddress (fun _ => true) proxyAlloc longComment := by
  constructor
  · intro hr
    have hi := hr.turn [] "\x00\n".toList [] _ rfl rfl (-1) (by decide)
    exact absurd hi.1 (by decide)
  · intro hr
    have ok : (loadPieces anyAddress (fun _ => true) proxyAlloc
        (([] ++ [longComment]).flatMap (fgetsAll []))).isOk = true := by decide +kernel
    cases hl : loadPieces anyAddress (fun _ => true) proxyAlloc
        (([] ++ [longComment]).flatMap (fgetsAll [])) with
    | error stop =>
      rw [hl] at ok
      cases ok
    | ok st =>
      have hs := hr.line [] longComment [] st (by decide +kernel) hl
      exact absurd (congrArg List.length hs) (by decide +kernel)

end Fzsvn.Guarantees.Proxy.ConfigText
