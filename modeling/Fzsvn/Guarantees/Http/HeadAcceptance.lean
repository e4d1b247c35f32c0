import Fzsvn.Guarantees.Http.ParserAutomaton

/-!
# Heads of messages

The head of a request or of a response is its first line, any number of header lines and an
empty line. The parser does not get to the end of the first line of any of them: nothing ends
the token in `_http_VERSION`, which takes all that follows for part of the version.
-/
namespace Fzsvn.Guarantees.Http.HeadAcceptance
open Source.Http ParserAutomaton

/-! ## Well-formed heads -/

/-- The methods that the parser has a code for. -/
def methodNames : List (List Char) :=
  [['O', 'P', 'T', 'I', 'O', 'N', 'S'], ['G', 'E', 'T'], ['H', 'E', 'A', 'D'], ['P', 'O', 'S', 'T'], ['P', 'U', 'T'],
    ['D', 'E', 'L', 'E', 'T', 'E'], ['T', 'R', 'A', 'C', 'E'], ['C', 'O', 'N', 'N', 'E', 'C', 'T']]

def versionNames : List (List Char) :=
  [['H', 'T', 'T', 'P', '/', '1', '.', '0'], ['H', 'T', 'T', 'P', '/', '1', '.', '1']]

def crlf : List Char := ['\r', '\n']

/-- A text inside a line. -/
def Inline (text : List Char) : Prop := ∀ c ∈ text, c ≠ '\r' ∧ c ≠ '\n'

structure RequestLine where
  method : List Char
  url : List Char
  version : List Char
  supported : method ∈ methodNames
  nonempty : url ≠ []
  target : ∀ c ∈ url, httpIsUrl c = true ∧ c ≠ ' '
  known : version ∈ versionNames

structure StatusLine where
  version : List Char
  code : List Char
  reason : List Char
  known : version ∈ versionNames
  digits : code.length = 3 ∧ ∀ c ∈ code, c.isDigit = true
  inLine : Inline reason

structure HeaderLine where
  name : List Char
  value : List Char
  nonempty : name ≠ []
  token : ∀ c ∈ name, httpIsToken c = true
  inLine : Inline value

inductive StartLine where
  | request (line : RequestLine)
  | response (line : StatusLine)

structure Head where
  first : StartLine
  headers : List HeaderLine

def StartLine.text : StartLine → List Char
  | .request line => line.method ++ ' ' :: line.url ++ ' ' :: line.version ++ crlf
  | .response line => line.version ++ ' ' :: line.code ++ ' ' :: line.reason ++ crlf

def HeaderLine.text (line : HeaderLine) : List Char := line.name ++ ':' :: line.value ++ crlf

def Head.text (head : Head) : List Char :=
  head.first.text ++ (head.headers.map HeaderLine.text).flatten ++ crlf

def Head.msgType (head : Head) : MsgType :=
  match head.first with
  | .request _ => .request
  | .response _ => .response

variable {σ : Type} (strings : Strings σ)

/-- A call for a new message. -/
def parseNew (msgType : MsgType) (buf : List Char) (start : Nat) : Except Fault (Int × Info σ) :=
  parse strings msgType (.zero msgType strings.empty) buf start

/-- The parser takes the head and gives back what comes after it. -/
def Accepted (head : Head) (after : List Char) (start : Nat) : Prop :=
  ∃ info, parseNew strings head.msgType (head.text ++ after) start = .ok ((after.length : Int), info) ∧
    (info.mstate = .body ∨ info.mstate = .fin)

/-! ## What the parser does -/

/-- The states of a parser that has read a part of the first line at most. -/
lemma parseNew_stays {msgType : MsgType} {buf : List Char} (hf : buf ≠ []) {start : Nat} :
    ∃ result info, parseNew strings msgType buf start = .ok (result, info) ∧
      (result = -1 ∨ (info.mstate ≠ .body ∧ info.mstate ≠ .fin)) := by
  have hr : Ready msgType (.zero msgType strings.empty) := ⟨rfl, .inl rfl, .inl rfl⟩
  obtain ⟨result, info, hc, failed | ⟨-, ha | ⟨rfl, -⟩⟩⟩ := parse_ready strings start hf hr
  · exact ⟨result, info, hc, .inl failed⟩
  · exact ⟨result, info, hc, .inr ha.mstate_ne.2⟩
  · exact ⟨result, _, hc, .inr ⟨nofun, nofun⟩⟩

theorem head_accepted_iff (head : Head) (after : List Char) (start : Nat) :
    (∃ result info, parseNew strings head.msgType (head.text ++ after) start = .ok (result, info)) ∧
      (Accepted strings head after start ↔ False) := by
  have filled : head.text ++ after ≠ [] := by simp [Head.text, crlf]
  obtain ⟨result, info, hc, hs⟩ := parseNew_stays strings filled
  refine ⟨⟨result, info, hc⟩, ?_⟩
  rw [iff_false]
  rintro ⟨info', ha, hd⟩
  cases hc.symm.trans ha
  rcases hs with hf | ⟨hn, notFin⟩
  · omega
  · exact hd.elim hn notFin

def shortHead : Head where
  first := .request
    { method := ['G', 'E', 'T'], url := ['/'], version := ['H', 'T', 'T', 'P', '/', '1', '.', '1']
      supported := by decide, nonempty := by decide, target := List.forall_mem_singleton.mpr ⟨rfl, by decide⟩
      known := by decide }
  headers := []

/-- The parser reads all of the request and is then still in the version. -/
theorem shortHead_unfinished : ∃ info,
    parseNew noStrings shortHead.msgType shortHead.text 0 = .ok (0, info) ∧ info.mstate = .version := by
  let start : Core := enter (core (begun .request 0 (Info.zero .request ())))
  have final : (shortHead.text.foldlM next start).map (·.mstate) = some .version := by decide +kernel
  have ho : Outcome .request (shortHead.text.foldlM next start)
      (parse noStrings .request (.zero .request ()) (shortHead.text ++ []) 0) :=
    parse_new noStrings 0 (by decide) (by decide) (by decide) rfl rfl (.inl rfl)
  obtain ⟨result, info, hc, ⟨hf, -⟩ | ⟨hr, rfl, -⟩⟩ := ho
  · rw [hf] at final
    cases final
  · rw [hr] at final
    exact ⟨info, hc, Option.some.inj final⟩

end Fzsvn.Guarantees.Http.HeadAcceptance
