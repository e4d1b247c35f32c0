import Fzsvn.Source.Netutil.IpAddr

/-!
# The HTTP parser

Embedding of `network/protocol/http/http_parse.c`. The functions of the file name the state of
a message `state`, `req_state`, `reqst` or `resst`, and its parameters `para`, `request` or
`response`, and neither header has all of these; here a message has one state and one set of
parameters. A pointer into the data is the data from there on, and NULL is `none`. `csize` is
the length of `cache`. What the file does to stored strings through functions that are not in
the repository is a parameter, and so is the decoding of cookies, which works on such a string.
The message texts are left out.
-/
namespace Fzsvn.Source.Http
open Library.MachineInt Netutil

inductive Fault where
  | outOfFuel

inductive MsgType where
  | request
  | response
  deriving DecidableEq

/-- `HTTP_STE_*` -/
inductive MainState where
  | begin
  | method
  | version
  | url
  | crlf
  | hfield
  | hvalue
  | body
  | fin
  | code
  | reason
  deriving DecidableEq

/-- `HTTP_TST_*`; `inside` is `HTTP_TST_IN`. -/
inductive TokenState where
  | begin
  | inside
  | lws
  | fin
  deriving DecidableEq

/-- The values of `HTTP_HST_*` that are assigned. -/
inductive HeaderState where
  | begin
  | connection
  | host
  | userAgent
  | cookie
  | reference
  | xff
  | location
  | setCookie
  | contentLength
  | contentType
  | extension
  deriving DecidableEq

/-- `HTTP_MED_*` -/
inductive Method where
  | options
  | get
  | head
  | post
  | put
  | delete
  | trace
  | connect
  | extension
  deriving DecidableEq

/-- The values of `HTTP_VER_*` that are assigned. -/
inductive Version where
  | ver10
  | ver11
  | unkowned
  deriving DecidableEq

/-- `HTTP_CTE_*`; zero is `textHtml`. -/
inductive ContentType where
  | textHtml
  | textXml
  | textPlain
  | unkowned
  deriving DecidableEq

/-- The strings of a message. -/
inductive StringField where
  | oriurl
  | host
  | reference
  | agent
  | location
  | tmp
  | xff
  deriving DecidableEq

/-- A pointer to a string; `unset` when the variable has not got a value. -/
inductive Target where
  | unset
  | null
  | field (name : StringField)

/-- The stored strings, `empty` when all memory is zero. -/
structure Strings (σ : Type) where
  empty : σ
  /-- `_http_copy_memory`, with the pointer and the number of bytes, and whether it is the end
  of the token. -/
  copyMemory : σ → Target → Option (List Char) → Int → Bool → σ
  /-- `_http_decode_cookie` -/
  decodeCookie : σ → Target → σ

/-- `http_info_t`. A method or version that is `none` is zero. -/
structure Info (σ : Type) where
  msgType : MsgType
  mstate : MainState
  pstate : MainState
  hstate : HeaderState
  tstate : TokenState
  tokpos : UInt16
  inquote : Bool
  inslash : Bool
  cache : List Char
  pos : UInt32
  line : UInt32
  col : UInt32
  bremain : UInt32
  method : Option Method
  reqVersion : Option Version
  resVersion : Option Version
  retcode : Int
  blen : UInt32
  isSvrclosed : Bool
  reqCtype : ContentType
  resCtype : ContentType
  haveArg : Bool
  isEncoded : Bool
  strings : σ
  deriving DecidableEq

variable {σ : Type}

/-- `memset(info, 0, sizeof(http_info_t))`, with the type of the message then set. -/
def Info.zero (msgType : MsgType) (strings : σ) : Info σ where
  msgType := msgType
  mstate := .begin
  pstate := .begin
  hstate := .begin
  tstate := .begin
  tokpos := 0
  inquote := false
  inslash := false
  cache := []
  pos := 0
  line := 0
  col := 0
  bremain := 0
  method := none
  reqVersion := none
  resVersion := none
  retcode := 0
  blen := 0
  isSvrclosed := false
  reqCtype := .textHtml
  resCtype := .textHtml
  haveArg := false
  isEncoded := false
  strings := strings

/-! ## Characters and names -/

def httpMaxCache : Nat := 32

def httpIsSeparator (c : Char) : Bool :=
  c ∈ ['(', ')', '<', '>', '@', ',', ';', ':', '\\', '"', '/', '[', ']', '?', '=', '\x7b', '\x7d', ' ', '\t']

def httpIsToken (c : Char) : Bool := 31 < c.toNat && c.toNat < 127 && !httpIsSeparator c

def httpIsUrl (c : Char) : Bool := 31 < c.toNat && c.toNat < 127

/-- `strncasecmp(text, name, n) == 0`, with `n` the length of the name, for a text that is not
shorter. -/
def sameName (text name : List Char) : Bool :=
  (text.take name.length).map Char.toLower = name.map Char.toLower

def httpCtype (cache : List Char) : ContentType :=
  if 9 ≤ cache.length ∧ sameName cache ['t', 'e', 'x', 't', '/', 'h', 't', 'm', 'l'] then .textHtml
  else if 8 ≤ cache.length ∧ sameName cache ['t', 'e', 'x', 't', '/', 'x', 'm', 'l'] then .textXml
  else if 9 ≤ cache.length ∧ sameName cache ['t', 'e', 'x', 't', '/', 'p', 'l', 'a', 'i', 'n'] then .textPlain
  else .unkowned

def httpCheckMethod (cache : List Char) : Method :=
  match cache with
  | 'O' :: _ => if cache = ['O', 'P', 'T', 'I', 'O', 'N', 'S'] then .options else .extension
  | 'G' :: _ => if cache = ['G', 'E', 'T'] then .get else .extension
  | 'H' :: _ => if cache = ['H', 'E', 'A', 'D'] then .head else .extension
  | 'P' :: _ =>
    if cache = ['P', 'U', 'T'] then .put
    else if cache = ['P', 'O', 'S', 'T'] then .post
    else .extension
  | 'D' :: _ => if cache = ['D', 'E', 'L', 'E', 'T', 'E'] then .delete else .extension
  | 'T' :: _ => if cache = ['T', 'R', 'A', 'C', 'E'] then .trace else .extension
  | 'C' :: _ => if cache = ['C', 'O', 'N', 'N', 'E', 'C', 'T'] then .connect else .extension
  | _ => .extension

/-- A name of a length that has a case, but another one, leaves the state as it was. -/
def httpCheckHfiled (cache : List Char) (hstate : HeaderState) : HeaderState :=
  match cache.length with
  | 4 => if sameName cache ['H', 'o', 's', 't'] then .host else hstate
  | 5 => hstate
  | 6 => if sameName cache ['C', 'o', 'o', 'k', 'i', 'e'] then .cookie else hstate
  | 7 => hstate
  | 8 => if sameName cache ['L', 'o', 'a', 'c', 't', 'i', 'o', 'n'] then .location else hstate
  | 9 => if sameName cache ['R', 'e', 'f', 'e', 'r', 'e', 'n', 'c', 'e'] then .reference else hstate
  | 10 =>
    if sameName cache ['C', 'o', 'n', 'n', 'e', 'c', 't', 'i', 'o', 'n'] then .connection
    else if sameName cache ['S', 'e', 't', '-', 'C', 'o', 'o', 'k', 'i', 'e'] then .setCookie
    else if sameName cache ['U', 's', 'e', 'r', '-', 'A', 'g', 'e', 'n', 't'] then .userAgent
    else hstate
  | 11 => hstate
  | 12 =>
    if sameName cache ['C', 'o', 'n', 't', 'e', 'n', 't', '-', 'T', 'y', 'p', 'e'] then .contentType else hstate
  | 13 => hstate
  | 14 =>
    if sameName cache ['C', 'o', 'n', 't', 'e', 'n', 't', '-', 'L', 'e', 'n', 'g', 't', 'h'] then .contentLength
    else hstate
  | 15 =>
    if sameName cache ['X', '-', 'F', 'o', 'r', 'w', 'a', 'r', 'd', 'e', 'd', '-', 'F', 'o', 'r'] then .xff
    else hstate
  | _ => .extension

/-! ## Tokens -/

/-- What a token function leaves: the message and the pointer it returns. -/
abbrev Scanned (σ : Type) := Info σ × Option (List Char)

namespace Info

/-- `_HTTP_CACHE_CHAR` -/
def cacheChar (info : Info σ) (c : Char) : Info σ :=
  if info.cache.length < httpMaxCache - 1 then { info with cache := info.cache ++ [c] } else info

def advance (info : Info σ) : Info σ := { info with pos := info.pos + 1, col := info.col + 1 }

/-- The end of a token: the next state begins. -/
def turn (info : Info σ) (next : MainState) : Info σ :=
  { info with pstate := info.mstate, mstate := next, tstate := .begin, cache := [], tokpos := 0 }

end Info

/-- What the switch on the token state does with a character: it returns NULL, returns the
pointer at once, or goes on. -/
inductive Step (σ : Type) where
  | error
  | leave (info : Info σ)
  | go (info : Info σ)

/-- The loop of a token function over the `remain` characters. Some functions, that `eat`,
step over the character at which the token ends. -/
def scan (eat : Bool) (advance : Info σ → Info σ) (switch : Info σ → Char → Step σ) :
    List Char → Info σ → Scanned σ
  | [], info => (info, some [])
  | c :: ptr, info =>
    match switch info c with
    | .error => (info, none)
    | .leave info => (info, some (c :: ptr))
    | .go info =>
      if info.tstate = .fin then
        if eat then (advance info, some ptr) else (info, some (c :: ptr))
      else scan eat advance switch ptr (advance info)

/-- What follows the loop is done when the token has ended. -/
def finishing (finish : Info σ → Info σ) : Scanned σ → Scanned σ
  | (info, some ptr) => (if info.tstate = .fin then finish info else info, some ptr)
  | (info, none) => (info, none)

def methodSwitch (info : Info σ) (c : Char) : Step σ :=
  match info.tstate with
  | .begin =>
    if c = ' ' ∨ c = '\t' then .go info
    else if !httpIsToken c then .error
    else .go { info.cacheChar c with tstate := .inside }
  | .inside =>
    if c = ' ' then .go { info with tstate := .fin }
    else if !httpIsToken c then .error
    else .go (info.cacheChar c)
  | _ => .error

def httpMethod (info : Info σ) (buf : List Char) : Scanned σ :=
  let info := { info with line := 1, col := 1, cache := [] }
  finishing (fun info => { info with method := some (httpCheckMethod info.cache) }.turn .url)
    (scan false Info.advance methodSwitch buf info)

/-- A question mark or a percent sign in the URL is noted. -/
def Info.markUrl (info : Info σ) (c : Char) : Info σ :=
  { info with haveArg := info.haveArg || c = '?', isEncoded := info.isEncoded || c = '%' }

/-- The loop of `_http_URL`, with its `begin` and `ulen`. -/
def urlLoop : List Char → List Char → Nat → Info σ → Scanned σ × List Char × Nat
  | [], start, ulen, info => ((info, some []), start, ulen)
  | c :: ptr, start, ulen, info =>
    match info.tstate with
    | .begin =>
      if c = ' ' then urlLoop ptr start (ulen + 1) info.advance
      else if !httpIsUrl c then ((info, none), start, ulen)
      else urlLoop ptr (c :: ptr) (ulen + 1) { info with tstate := .inside }.advance
    | .inside =>
      if c = '\r' ∨ c = '\n' ∨ c = ' ' then (({ info with tstate := .fin }, some (c :: ptr)), start, ulen)
      else urlLoop ptr start (ulen + 1) (info.markUrl c).advance
    | _ => ((info, none), start, ulen)

variable (strings : Strings σ)

def httpUrl (info : Info σ) (buf : List Char) : Scanned σ :=
  match urlLoop buf buf 0 info with
  | ((info, none), _) => (info, none)
  | ((info, some ptr), start, ulen) =>
    let copy (fin : Bool) := { info with
      strings := strings.copyMemory info.strings (.field .oriurl) (some start) ulen fin }
    if info.tstate ≠ .fin then (copy false, some ptr) else ((copy true).turn .version, some ptr)

def codeSwitch (info : Info σ) (c : Char) : Step σ :=
  match info.tstate with
  | .begin =>
    if c = ' ' ∨ c = '\t' then .go info
    else if !c.isDigit then .error
    else .go { info.cacheChar c with tstate := .inside, tokpos := 1 }
  | .inside =>
    if c = ' ' ∧ info.tokpos ≠ 4 then .go { info with tstate := .fin }
    else if !c.isDigit then .error
    else if info.tokpos > 3 then .error
    else
      let info := info.cacheChar c
      .go { info with tokpos := info.tokpos + 1 }
  | _ => .error

def httpCode (info : Info σ) (buf : List Char) : Scanned σ :=
  finishing (fun info => { info with retcode := atoi info.cache }.turn .reason)
    (scan true Info.advance codeSwitch buf info)

def reasonSwitch (info : Info σ) (c : Char) : Step σ :=
  match info.tstate with
  | .begin =>
    if c = ' ' ∨ c = '\t' then .go info
    else if c = '\r' ∨ c = '\n' then .error
    else .go { info.cacheChar c with tstate := .inside }
  | .inside =>
    if c = '\r' ∨ c = '\n' then .go { info with tstate := .fin } else .go (info.cacheChar c)
  | _ => .error

def httpReason (info : Info σ) (buf : List Char) : Scanned σ :=
  finishing (·.turn .crlf) (scan false Info.advance reasonSwitch buf info)

def versionSwitch (info : Info σ) (c : Char) : Step σ :=
  match info.tstate with
  | .begin =>
    if c = ' ' ∨ c = '\t' then .go info
    else if c ≠ 'H' then .error
    else .go { info.cacheChar c with tokpos := 0, tstate := .inside }
  | .inside =>
    if ((info.tokpos = 1 ∨ info.tokpos = 2) ∧ c ≠ 'T') ∨ (info.tokpos = 3 ∧ c ≠ 'P') ∨
        (info.tokpos = 4 ∧ c ≠ '/') then .error
    else .go (info.cacheChar c)
  | _ => .error

def versionAdvance (info : Info σ) : Info σ := { info.advance with tokpos := info.tokpos + 1 }

def versionOf (cache : List Char) : Version :=
  if cache.length = 8 ∧ cache[5]? = some '1' then
    if cache[7]? = some '0' then .ver10
    else if cache[7]? = some '1' then .ver11
    else .unkowned
  else .unkowned

/-- The version goes to the parameters of the request or of the response. -/
def Info.setVersion (info : Info σ) (version : Version) : Info σ :=
  match info.msgType with
  | .request => { info with reqVersion := some version }
  | .response => { info with resVersion := some version }

/-- The switch has no case that ends the token. -/
def httpVersion (info : Info σ) (buf : List Char) : Scanned σ :=
  let info := { info with line := 1, col := 1 }
  finishing
    (fun info => (info.setVersion (versionOf info.cache)).turn
      (match info.msgType with | .request => .crlf | .response => .code))
    (scan false versionAdvance versionSwitch buf info)

def crlfSwitch (info : Info σ) (c : Char) : Step σ :=
  match info.tstate with
  | .begin =>
    if c = ' ' ∨ c = '\t' then .go info
    else if c = '\n' then .go { info with tstate := .fin }
    else if c ≠ '\r' then .error
    else .go { info with tstate := .inside }
  | .inside => if c ≠ '\n' then .error else .go { info with tstate := .fin }
  | _ => .error

/-- The second end of a line in a row ends the header. -/
def crlfFinish (info : Info σ) : Info σ :=
  let version := match info.msgType with | .request => info.reqVersion | .response => info.resVersion
  let info :=
    if info.pstate = .crlf then
      if info.blen = 0 ∧ version = some .ver11 ∧ !info.isSvrclosed then { info with mstate := .fin }
      else { info with mstate := .body }
    else { info with pstate := info.mstate, mstate := .hfield }
  { info with tstate := .begin, cache := [], tokpos := 0, col := 1, line := info.line + 1 }

def httpCrlf (info : Info σ) (buf : List Char) : Scanned σ :=
  finishing crlfFinish (scan true Info.advance crlfSwitch buf info)

def hfieldSwitch (info : Info σ) (c : Char) : Step σ :=
  match info.tstate with
  | .begin =>
    if c = '\r' ∨ c = '\n' then .leave { info with mstate := .crlf, tstate := .begin }
    else if c = ' ' ∨ c = '\t' then .leave { info with mstate := .hvalue, tstate := .begin }
    else if !httpIsToken c then .error
    else .go { info.cacheChar c with tstate := .inside }
  | .inside =>
    if c = '\r' ∨ c = '\n' ∨ c = ':' then .go { info with tstate := .fin }
    else if !httpIsToken c then .error
    else .go (info.cacheChar c)
  | _ => .error

def httpHfield (info : Info σ) (buf : List Char) : Scanned σ :=
  finishing (fun info => { info with hstate := httpCheckHfiled info.cache info.hstate }.turn .hvalue)
    (scan false Info.advance hfieldSwitch buf info)

/-! ## Header values -/

def httpGetHvalueString : HeaderState → Target
  | .host => .field .host
  | .reference => .field .reference
  | .userAgent => .field .agent
  | .location => .field .location
  | .cookie | .setCookie => .field .tmp
  | .xff => .field .xff
  | _ => .null

/-- What the loop of `_http_HVALUE` leaves in the variables; `left` when the function returns
from within it. -/
structure ValueScan (σ : Type) where
  info : Info σ
  ptr : List Char
  s : Target
  p : Option (List Char)
  n : Int
  left : Bool

/-- A quote or a backslash at the start of a value is read twice, and counts both times. -/
def hvalueLoop : Nat → List Char → Target → Option (List Char) → Int → Info σ → ValueScan σ
  | 0, ptr, s, p, n, info => { info, ptr, s, p, n, left := false }
  -- There are not less characters than `remain`.
  | _ + 1, [], s, p, n, info => { info, ptr := [], s, p, n, left := false }
  | remain + 1, c :: ptr, s, p, n, info =>
    match info.tstate with
    | .begin =>
      if c = '\r' ∨ c = '\n' then
        { info := { info with pstate := info.mstate, mstate := .crlf, tstate := .begin }
          ptr := c :: ptr, s, p, n, left := true }
      else if c = ' ' ∨ c = '\t' ∨ c = ':' then hvalueLoop remain ptr s p n info.advance
      else
        let info := { info.cacheChar c with tstate := .inside }
        let s := httpGetHvalueString info.hstate
        if c = '"' ∨ c = '\\' then hvalueLoop remain (c :: ptr) s (some (c :: ptr)) 0 info.advance
        else hvalueLoop remain ptr s (some (c :: ptr)) 1 info.advance
    | .inside =>
      -- The cases of the inner switch; what they do to `inslash` is undone after it.
      if c = '"' then
        let info := { info with inquote := !(info.inquote && !info.inslash), inslash := false }
        hvalueLoop remain ptr s p (n + 1) info.advance
      else if (c = ' ' ∨ c = '\t') ∧ !info.inquote then
        let info := { info with
          tstate := .lws, inslash := false, strings := strings.copyMemory info.strings s p (n + 1) false }
        hvalueLoop remain ptr s none 0 info.advance
      else if (c = '\r' ∨ c = '\n') ∧ !info.inquote then
        { info := { info with tstate := .fin, inslash := false }, ptr := c :: ptr, s, p, n, left := false }
      else hvalueLoop remain ptr s p (n + 1) { info with inslash := false }.advance
    | .lws =>
      if c = ' ' ∨ c = '\t' then hvalueLoop remain ptr s p n info.advance
      else if c = '\r' ∨ c = '\n' then
        { info := { info with tstate := .fin }, ptr := c :: ptr, s, p, n, left := false }
      else hvalueLoop remain ptr s (some (c :: ptr)) 1 { info with tstate := .inside }.advance
    | .fin => { info := { info with inslash := false }, ptr := c :: ptr, s, p, n, left := false }

def httpCheckHvalue (info : Info σ) (s : Target) : Info σ :=
  match info.hstate with
  | .contentLength =>
    let blen := UInt32.ofInt (atoi info.cache)
    { info with blen, bremain := blen }
  | .contentType =>
    match info.msgType with
    | .request => { info with reqCtype := httpCtype info.cache }
    | .response => { info with resCtype := httpCtype info.cache }
  | .connection =>
    if info.cache.length = 5 ∧ sameName info.cache ['c', 'l', 'o', 's', 'e'] then { info with isSvrclosed := true }
    else info
  | .cookie => { info with strings := strings.decodeCookie info.strings s }
  | _ => info

def httpHvalue (info : Info σ) (buf : List Char) : Scanned σ :=
  let scanned := hvalueLoop strings buf.length buf .unset (some buf) 0 info
  if scanned.left then (scanned.info, some scanned.ptr)
  else
    let fin : Bool := scanned.info.tstate = .fin
    let info := { scanned.info with
      strings := strings.copyMemory scanned.info.strings scanned.s scanned.p scanned.n fin }
    if fin then
      ({ (httpCheckHvalue strings info scanned.s).turn .crlf with hstate := .begin }, some scanned.ptr)
    else (info, some scanned.ptr)

/-! ## The message -/

/-- `bremain` is added to `pos` after it was set to zero. -/
def httpBody (info : Info σ) (buf : List Char) : Scanned σ :=
  if info.blen > 0 then
    if info.bremain.toNat > buf.length then
      ({ info with
        bremain := info.bremain - .ofNat buf.length, pos := info.pos + .ofNat buf.length }, some [])
    else ({ info with mstate := .fin, bremain := 0, pos := info.pos + 0 }, some (buf.drop info.bremain.toNat))
  else (info, some [])

/-- The token functions of the states of a request; `none` for a state that is invalid. -/
def requestToken : MainState → Option (Info σ → List Char → Scanned σ)
  | .method => some httpMethod
  | .url => some (httpUrl strings)
  | .version => some httpVersion
  | .crlf => some httpCrlf
  | .hfield => some httpHfield
  | .hvalue => some (httpHvalue strings)
  | .body => some httpBody
  | _ => none

/-- The token functions of the states of a response. -/
def responseToken : MainState → Option (Info σ → List Char → Scanned σ)
  | .version => some httpVersion
  | .code => some httpCode
  | .reason => some httpReason
  | .crlf => some httpCrlf
  | .hfield => some httpHfield
  | .hvalue => some (httpHvalue strings)
  | .body => some httpBody
  | _ => none

/-- One turn of the loop of a parser. A token function sees the `remain` characters, a number
that was converted to `int`. -/
def dispatch (first : MainState) (token : MainState → Option (Info σ → List Char → Scanned σ)) (start remain : Nat)
    (info : Info σ) (ptr : List Char) : Scanned σ :=
  if info.mstate = .begin then ({ info with pos := .ofNat start, mstate := first }, some ptr)
  else
    match token info.mstate with
    | none => (info, none)
    | some scanToken =>
      match scanToken info (ptr.take remain) with
      | (info, none) => (info, none)
      | (info, some left) => (info, some (left ++ ptr.drop remain))

/-- The loop of `_http_parse_request` and `_http_parse_response`: what is returned. -/
def parseLoop (msgType : MsgType) (first : MainState)
    (token : MainState → Option (Info σ → List Char → Scanned σ)) (start : Nat) :
    Nat → Info σ → List Char → Except Fault (Int × Info σ)
  | 0, _, _ => .error .outOfFuel
  | fuel + 1, info, ptr =>
    let remain := toInt ptr.length
    if remain ≤ 0 then .ok (0, info)
    else
      let info := if info.mstate = .fin then .zero msgType strings.empty else info
      match dispatch first token start remain.toNat info ptr with
      | (info, none) => .ok (-1, info)
      | (info, some ptr) =>
        if info.mstate = .fin then .ok (toInt ptr.length, info)
        else parseLoop msgType first token start fuel info ptr

/-- More turns than the loop takes for so many characters. -/
def parseTurns (siz : Nat) : Nat := 4 * siz + 8

def httpParse (msgType : MsgType) (first : MainState)
    (token : MainState → Option (Info σ → List Char → Scanned σ)) (info : Info σ) (buf : List Char) (start : Nat) :
    Except Fault (Int × Info σ) :=
  if buf.length < 1 then .ok (-1, info)
  else
    let info := if info.msgType ≠ msgType then .zero msgType strings.empty else info
    parseLoop strings msgType first token start (parseTurns buf.length) info buf

def httpParseRequest (info : Info σ) (buf : List Char) (start : Nat) : Except Fault (Int × Info σ) :=
  httpParse strings .request .method (requestToken strings) info buf start

def httpParseResponse (info : Info σ) (buf : List Char) (start : Nat) : Except Fault (Int × Info σ) :=
  httpParse strings .response .version (responseToken strings) info buf start

end Fzsvn.Source.Http
