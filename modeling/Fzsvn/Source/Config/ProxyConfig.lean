import Fzsvn.Library.Registry
import Fzsvn.Source.Netutil.IpAddr

/-!
# The configuration file

Embedding of `network/proxy/utils/proxy_config.c`, with `proxy_alloc`, `proxy_add_xxx` and
`proxy_find_xxx` of `network/proxy/tproxy/proxy.c` and the functions of `certset.c`,
`listener.c`, `svrpool.c` and `policy.c` that it calls.

A text is its characters without the NUL. An object of a list of the proxy is its position
there: objects are added at the tail and never removed, so the position stays. The counters
`ncert`, `nlistener`, `nsvrpool` and `npolicy` are the lengths of the lists. `pctx->cfg`
belongs to the section and is kept with it. The answer of the one allocation that a line can
make is an argument. When the file is refused the proxy is lost, as `main` gives up then; what
remains are the messages on `stderr`, the innermost first. That a signed counter overflows
is an error of its own.
-/
namespace Fzsvn.Source.Config
open Source.Netutil Library.MachineInt Library.Registry

abbrev Text := List Char

def maxName : Nat := 32
def maxCertset : Nat := 128
def maxListener : Nat := 128
def maxPolicy : Nat := 128
def maxSvrpool : Nat := 128
def pathMax : Nat := 4096

/-! ## The proxy -/

inductive CertType where
  | x509
  | pkcs12
  deriving DecidableEq

/-- `cert_t`; the union has `pkcs12` at the place of `x509.cert`. -/
structure Cert where
  type : CertType
  cert : Text
  pkey : Text

def Cert.pkcs12 (cert : Cert) : Text := cert.cert

structure Certset where
  name : Text
  domain : Text
  cert : Cert
  intcalist : List Text
  nintca : Int
  calist : List Text
  nca : Int
  crl : Text
  refcnt : Int

/-- `listener_t`; `address` is `none` while `address.family` is 0. -/
structure Listener where
  name : Text
  address : Option IpPort
  ssl : Bool
  cert : Option Nat
  refcnt : Int

structure Server where
  address : IpPort
  weight : Int
  ssl : Bool
  cert : Option Nat

inductive Algo where
  | rr
  | wrr
  | lc
  | hash
  deriving DecidableEq

structure Svrpool where
  name : Text
  algo : Algo
  svrlist : List Server
  nserver : Int
  refcnt : Int

inductive Mode where
  | reverse
  | trapt
  | tproxy
  deriving DecidableEq

structure Policy where
  name : Text
  mode : Mode
  listener : Option Nat
  svrpool : Option Nat

inductive ThreadBind where
  | rr
  | odd
  | even
  deriving DecidableEq

inductive ThreadHt where
  | full
  | low
  | high
  deriving DecidableEq

structure ProxyCfg where
  nworker : Int
  nice : Int
  naccept : Int
  useSplice : Bool
  useNbsplice : Bool
  bindCpu : Bool
  bindCpuAlgo : ThreadBind
  bindCpuHt : ThreadHt
  maxconn : Int
  debug : Int
  flow : Int
  http : Int
  timestamp : Bool

structure Proxy where
  cfg : ProxyCfg
  certlist : List Certset
  ltnlist : List Listener
  splist : List Svrpool
  pllist : List Policy

/-- What `proxy_alloc` returns. -/
def proxyAlloc : Proxy where
  cfg :=
    { nworker := 1, nice := 0, naccept := 1, useSplice := false, useNbsplice := false
      bindCpu := false, bindCpuAlgo := .rr, bindCpuHt := .full, maxconn := 0, debug := 0
      flow := 0, http := 0, timestamp := false }
  certlist := []
  ltnlist := []
  splist := []
  pllist := []

/-! ## Errors -/

inductive Arg where
  | int (n : Int)
  | text (s : Text)

/-- The format and the arguments, without the file and line of the source in front. -/
structure Message where
  format : String
  args : List Arg

inductive Stop where
  | refused (printed : List Message)
  | overread
  | nullPointer
  | overflow

section

variable {α : Type}

def errRet (format : String) (args : List Arg) : Except Stop α :=
  .error (.refused [{ format, args }])

def errIf (fails : Prop) [Decidable fails] (format : String) (args : List Arg) : Except Stop Unit :=
  if fails then errRet format args else .ok ()

/-- `ERR_RET` of the caller of a function that returned an error. -/
def orErrRet (run : Except Stop α) (format : String) (args : List Arg) : Except Stop α :=
  match run with
  | .error (.refused printed) => .error (.refused (printed ++ [{ format, args }]))
  | other => other

/-- The object that a pointer into a list points to. -/
def deref (xs : List α) (i : Nat) : Except Stop α :=
  match xs[i]? with
  | some x => .ok x
  | none => .error .nullPointer

/-- `n++` of an `int`. -/
def incr (n : Int) : Except Stop Int := if n + 1 < 2 ^ 31 then .ok (n + 1) else .error .overflow

end

/-- `__sync_fetch_and_add(&x->refcnt, 1)`, which wraps around. -/
def fetchAndAdd (refcnt : Int) : Int := toInt (refcnt + 1)

/-! ## The objects of the proxy -/

def certsetAlloc (calloc : Bool) : Except Stop Certset :=
  if calloc then
    .ok { name := [], domain := [], cert := { type := .x509, cert := [], pkey := [] },
          intcalist := [], nintca := 0, calist := [], nca := 0, crl := [], refcnt := 0 }
  else errRet "calloc memory for certset failed\n" []

def listenerAlloc (calloc : Bool) : Except Stop Listener :=
  if calloc then .ok { name := [], address := none, ssl := false, cert := none, refcnt := 0 }
  else errRet "calloc memory for listener_t failed\n" []

def svrpoolAlloc (calloc : Bool) : Except Stop Svrpool :=
  if calloc then .ok { name := [], algo := .rr, svrlist := [], nserver := 0, refcnt := 0 }
  else errRet "calloc memory for svrpool_t failed\n" []

def policyAlloc (calloc : Bool) : Except Stop Policy :=
  if calloc then .ok { name := [], mode := .reverse, listener := none, svrpool := none }
  else errRet "malloc memory for policy_t failed\n" []

/-- `server_alloc`, with what its caller stores. -/
def serverAlloc (calloc : Bool) (address : IpPort) (weight : Int) (ssl : Bool) : Except Stop Server :=
  if calloc then .ok { address, weight, ssl, cert := none }
  else errRet "calloc memory for server_t failed\n" []

/-- The name is copied to where `calloc` points without a check. -/
def cacertAlloc (calloc : Bool) (cafile : Text) : Except Stop Text :=
  if calloc then .ok (cafile.take (pathMax - 1)) else .error .nullPointer

def proxyAddCertset (py : Proxy) (cert : Certset) : Except Stop Proxy := do
  errIf (py.certlist.length > maxCertset) "too many certset in proxy\n" []
  return { py with certlist := py.certlist ++ [cert] }

def proxyAddListener (py : Proxy) (ltn : Listener) : Except Stop Proxy := do
  errIf (py.ltnlist.length > maxListener) "too many listener in proxy\n" []
  return { py with ltnlist := py.ltnlist ++ [ltn] }

def proxyAddSvrpool (py : Proxy) (sp : Svrpool) : Except Stop Proxy := do
  errIf (py.splist.length > maxSvrpool) "too many svrpool in proxy\n" []
  return { py with splist := py.splist ++ [sp] }

def proxyAddPolicy (py : Proxy) (pl : Policy) : Except Stop Proxy := do
  errIf (py.pllist.length > maxPolicy) "too many svrpool in proxy\n" []
  return { py with pllist := py.pllist ++ [pl] }

/-- The loop stops at the first match, those of the others go on to the last. -/
def proxyFindCertset (py : Proxy) (name : Text) : Option Nat :=
  py.certlist.findIdx? (·.name = name)

def proxyFindListener (py : Proxy) (name : Text) : Option Nat :=
  lastIdx? (·.name = name) py.ltnlist

def proxyFindSvrpool (py : Proxy) (name : Text) : Option Nat :=
  lastIdx? (·.name = name) py.splist

def proxyFindPolicy (py : Proxy) (name : Text) : Option Nat :=
  lastIdx? (·.name = name) py.pllist

def Proxy.setCertset (py : Proxy) (i : Nat) (cert : Certset) : Proxy :=
  { py with certlist := py.certlist.set i cert }

def Proxy.setListener (py : Proxy) (i : Nat) (ltn : Listener) : Proxy :=
  { py with ltnlist := py.ltnlist.set i ltn }

def Proxy.setSvrpool (py : Proxy) (i : Nat) (sp : Svrpool) : Proxy :=
  { py with splist := py.splist.set i sp }

def Proxy.setPolicy (py : Proxy) (i : Nat) (pl : Policy) : Proxy :=
  { py with pllist := py.pllist.set i pl }

def certsetClone (py : Proxy) (i : Nat) : Except Stop Proxy := do
  let cert ← deref py.certlist i
  return py.setCertset i { cert with refcnt := fetchAndAdd cert.refcnt }

def listenerClone (py : Proxy) (i : Nat) : Except Stop Proxy := do
  let ltn ← deref py.ltnlist i
  return py.setListener i { ltn with refcnt := fetchAndAdd ltn.refcnt }

def svrpoolClone (py : Proxy) (i : Nat) : Except Stop Proxy := do
  let sp ← deref py.splist i
  return py.setSvrpool i { sp with refcnt := fetchAndAdd sp.refcnt }

/-! ## Arguments -/

def cfgAtoi (str : Text) : Int :=
  let digits :=
    match str with
    | '-' :: rest => rest
    | '+' :: rest => rest
    | rest => rest
  if digits.all Char.isDigit then atoi str else -1

section

variable {α : Type} (lineno : Int)

/-- `narg != 1`, and `args[0]`. -/
def oneArg (format : String) : List Text → Except Stop Text
  | [arg] => .ok arg
  | _ => errRet format [.int lineno]

def intArg (low high : Int) (format : String) (arg : Text) : Except Stop Int := do
  let val := cfgAtoi arg
  errIf (val < low ∨ val > high) format [.int lineno]
  return val

/-- The `strcmp` of an argument with the values it may have. -/
def choiceArg (choices : List (String × α)) (arg : Text) (format : String) (printed : List Arg) :
    Except Stop α :=
  match choices.find? (·.1.toList = arg) with
  | some (_, value) => .ok value
  | none => errRet format printed

def yesNoArg (arg : Text) : Except Stop Bool :=
  choiceArg [("yes", true), ("no", false)] arg "line %d: argument must be yes|no\n" [.int lineno]

/-- An argument that is kept in a buffer of `MAX_NAME` bytes. -/
def checkName (arg : Text) : Except Stop Unit :=
  errIf (arg.length ≥ maxName) "line %d: argument exceed range(1-%d)\n"
    [.int lineno, .int maxName]

/-- `ip_port_from_str`. -/
def addressArg (inet : Inet) (arg : Text) (format : String) : Except Stop IpPort :=
  match ipPortFromStr inet arg with
  | .error _ => .error .overread
  | .ok none => errRet format [.int lineno, .text arg]
  | .ok (some address) => .ok address

end

/-! ## Sections -/

/-- `section` of the parse context, with the object that `cfg` points to. -/
inductive Section where
  | proxy
  | certset (i : Nat)
  | listener (i : Nat)
  | svrpool (i : Nat)
  | policy (i : Nat)
  deriving DecidableEq

/-- The value of the enumeration. -/
def Section.code : Section → Int
  | .proxy => 0
  | .certset _ => 1
  | .listener _ => 2
  | .svrpool _ => 3
  | .policy _ => 4

structure Pctx where
  sect : Section
  lineno : Int

def cfgCheckCertset (cert : Certset) : Except Stop Unit := do
  errIf (cert.name = []) "no svrcert name\n" []
  match cert.cert.type with
  | .x509 => do
    errIf (cert.cert.cert = []) "no certificate in svrcert(%s)\n" [.text cert.name]
    errIf (cert.cert.pkey = []) "no privatekey in svrcert(%s)\n" [.text cert.name]
  | .pkcs12 => errIf (cert.cert.pkcs12 = []) "no pkcs12 in svrcert(%s)\n" [.text cert.name]

def cfgCheckListener (ltn : Listener) : Except Stop Unit := do
  errIf (ltn.name = []) "no listener name\n" []
  errIf (ltn.address = none) "no listener address in listener(%s)\n" [.text ltn.name]
  errIf (ltn.ssl ∧ ltn.cert = none) "no certificate in listener(%s)\n" [.text ltn.name]

def cfgCheckSvrpool (sp : Svrpool) : Except Stop Unit := do
  errIf (sp.name = []) "no svrpool name provide\n" []
  errIf (sp.nserver < 1) "no server in svrpool (%s)\n" [.text sp.name]

def cfgCheckPolicy (pl : Policy) : Except Stop Unit := do
  errIf (pl.name = []) "no policy name provide\n" []
  errIf (pl.listener = none) "no listener in policy (%s)\n" [.text pl.name]
  errIf (pl.svrpool = none) "not svrpool in policy (%s)\n" [.text pl.name]

def cfgCheckSection (py : Proxy) : Section → Except Stop Unit
  | .proxy => .ok ()
  | .certset i => do cfgCheckCertset (← deref py.certlist i)
  | .listener i => do cfgCheckListener (← deref py.ltnlist i)
  | .svrpool i => do cfgCheckSvrpool (← deref py.splist i)
  | .policy i => do cfgCheckPolicy (← deref py.pllist i)

/-! ## Lines of a section -/

def cfgParseProxy (lineno : Int) (pycfg : ProxyCfg) (kw : Text) (args : List Text) : Except Stop ProxyCfg :=
  if kw = "worker".toList then do
    let arg ← oneArg lineno "line %d: too many arguments for <worker>\n" args
    let val ← intArg lineno 1 40 "line %d: argument exceed range(1-40)\n" arg
    return { pycfg with nworker := val }
  else if kw = "nice".toList then do
    let arg ← oneArg lineno "line %d: too many argument for <nice>\n" args
    let val ← intArg lineno (-20) 19 "line %d: argument exceed range(-20 - 19)\n" arg
    return { pycfg with nice := val }
  else if kw = "naccept".toList then do
    let arg ← oneArg lineno "line %d: too many argument for <naccept>\n" args
    let val ← intArg lineno 1 16 "line %d: argument exceed range(1-16)\n" arg
    return { pycfg with naccept := val }
  else if kw = "use_splice".toList then do
    let arg ← oneArg lineno "line %d: too many arguments for <use_splice>\n" args
    return { pycfg with useSplice := ← yesNoArg lineno arg }
  else if kw = "use_nbsplice".toList then do
    let arg ← oneArg lineno "line %d: too many arguments for <use_nbsplice>\n" args
    return { pycfg with useNbsplice := ← yesNoArg lineno arg }
  else if kw = "maxconn".toList then do
    let arg ← oneArg lineno "line %d: too many arguments for <maxconn>\n" args
    let val ← intArg lineno 1 5000000 "line %d: argument exceed range(1-5000000)\n" arg
    return { pycfg with maxconn := val }
  else if kw = "bind_cpu".toList then do
    let arg ← oneArg lineno "line %d: too many arguments for <bind_cpu>\n" args
    return { pycfg with bindCpu := ← yesNoArg lineno arg }
  else if kw = "bind_cpu_algo".toList then do
    let arg ← oneArg lineno "line %d: too many arguments for <bind_cpu_algo>\n" args
    let algo ← choiceArg [("rr", .rr), ("odd", .odd), ("even", .even)] arg
      "line %d: argument must be rr|odd|even\n" [.int lineno]
    return { pycfg with bindCpuAlgo := algo }
  else if kw = "bind_cpu_ht".toList then do
    let arg ← oneArg lineno "line %d: too many arguments for <bind_cpu_ht>\n" args
    let ht ← choiceArg [("low", .low), ("high", .high), ("full", .full)] arg
      "line %d: argument must be yes|no\n" [.int lineno]
    return { pycfg with bindCpuHt := ht }
  else if kw = "debug".toList then do
    let arg ← oneArg lineno "line %d: too many arguments for <debug>\n" args
    let val ← intArg lineno 0 7 "line %d: argument exceed range(0-7)\n" arg
    return { pycfg with debug := val }
  else if kw = "flow".toList then do
    let arg ← oneArg lineno "line %d: too many arguments for <flow>\n" args
    let val ← intArg lineno 0 7 "line %d: argument exceed range(0-7)\n" arg
    return { pycfg with flow := val }
  else if kw = "http".toList then do
    let arg ← oneArg lineno "line %d: too many arguments for <http>\n" args
    let val ← intArg lineno 0 7 "line %d: argument exceed range(0-7)\n" arg
    return { pycfg with http := val }
  else if kw = "timestamp".toList then do
    let arg ← oneArg lineno "line %d: too many arguments for <timestamp>\n" args
    return { pycfg with timestamp := ← yesNoArg lineno arg }
  else errRet "line %d: invalid keyword (%s)\n" [.int lineno, .text kw]

def cfgParseCertset (lineno : Int) (calloc : Bool) (py : Proxy) (i : Nat) (kw : Text)
    (args : List Text) : Except Stop Proxy := do
  let cert ← deref py.certlist i
  if kw = "name".toList then do
    let arg ← oneArg lineno "line %d: wrong arguments for <name>\n" args
    checkName lineno arg
    errIf (cert.name ≠ []) "line %d: already have name(%s)\n" [.int lineno, .text cert.name]
    errIf (proxyFindCertset py arg ≠ none) "line %d: certificate(%s) already exist\n"
      [.int lineno, .text arg]
    return py.setCertset i { cert with name := arg }
  else if kw = "domain".toList then do
    let arg ← oneArg lineno "line %d: wrong arguments for <certificate>\n" args
    checkName lineno arg
    errIf (cert.domain ≠ []) "lind %d: already have domain(%s)\n" [.int lineno, .text cert.domain]
    return py.setCertset i { cert with domain := arg }
  else if kw = "certificate".toList then do
    let arg ← oneArg lineno "line %d: wrong arguments for <certificate>\n" args
    errIf (cert.cert.type = .pkcs12) "line %d: already set pkcs12\n" [.int lineno]
    errIf (cert.cert.cert ≠ []) "line %d: already set certificate\n" [.int lineno]
    return py.setCertset i { cert with cert := { cert.cert with cert := arg } }
  else if kw = "privatekey".toList then do
    let arg ← oneArg lineno "line %d: wrong arguments for <privatekey>\n" args
    errIf (cert.cert.type = .pkcs12) "line %d: already set pkcs12\n" [.int lineno]
    errIf (cert.cert.pkey ≠ []) "line %d: already set privatekey\n" [.int lineno]
    return py.setCertset i { cert with cert := { cert.cert with pkey := arg } }
  else if kw = "pkcs12".toList then do
    let arg ← oneArg lineno "line %d: wrong arguments for <pkcs12>\n" args
    errIf (cert.cert.type = .pkcs12) "line %d: already set pkcs12\n" [.int lineno]
    errIf (cert.cert.cert ≠ []) "line %d: already set certificate\n" [.int lineno]
    errIf (cert.cert.pkey ≠ []) "line %d: already set privatekey\n" [.int lineno]
    -- The type stays CERT_X509.
    return py.setCertset i { cert with cert := { cert.cert with cert := arg } }
  else if kw = "intca".toList then do
    let arg ← oneArg lineno "line %d: wrong arguments for <intca>\n" args
    let ca ← cacertAlloc calloc arg
    let nintca ← incr cert.nintca
    return py.setCertset i { cert with intcalist := cert.intcalist ++ [ca], nintca }
  else if kw = "ca".toList then do
    let arg ← oneArg lineno "line %d: wrong arguments for <ca>\n" args
    let ca ← cacertAlloc calloc arg
    let nca ← incr cert.nca
    return py.setCertset i { cert with calist := cert.calist ++ [ca], nca }
  else if kw = "crl".toList then do
    let arg ← oneArg lineno "line %d: wrong arguments for <crl>\n" args
    errIf (cert.crl ≠ []) "line %d: already set crl\n" [.int lineno]
    return py.setCertset i { cert with crl := arg }
  else errRet "line %d: invalid keyword (%s)\n" [.int lineno, .text kw]

def cfgParseListener (inet : Inet) (lineno : Int) (py : Proxy) (i : Nat) (kw : Text)
    (args : List Text) : Except Stop Proxy := do
  let ltn ← deref py.ltnlist i
  if kw = "name".toList then do
    let arg ← oneArg lineno "line %d: wrong arguments for <name>\n" args
    checkName lineno arg
    errIf (ltn.name ≠ []) "line %d: already have name(%s)\n" [.int lineno, .text ltn.name]
    errIf (proxyFindListener py arg ≠ none) "line %d: listener(%s) already exist\n"
      [.int lineno, .text arg]
    return py.setListener i { ltn with name := arg }
  else if kw = "address".toList then do
    let arg ← oneArg lineno "line %d: wrong arguments for <name>\n" args
    let address ← addressArg lineno inet arg "line %d: invalid listen address(%s)\n"
    return py.setListener i { ltn with address := some address }
  else if kw = "ssl".toList then do
    let arg ← oneArg lineno "line %d: wrong arguments for <ssl>\n" args
    return py.setListener i { ltn with ssl := ← yesNoArg lineno arg }
  else if kw = "certset".toList then do
    let arg ← oneArg lineno "line %d: wrong arguments for <certificate>\n" args
    errIf (arg.length ≥ pathMax) "line %d: argument exceed range(1-%d)\n"
      [.int lineno, .int pathMax]
    match proxyFindCertset py arg with
    | none => errRet "line %d: not found certset(%s)\n" [.int lineno, .text arg]
    | some c => do
      let py ← certsetClone py c
      return py.setListener i { ltn with cert := some c }
  else errRet "line %d: invalid keyword (%s)\n" [.int lineno, .text kw]

def cfgParseSvrpool (inet : Inet) (lineno : Int) (calloc : Bool) (py : Proxy) (i : Nat) (kw : Text)
    (args : List Text) : Except Stop Proxy := do
  let sp ← deref py.splist i
  if kw = "name".toList then do
    let arg ← oneArg lineno "line %d: wrong arguments for <name>\n" args
    -- The length comes last here.
    errIf (sp.name ≠ []) "line %d: already set name(%s)\n" [.int lineno, .text sp.name]
    errIf (proxyFindSvrpool py arg ≠ none) "line %d: svrpool %s already exist\n"
      [.int lineno, .text arg]
    checkName lineno arg
    return py.setSvrpool i { sp with name := arg }
  else if kw = "algo".toList then do
    let arg ← oneArg lineno "line %d: wrong arguments for <algo>\n" args
    let algo ← choiceArg [("rr", .rr), ("wrr", .wrr), ("lc", .lc), ("hash", .hash)] arg
      "line %d: invalid argument(%s)\n" [.int lineno, .text arg]
    return py.setSvrpool i { sp with algo }
  else if kw = "server".toList then
    match args with
    | [weight, protocol, addr] => do
      let val ← intArg lineno 1 99 "line %d: argument exceed range(1-99)\n" weight
      let ssl ← choiceArg [("http", false), ("https", true)] protocol
        "line %d: wrong argument for protocol(%s)\n" [.int lineno, .text protocol]
      let address ← addressArg lineno inet addr "line %d: invalid server address(%s)\n"
      let svr ← orErrRet (serverAlloc calloc address val ssl) "line %d: alloc server failed\n"
        [.int lineno]
      let nserver ← incr sp.nserver
      return py.setSvrpool i { sp with svrlist := sp.svrlist ++ [svr], nserver }
    | _ => errRet "line %d: wrong argument for <server>\n" [.int lineno]
  else errRet "line %d: invalid keyword (%s)\n" [.int lineno, .text kw]

def cfgParsePolicy (lineno : Int) (py : Proxy) (i : Nat) (kw : Text) (args : List Text) :
    Except Stop Proxy := do
  let pl ← deref py.pllist i
  if kw = "name".toList then do
    let arg ← oneArg lineno "line %d: wrong arguments for <name>\n" args
    checkName lineno arg
    errIf (pl.name ≠ []) "line %d: already have name(%s)\n" [.int lineno, .text pl.name]
    errIf (proxyFindPolicy py arg ≠ none) "line %d: policy(%s) already exist\n"
      [.int lineno, .text arg]
    return py.setPolicy i { pl with name := arg }
  else if kw = "mode".toList then do
    let arg ← oneArg lineno "line %d: wrong arguments for <mode>\n" args
    let mode ← choiceArg [("reverse", .reverse), ("trapt", .trapt), ("tproxy", .tproxy)] arg
      "line %d: invalid argument(%s)\n" [.int lineno, .text arg]
    return py.setPolicy i { pl with mode }
  else if kw = "listener".toList then do
    let arg ← oneArg lineno "line %d: wrong arguments for <listener>\n" args
    match proxyFindListener py arg with
    | none => errRet "line %d: not found listener(%s)\n" [.int lineno, .text arg]
    | some l =>
      -- The open policy is in the list, too.
      match py.pllist.find? (·.listener = some l) with
      | some user =>
        errRet "line %d: listener(%s) used by policy(%s)\n"
          [.int lineno, .text arg, .text user.name]
      | none => do
        let py ← listenerClone py l
        return py.setPolicy i { pl with listener := some l }
  else if kw = "svrpool".toList then do
    let arg ← oneArg lineno "line %d: wrong arguments for <server_pool>\n" args
    match proxyFindSvrpool py arg with
    | none => errRet "line %d: not found server_pool(%s)\n" [.int lineno, .text arg]
    | some s => do
      let py ← svrpoolClone py s
      return py.setPolicy i { pl with svrpool := some s }
  else errRet "line %d: invalid keyword (%s)\n" [.int lineno, .text kw]

/-! ## Lines -/

/-- The check in front of a section; the text for `[proxy]` is spelled differently. -/
def closeSection (py : Proxy) (sect : Section) (format : String) : Except Stop Unit :=
  orErrRet (cfgCheckSection py sect) format [.int sect.code]

def cfgParseLine (inet : Inet) (calloc : Bool) (pctx : Pctx) (py : Proxy) (kw : Text)
    (args : List Text) : Except Stop (Proxy × Section) :=
  if kw = "[proxy]".toList then do
    closeSection py pctx.sect "previous section(%d) not finished\n"
    return (py, .proxy)
  else if kw = "[certset]".toList then do
    closeSection py pctx.sect "previouse section(%d) not finished\n"
    let cert ← orErrRet (certsetAlloc calloc) "alloc a new certset failed\n" []
    let added ← orErrRet (proxyAddCertset py cert) "add certset into proxy failed\n" []
    return (added, .certset py.certlist.length)
  else if kw = "[listener]".toList then do
    closeSection py pctx.sect "previouse section(%d) not finished\n"
    let ltn ← orErrRet (listenerAlloc calloc) "alloc a new listener failed\n" []
    let added ← orErrRet (proxyAddListener py ltn) "add listener into proxy failed\n" []
    return (added, .listener py.ltnlist.length)
  else if kw = "[svrpool]".toList then do
    closeSection py pctx.sect "previouse section(%d) not finished\n"
    let sp ← orErrRet (svrpoolAlloc calloc) "alloc a new server pool failed\n" []
    let added ← orErrRet (proxyAddSvrpool py sp) "add svrpool into proxy failed\n" []
    return (added, .svrpool py.splist.length)
  else if kw = "[policy]".toList then do
    closeSection py pctx.sect "previouse section(%d) not finished\n"
    let pl ← orErrRet (policyAlloc calloc) "alloc a new policy failed\n" []
    let added ← orErrRet (proxyAddPolicy py pl) "add policy into proxy failed\n" []
    return (added, .policy py.pllist.length)
  else
    match pctx.sect with
    | .proxy => do
      let cfg ← cfgParseProxy pctx.lineno py.cfg kw args
      return ({ py with cfg }, .proxy)
    | .certset i => do return (← cfgParseCertset pctx.lineno calloc py i kw args, .certset i)
    | .listener i => do return (← cfgParseListener inet pctx.lineno py i kw args, .listener i)
    | .svrpool i => do return (← cfgParseSvrpool inet pctx.lineno calloc py i kw args, .svrpool i)
    | .policy i => do return (← cfgParsePolicy pctx.lineno py i kw args, .policy i)

/-- `sizeof(line)`. -/
def lineSize : Nat := 1024

/-- What `fgets` reads, call after call: each time up to a newline, and at most as much as
fits into the buffer with a NUL. `line` was read already. -/
def fgetsAll (line : Text) : Text → List Text
  | [] => if line = [] then [] else [line]
  | c :: rest =>
    let line := line ++ [c]
    if c = '\n' ∨ line.length = lineSize - 1 then line :: fgetsAll [] rest
    else fgetsAll line rest

/-- The text of a line without its newline. A line that starts with a NUL is empty, whatever
stands in front of the buffer, where the source looks for the newline. -/
def lineText (line : Text) : Text :=
  let str := line.takeWhile (· ≠ '\x00')
  if str.getLast? = some '\n' then str.dropLast else str

def isDelim (c : Char) : Bool := c = ' ' || c = '\t'

/-- `strtok_r`: the token, and what `saveptr` points to after it. -/
def strtokR (str : Text) : Option (Text × Text) :=
  match str.dropWhile isDelim with
  | [] => none
  | start => some (start.takeWhile (!isDelim ·), (start.dropWhile (!isDelim ·)).tail)

/-- The loop over the arguments, of which at most `n` are read. -/
def getArgs : Nat → Text → List Text
  | 0, _ => []
  | n + 1, rest =>
    match strtokR rest with
    | none => []
    | some (arg, rest) => if arg.head? = some '#' then [] else arg :: getArgs n rest

/-- Where `cfg_load_file` stands; `pctx.lineno` counts only the lines with a keyword. -/
structure Loading where
  py : Proxy
  pctx : Pctx
  lineno : Int

/-- One turn of the loop. -/
def cfgLoadLine (inet : Inet) (calloc : Bool) (st : Loading) (line : Text) : Except Stop Loading := do
  let last := line.getD (lineSize - 1) '\x00'
  errIf (last ≠ '\n' ∧ last ≠ '\x00') "line %d too long\n" [.int st.lineno]
  match strtokR (lineText line) with
  | none => do
    let lineno ← incr st.lineno
    return { st with lineno }
  | some (keyword, rest) =>
    if keyword.head? = some '#' then do
      let lineno ← incr st.lineno
      return { st with lineno }
    else do
      let args := getArgs 4 rest
      errIf (args.length ≥ 4) "line %d too many args(>3)\n" [.int st.lineno]
      let (py, sect) ← orErrRet (cfgParseLine inet calloc st.pctx st.py keyword args)
        "line %d parse failed\n" [.int st.lineno]
      let lineno ← incr st.lineno
      let ctxLineno ← incr st.pctx.lineno
      return { py, pctx := { sect, lineno := ctxLineno }, lineno }

/-- `content` is `none` if the file cannot be opened, and `calloc i` is the answer to what
line `i` allocates. -/
def cfgLoadFile (inet : Inet) (calloc : Nat → Bool) (py : Proxy) (file : Text)
    (content : Option Text) : Except Stop Proxy :=
  match content with
  | none => errRet "read config file %s failed\n" [.text file]
  | some content => do
    let start : Loading := { py, pctx := { sect := .proxy, lineno := 1 }, lineno := 1 }
    let st ← (fgetsAll [] content).zipIdx.foldlM
      (fun st (line, i) => cfgLoadLine inet (calloc i) st line) start
    orErrRet (cfgCheckSection st.py st.pctx.sect) "previous section %d not finished\n"
      [.int st.pctx.sect.code]
    return st.py

end Fzsvn.Source.Config
