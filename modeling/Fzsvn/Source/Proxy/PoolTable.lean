import Fzsvn.Source.Config.ProxyConfig
import Fzsvn.Source.Proxy.Servers

/-!
# The table of a server pool

`svrpool_alloc_data` of `network/proxy/utils/svrpool.c` for a pool of the configuration: the
call as a whole, where `Servers.Instr` has its single steps. What the allocators answer are
arguments. The reference counts, which are the subject there, are left out.
-/
namespace Fzsvn.Source.Proxy.PoolTable
open Source.Config
open Source.Proxy.Servers (Fault maxServer calcGcd)

/-- What `calloc` and the allocation of an SSL context answer for a server. -/
structure Answer where
  calloc : Bool
  sslctx : Bool

structure ServerData where
  server : Server
  sslctx : Bool

/-- `servers` are the entries that were written, from the first one on; the others are
`NULL`. -/
structure SvrpoolData where
  servers : List (Option ServerData)
  nserver : Nat
  gcd : UInt32

def serverAllocData (svr : Server) (answer : Answer) : Option ServerData :=
  if !answer.calloc then none
  else if svr.ssl && !answer.sslctx then none
  else some { server := svr, sslctx := svr.ssl }

/-- The loop over `svrlist`; `servers` was written before. -/
def fillServers (answers : Nat → Answer) :
    List Server → List (Option ServerData) → Except Fault (List (Option ServerData))
  | [], servers => .ok servers
  | svr :: rest, servers =>
    if servers.length < maxServer then
      fillServers answers rest (servers ++ [serverAllocData svr (answers servers.length)])
    else .error (.outOfBounds servers.length)

/-- `spdata->servers[i]->server->cfg.weight` -/
def entryWeight : Option ServerData → Except Fault Int
  | none => .error .nullPointer
  | some svrdata => .ok svrdata.server.weight

def svrpoolAllocData (sp : Svrpool) (calloc : Bool) (answers : Nat → Answer) :
    Except Fault (Option SvrpoolData) :=
  if !calloc then .ok none
  else do
    let servers ← fillServers answers sp.svrlist []
    let weights ← servers.mapM entryWeight
    return some { servers, nserver := servers.length, gcd := UInt32.ofInt (calcGcd weights) }

end Fzsvn.Source.Proxy.PoolTable
