import LmTransport.Lib.Lifecycle
import LmTransport.Ref.AsyncnsResolver

/-!
# The memory of a finished service lookup

`asyncns_resolver_srv_done` once more, this time with its pointers and what is
done to the memory behind them. Two buffers come up. The answer was allocated
when the response arrived, and `asyncns_res_done` hands it over: the query
forgets it, and the comment on `asyncns_res_done` in `asyncns.h` asks the
caller to free it. The server string is the copy
`_lm_resolver_parse_srv_response` makes when it returns `TRUE`.

Both pointers are local variables that start out with whatever is on the
stack. A response whose answer could not be allocated is a response with the
result -1; `malloc (0)` gives out memory like any other.
-/

namespace LmTransport.Ref

inductive SrvBuffer where
  | answer
  | server
deriving DecidableEq, Repr

/-- What a pointer variable holds. -/
inductive SrvPointer where
  /-- Nothing was ever stored in it. -/
  | wild
  | null
  | buffer (b : SrvBuffer)
deriving DecidableEq, Repr

inductive MemEvent where
  | own (e : Lifecycle.Ev SrvBuffer)
  /-- `g_free` of a variable in which nothing was stored. -/
  | freeWild
deriving DecidableEq, Repr

namespace SrvPointer

/-- The caller comes to own what is behind the pointer. -/
def received : SrvPointer → List MemEvent
  | .buffer b => [.own (.acquire b)]
  | _ => []

def read : SrvPointer → List MemEvent
  | .buffer b => [.own (.use b)]
  | _ => []

end SrvPointer

def gFree : SrvPointer → List MemEvent
  | .wild => [.freeWild]
  | .null => []
  | .buffer b => [.own (.release b)]

/-- What `asyncns_res_done` leaves in `*answer`. The two early returns do not
store anything. -/
def asyncnsResDoneAnswer (asyncns : Asyncns) : SrvPointer :=
  if asyncns.dead then .wild
  else
    match asyncns.query with
    | none => .wild
    | some q =>
        if q.done then
          if q.ret < 0 then .null else .buffer .answer
        else .wild

/-- What the parser leaves in `*out_server`. -/
def parserServer : Option (List UInt8 × Nat) → SrvPointer
  | some _ => .buffer .server
  | none => .wild

namespace AsyncnsResolver

/-- `asyncns_resolver_srv_done`, with what happens to its buffers. -/
def asyncnsResolverSrvDoneMem (dnExpand : DnExpand) (name : List UInt8) (k : ResolverCaller)
    (asyncns : Asyncns) (w : World) : World × List MemEvent :=
  let srvAnsPtr := asyncnsResDoneAnswer asyncns
  let (srvLen, srvAns, asyncns) := asyncnsResDone asyncns
  let w := { w with priv := { w.priv with asyncnsCtx := some asyncns, resolvQuery := false } }
  if srvLen ≤ 0 then (asyncnsResolverFinished .failed k w, srvAnsPtr.received)
  else
    let parseResult := lmResolverParseSrvResponse dnExpand srvAns srvLen name
    let newServerPtr := parserServer parseResult
    let parsing := srvAnsPtr.received ++ srvAnsPtr.read ++ newServerPtr.received
    match parseResult with
    | some (newServer, newPort) =>
        -- `lm_socket_address_new` copies the name
        let sa := lmSocketAddressNew (hostString newServer) newPort
        (asyncnsResolverFinished .ok k { w with priv := { w.priv with sa := some (.made sa) } },
          parsing ++ newServerPtr.read ++ gFree newServerPtr)
    | none => (asyncnsResolverFinished .failed k w, parsing ++ gFree newServerPtr)

end AsyncnsResolver

end LmTransport.Ref
