import LmTransport.Ref.AsyncnsNet
import LmTransport.Ref.LmResolver

/-!
# One query at a time

A resolver makes a context for one lookup, and the model of the resolver has
such a context as a value of its own, `Asyncns` of `Asyncns.lean`: one query,
one worker, no bytes. Here that value is a machine. Its steps are the functions
`lm-asyncns-resolver.c` calls and what happens at the other end of the
descriptor.

`Event.seen` is how a user who looks up hosts and services reads what the
functions of `asyncns.c` return.
-/

namespace LmTransport.Ref

inductive ContextLabel where
  | submit (type : QueryType) (length : Nat) (o : Submission)
  | wait (recvs : Nat)
  | isdone
  | hostDone
  | srvDone
  | cancel
  | answer (resp : AsyncnsResponse)
  | workerDies (told : Bool)

/-- A query is asked for only when there is one. A failed assertion of
`asyncns_wait` ends the run. -/
def Asyncns.contextStep (asyncns : Asyncns) : ContextLabel → Option Asyncns
  | .submit type length o => some (asyncnsSubmit type length o asyncns).2
  | .wait recvs => asyncnsWait recvs asyncns
  | .isdone => if asyncns.query.isNone then none else some asyncns
  | .hostDone =>
      if asyncns.query.isNone then none else some (asyncnsGetaddrinfoDone asyncns).2.2
  | .srvDone => if asyncns.query.isNone then none else some (asyncnsResDone asyncns).2.2
  | .cancel => if asyncns.query.isNone then none else some (asyncnsCancel asyncns)
  | .answer resp => asyncns.answer resp
  | .workerDies told => asyncns.workerDies told

/-- A call with what it returned. -/
inductive ContextEvent where
  | submitted (type : QueryType) (length : Nat) (accepted : Bool)
  | isdone (done : Bool)
  | host (err : Int) (ans : List AddrInfo)
  | srv (len : Int) (ans : Memory)
  | cancelled

def Asyncns.contextEvents (asyncns : Asyncns) : ContextLabel → List ContextEvent
  | .submit type length o =>
      [.submitted type length (asyncnsSubmit type length o asyncns).1]
  | .isdone => [.isdone (asyncnsIsdone asyncns)]
  | .hostDone => [.host (asyncnsGetaddrinfoDone asyncns).1 (asyncnsGetaddrinfoDone asyncns).2.1]
  | .srvDone => [.srv (asyncnsResDone asyncns).1 (asyncnsResDone asyncns).2.1]
  | .cancel => [.cancelled]
  | .wait _ | .answer _ | .workerDies _ => []

namespace Libasyncns

/-- The calls the resolver makes. -/
def Call.kind : Call → Option Ref.QueryType
  | .getaddrinfo .. => some .addrinfo
  | .resQuery .. => some .resQuery
  | .getnameinfo .. | .resSearch .. => none

/-- A node of the list, as a socket address has it. -/
def Addrinfo.toAddrInfo (ai : Addrinfo) : AddrInfo where
  aiFlags := ai.aiFlags.toInt
  aiFamily := ai.aiFamily.toInt
  aiSocktype := ai.aiSocktype.toInt
  aiProtocol := ai.aiProtocol.toInt
  aiAddr := ai.addr
  aiCanonname := ai.canonname.map fun s => hostString s.bytes

/-- The memory an answer is in. -/
def answerMemory (serv : Option (List UInt8)) : Memory := fun i =>
  if i < 0 then 0 else (serv.getD []).getD i.toNat 0

def Event.seen : Event → List ContextEvent
  | .submitted call q =>
      call.kind.toList.map fun type => .submitted type call.length q.isSome
  | .fetched .getaddrinfo _ answer =>
      [.host answer.ret.toInt ((answer.addrinfo.getD []).map (·.toAddrInfo))]
  | .fetched .res _ answer => [.srv answer.ret.toInt (answerMemory answer.serv)]
  | .fetched (.getnameinfo ..) _ _ | .next _ => []
  | .cancelled _ => [.cancelled]
  | .isdone _ done => [.isdone done]

end Libasyncns

end LmTransport.Ref
