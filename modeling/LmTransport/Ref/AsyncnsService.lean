import LmTransport.Lib.Simulation
import LmTransport.Ref.AsyncnsNet

/-!
# What `asyncns.c` is for

Calls of the C library that take their time, made without waiting for them. A
call that is accepted becomes a query. At some point the query has the outcome
of that call, and the user fetches it. There are no messages here and no
workers.

This is the purpose, stated on its own: nothing in this file is translated from
the source.
-/

namespace LmTransport.Ref.Libasyncns

/-! ## What is asked and what is delivered -/

/-- The call of the C library a client's call stands for. -/
def Call.libc : Call → LibcCall
  | .getaddrinfo node service hints => .getaddrinfo node service hints
  | .getnameinfo sa flags gethost getserv => .getnameinfo sa (gethost ≠ 0) (getserv ≠ 0) flags
  | .resQuery dname cls type => .resQuery dname cls type
  | .resSearch dname cls type => .resSearch dname cls type

/-- The texts of a `getnameinfo` result that were asked for. -/
def namesOf (status : Status) (host serv : Bool) (hostbuf servbuf : CString) :
    Option CString × Option CString :=
  (if status.ret = 0 ∧ host then some hostbuf else none,
    if status.ret = 0 ∧ serv then some servbuf else none)

/-- The outcome is the result the C library gave, in full. -/
def Delivers : LibcCall → LibcResult → Outcome → Prop
  | .getaddrinfo .., .addrinfo status list, q =>
      q = { ret := status.ret, errno := status.errno, hErrno := status.hErrno,
            addrinfo := if status.ret = 0 then list else [] }
  | .getnameinfo _ host serv _, .nameinfo status hostbuf servbuf, q =>
      q = { ret := status.ret, errno := status.errno, hErrno := status.hErrno,
            host := (namesOf status host serv hostbuf servbuf).1.map (·.memory),
            serv := (namesOf status host serv hostbuf servbuf).2.map (·.memory) }
  | .resQuery .., .res status answer, q | .resSearch .., .res status answer, q =>
      q = { ret := status.ret, errno := status.errno, hErrno := status.hErrno,
            serv := if status.ret < 0 then none else some answer }
  | _, _, _ => False

/-- The outcome says that memory ran out, and has no more than a part of the
result. -/
def RanOut : LibcCall → LibcResult → Outcome → Prop
  | .getaddrinfo .., .addrinfo status list, q =>
      status.ret = 0 ∧ ∃ front, front <+: list ∧
        q = { ret := eaiMemory, errno := status.errno, hErrno := status.hErrno,
              addrinfo := front }
  | .getnameinfo _ host serv _, .nameinfo status hostbuf servbuf, q =>
      ∃ h s : Bool, q =
        { ret := eaiMemory, errno := status.errno, hErrno := status.hErrno,
          host := if h then (namesOf status host serv hostbuf servbuf).1.map (·.memory) else none,
          serv := if s then (namesOf status host serv hostbuf servbuf).2.map (·.memory) else none }
  | .resQuery .., .res status _, q | .resSearch .., .res status _, q =>
      ¬status.ret < 0 ∧ q = { ret := -1, errno := enomem, hErrno := status.hErrno }
  | _, _, _ => False

/-! ## The service -/

/-- A query: what was asked, and the outcome once there is one. -/
structure Entry where
  call : Call
  outcome : Option Outcome := none

/-- The queries, and those that have an outcome in the order in which they got
it. -/
structure Service where
  queries : Ptr → Option Entry := fun _ => none
  done : List Ptr := []
  dead : Bool := false

/-- What the user does, and what happens on its own. -/
inductive ServiceLabel where
  | submit (call : Call) (q : Ptr)
  | refuse (call : Call)
  | fetch (fetch : Fetch) (q : Ptr)
  | cancel (q : Ptr)
  | getnext
  | isdone (q : Ptr)
  | complete (q : Ptr) (result : LibcResult) (outcome : Outcome)
  | die

def Service.remove (t : Service) (q : Ptr) : Service :=
  { t with queries := Function.update t.queries q none, done := t.done.erase q }

open Classical in
/-- A query is completed with a result the C library can give to its own call.
Until the service has died, that is, and it is never completed a second time. -/
noncomputable def serviceStep (libc : LibcCall → LibcResult → Prop) (t : Service) :
    ServiceLabel → Option Service
  | .submit call q =>
      if t.dead ∨ (t.queries q).isSome then none
      else some { t with queries := Function.update t.queries q (some { call }) }
  | .refuse _ => some t
  | .fetch fetch q =>
      match t.queries q with
      | none => none
      | some e =>
          if !fetch.accepts e.call.type then none
          else if t.dead ∨ e.outcome = none then some t
          else some (t.remove q)
  | .cancel q => if (t.queries q).isSome then some (t.remove q) else none
  | .getnext => some t
  | .isdone q => if (t.queries q).isSome then some t else none
  | .complete q result outcome =>
      match t.queries q with
      | some { call, outcome := none } =>
          if ¬t.dead ∧ libc call.libc result ∧
              (Delivers call.libc result outcome ∨ RanOut call.libc result outcome) then
            some
              { t with
                queries := Function.update t.queries q (some { call, outcome := some outcome })
                done := t.done ++ [q] }
          else none
      | _ => none
  | .die => some { t with dead := true }

/-- What a `*_done` function gives for a query of the service. -/
def Service.answer (t : Service) (fetch : Fetch) (e : Entry) : Answer :=
  if t.dead then fetch.childGone
  else
    match e.outcome with
    | none => fetch.tryAgain
    | some outcome => fetch.answer outcome

def serviceEvents (t : Service) : ServiceLabel → List Event
  | .submit call q => [.submitted call (some q)]
  | .refuse call => [.submitted call none]
  | .fetch fetch q => (t.queries q).toList.map fun e => .fetched fetch q (t.answer fetch e)
  | .cancel q => [.cancelled q]
  | .getnext => [.next t.done.head?]
  | .isdone q => (t.queries q).toList.map fun e => .isdone q e.outcome.isSome
  | .complete .. | .die => []

end LmTransport.Ref.Libasyncns
