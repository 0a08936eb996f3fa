import LmTransport.Ref.AsyncnsMessages
import Mathlib.Logic.Function.Basic

/-!
# The queries of `asyncns.c`

A context keeps the queries that are under way in a table of `MAX_QUERIES` slots
and those that are done in a doubly linked list besides. The slot of a query is
its id modulo `MAX_QUERIES`, which is how a response finds it.

Queries are objects on a heap: `malloc` says where a new one goes and
`free` takes it away. `none` is a failed assertion, a use of memory that was
freed, or a loop that does not end.
-/

namespace LmTransport.Ref.Libasyncns

/-- `MAX_QUERIES`. -/
def maxQueries : Nat := 256

/-- The address of a query. -/
abbrev Ptr := Nat

/-- `asyncns_query_t`. What the response is stored in is `outcome`. -/
structure Query where
  id : UInt32
  type : QueryType
  done : Bool := false
  doneNext : Option Ptr := none
  donePrev : Option Ptr := none
  outcome : Outcome := {}
deriving DecidableEq, Repr

/-- `asyncns_t`, with the heap its queries are on. -/
structure Asyncns where
  currentId : UInt32 := 0
  currentIndex : Nat := 0
  queries : Nat → Option Ptr := fun _ => none
  doneHead : Option Ptr := none
  doneTail : Option Ptr := none
  nQueries : Nat := 0
  dead : Bool := false
  heap : Ptr → Option Query := fun _ => none

/-- The slot of an id. -/
def slotOf (id : UInt32) : Nat := id.toNat % maxQueries

/-- Store to a query. -/
def Asyncns.modify (p : Ptr) (f : Query → Query) (asyncns : Asyncns) : Asyncns :=
  { asyncns with heap := Function.update asyncns.heap p ((asyncns.heap p).map f) }

/-! ## The list of queries that are done -/

/-- `complete_query`. -/
def completeQuery (p : Ptr) (asyncns : Asyncns) : Option Asyncns :=
  match asyncns.heap p with
  | none => none
  | some q =>
      if q.done then none
      else
        let tail := asyncns.doneTail
        let asyncns := asyncns.modify p fun q => { q with done := true, donePrev := tail }
        let asyncns :=
          match tail with
          | some t => asyncns.modify t fun q => { q with doneNext := some p }
          | none => { asyncns with doneHead := some p }
        some <| { asyncns with doneTail := some p }.modify p fun q => { q with doneNext := none }

/-- The part of `asyncns_cancel` that takes a query out of the list. -/
def unlinkQuery (q : Query) (asyncns : Asyncns) : Asyncns :=
  let asyncns :=
    match q.donePrev with
    | some p => asyncns.modify p fun r => { r with doneNext := q.doneNext }
    | none => { asyncns with doneHead := q.doneNext }
  match q.doneNext with
  | some p => asyncns.modify p fun r => { r with donePrev := q.donePrev }
  | none => { asyncns with doneTail := q.donePrev }

/-! ## The table -/

/-- The `while` loop of `alloc_query`. A round without a free slot does not
change what the next one finds. -/
def skipQueries : Nat → Asyncns → Option Asyncns
  | 0, _ => none
  | fuel + 1, asyncns =>
      if (asyncns.queries asyncns.currentIndex).isSome then
        skipQueries fuel
          { asyncns with
            currentIndex := (asyncns.currentIndex + 1) % maxQueries
            currentId := asyncns.currentId + 1 }
      else some asyncns

/-- `alloc_query`. The type is what the callers store next. -/
def allocQuery (malloc : Option Ptr) (type : QueryType) (asyncns : Asyncns) :
    Option (Option Ptr × Asyncns) :=
  if maxQueries ≤ asyncns.nQueries then some (none, asyncns)
  else
    (skipQueries maxQueries asyncns).map fun asyncns =>
      match malloc with
      | none => (none, asyncns)
      | some p =>
          (some p,
            { asyncns with
              queries := Function.update asyncns.queries asyncns.currentIndex (some p)
              heap := Function.update asyncns.heap p (some { id := asyncns.currentId, type })
              nQueries := asyncns.nQueries + 1 })

/-- `asyncns_cancel`. -/
def asyncnsCancel (p : Ptr) (asyncns : Asyncns) : Option Asyncns :=
  match asyncns.heap p with
  | none => none
  | some q =>
      if asyncns.nQueries = 0 then none
      else
        let asyncns := if q.done then unlinkQuery q asyncns else asyncns
        if asyncns.queries (slotOf q.id) ≠ some p then none
        else some
          { asyncns with
            queries := Function.update asyncns.queries (slotOf q.id) none
            heap := Function.update asyncns.heap p none
            nQueries := asyncns.nQueries - 1 }

/-- `lookup_query`. -/
def lookupQuery (asyncns : Asyncns) (id : UInt32) : Option (Ptr × Query) :=
  match asyncns.queries (slotOf id) with
  | none => none
  | some p =>
      match asyncns.heap p with
      | none => none
      | some q => if q.id = id then some (p, q) else none

/-- A turn of the loop of `asyncns_free`. -/
def freeSlot (asyncns : Asyncns) (i : Nat) : Option Asyncns :=
  match asyncns.queries i with
  | none => some asyncns
  | some p => asyncnsCancel p asyncns

/-- The loop of `asyncns_free` over the table. -/
def asyncnsFree (asyncns : Asyncns) : Option Asyncns :=
  (List.range maxQueries).foldlM freeSlot asyncns

/-! ## Submitting a call -/

/-- The assertions on the arguments of a call, and the type of `salen`. -/
def Call.valid : Call → Bool
  | .getaddrinfo node service _ => node.isSome || service.isSome
  | .getnameinfo sa _ _ _ => 0 < sa.length && sa.length < 4294967296
  | .resQuery .. | .resSearch .. => true

/-- The part `asyncns_getaddrinfo`, `asyncns_getnameinfo` and `asyncns_res`
share: the query, the request if one is sent, and what is left of the context. A
query whose request cannot be sent is cancelled. -/
def asyncnsSubmit (call : Call) (malloc : Option Ptr) (send : Bool) (asyncns : Asyncns) :
    Option (Option Ptr × Option (List UInt8) × Asyncns) :=
  if !call.valid then none
  else if asyncns.dead then some (none, none, asyncns)
  else
    match allocQuery malloc call.type asyncns with
    | none => none
    | some (none, asyncns) => some (none, none, asyncns)
    | some (some p, asyncns) =>
        if bufsize < call.length ∨ !send then
          (asyncnsCancel p asyncns).map fun asyncns => (none, none, asyncns)
        else some (some p, some (call.bytes asyncns.currentId), asyncns)

def asyncnsGetaddrinfo (node service : Option CString) (hints : Option Hints) :
    Option Ptr → Bool → Asyncns → Option (Option Ptr × Option (List UInt8) × Asyncns) :=
  asyncnsSubmit (.getaddrinfo node service hints)

def asyncnsGetnameinfo (sa : List UInt8) (flags gethost getserv : Int32) :
    Option Ptr → Bool → Asyncns → Option (Option Ptr × Option (List UInt8) × Asyncns) :=
  asyncnsSubmit (.getnameinfo sa flags gethost getserv)

def asyncnsResQuery (dname : CString) (cls type : Int32) :
    Option Ptr → Bool → Asyncns → Option (Option Ptr × Option (List UInt8) × Asyncns) :=
  asyncnsSubmit (.resQuery dname cls type)

def asyncnsResSearch (dname : CString) (cls type : Int32) :
    Option Ptr → Bool → Asyncns → Option (Option Ptr × Option (List UInt8) × Asyncns) :=
  asyncnsSubmit (.resSearch dname cls type)

/-! ## Receiving a response -/

/-- `handle_response`. -/
def handleResponse (malloc : Nat → Bool) (datagram : List UInt8) (asyncns : Asyncns) :
    Option Asyncns :=
  if !headerOk datagram then none
  else if QueryType.ofCode (rheader.read datagram).type = some .responseDied then
    some { asyncns with dead := true }
  else
    match lookupQuery asyncns (rheader.read datagram).id with
    | none => some asyncns
    | some (p, q) =>
        match receiveResponse malloc datagram q.type q.outcome with
        | none => none
        | some (complete, outcome) =>
            let asyncns := asyncns.modify p fun q => { q with outcome }
            if complete then completeQuery p asyncns else some asyncns

/-! ## Fetching an answer -/

/-- `EAI_AGAIN`, `EAI_SYSTEM`, `ECHILD` and `EAGAIN`, as what a C `int` has. -/
def eaiAgain : Int32 := -3
def eaiSystem : Int32 := -11
def echild : Int32 := 10
def eagain : Int32 := 11

/-- What a `*_done` function gives: its return value, what it sets `errno` and
`h_errno` to, if it does, and what it stores through its pointers. -/
structure Answer where
  ret : Int32
  errno : Option Int32 := none
  hErrno : Option Int32 := none
  addrinfo : Option (List Addrinfo) := none
  host : Option CString := none
  serv : Option (List UInt8) := none
deriving DecidableEq, Repr

/-- The three `*_done` functions. `asyncns_getnameinfo_done` is given a buffer of
some length for each of the texts, or `NULL`. -/
inductive Fetch where
  | getaddrinfo
  | getnameinfo (hostlen servlen : Option Nat)
  | res
deriving DecidableEq, Repr

/-- The assertions on the arguments and on the type of the query. -/
def Fetch.accepts : Fetch → QueryType → Bool
  | .getaddrinfo, type => type = .requestAddrinfo
  | .getnameinfo hostlen servlen, type =>
      type = .requestNameinfo && hostlen ≠ some 0 && servlen ≠ some 0
  | .res, type => type = .requestResQuery || type = .requestResSearch

/-- The answer when the context is dead. -/
def Fetch.childGone : Fetch → Answer
  | .getaddrinfo | .getnameinfo .. => { ret := eaiSystem, errno := some echild }
  | .res => { ret := -echild, errno := some echild }

/-- The answer when the query is not done. -/
def Fetch.tryAgain : Fetch → Answer
  | .getaddrinfo | .getnameinfo .. => { ret := eaiAgain }
  | .res => { ret := -eagain, errno := some eagain }

/-- `strncpy (buf, text, len); buf[len - 1] = 0;`, when there is a buffer and a
text. -/
def copyText (len : Option Nat) (text : Option (List UInt8)) : Option CString :=
  match len, text with
  | some len, some text => some (strndup text (len - 1))
  | _, _ => none

/-- The answer when the query is done. -/
def Fetch.answer (q : Outcome) : Fetch → Answer
  | .getaddrinfo =>
      { ret := q.ret
        errno := if q.ret = eaiSystem then some q.errno else none
        hErrno := if q.ret ≠ 0 then some q.hErrno else none
        addrinfo := some q.addrinfo }
  | .getnameinfo hostlen servlen =>
      { ret := q.ret
        errno := if q.ret = eaiSystem then some q.errno else none
        hErrno := if q.ret ≠ 0 then some q.hErrno else none
        host := copyText hostlen q.host
        serv := (copyText servlen q.serv).map (·.bytes) }
  | .res =>
      { ret := if q.ret < 0 then -q.errno else q.ret
        errno := if q.ret < 0 then some q.errno else none
        hErrno := if q.ret < 0 then some q.hErrno else none
        serv := q.serv }

/-- The three functions have this in common. The query is freed with its
answer. -/
def asyncnsDone (fetch : Fetch) (p : Ptr) (asyncns : Asyncns) : Option (Answer × Asyncns) :=
  match asyncns.heap p with
  | none => none
  | some q =>
      if !fetch.accepts q.type then none
      else if asyncns.dead then some (fetch.childGone, asyncns)
      else if !q.done then some (fetch.tryAgain, asyncns)
      else (asyncnsCancel p asyncns).map fun asyncns => (fetch.answer q.outcome, asyncns)

def asyncnsGetaddrinfoDone : Ptr → Asyncns → Option (Answer × Asyncns) := asyncnsDone .getaddrinfo

def asyncnsGetnameinfoDone (hostlen servlen : Option Nat) :
    Ptr → Asyncns → Option (Answer × Asyncns) :=
  asyncnsDone (.getnameinfo hostlen servlen)

def asyncnsResDone : Ptr → Asyncns → Option (Answer × Asyncns) := asyncnsDone .res

/-- `asyncns_getnext`. -/
def asyncnsGetnext (asyncns : Asyncns) : Option Ptr := asyncns.doneHead

/-- `asyncns_getnqueries`. -/
def asyncnsGetnqueries (asyncns : Asyncns) : Nat := asyncns.nQueries

/-- `asyncns_isdone`. -/
def asyncnsIsdone (asyncns : Asyncns) (p : Ptr) : Option Bool := (asyncns.heap p).map (·.done)

end LmTransport.Ref.Libasyncns
