import LmTransport.Ref.Glib
import LmTransport.Ref.Resolver
import LmTransport.Ref.SocketAddress

/-!
# `asyncns`

What the resolver uses of `asyncns.c`, for a context with one worker and at
most one query. Requests and responses travel over two datagram sockets; a
worker that ends on its own announces it with a last response, one that is
killed does not. A response to a query that is no longer in the table is
dropped by `handle_response`. It asserts that a response arrives in one piece;
a failed assertion is `none`.

`malloc`, `send` and `recv` can fail: what they did comes in with each call.
-/

namespace LmTransport.Ref

/-- `BUFSIZE`. -/
def bufsize : Nat := 10240

/-- `sizeof (addrinfo_request_t)`. -/
def sizeofAddrinfoRequest : Nat := 56

/-- `sizeof (res_request_t)`. -/
def sizeofResRequest : Nat := 32

/-- `sizeof (res_response_t)`. -/
def sizeofResResponse : Nat := 32

/-- `sizeof (buf)` in `asyncns_wait`, an array of `rheader_t`. -/
def sizeofBuf : Nat := 10256

/-- `EAI_AGAIN`. -/
def eaiAgain : Int := -3

/-- `EAI_SYSTEM`. -/
def eaiSystem : Int := -11

/-- `ECHILD`. -/
def echild : Int := 10

/-- `EAGAIN`. -/
def eagain : Int := 11

/-- `REQUEST_ADDRINFO` and `REQUEST_RES_QUERY`. -/
inductive QueryType where
  | addrinfo
  | resQuery
deriving DecidableEq, Repr

/-- `asyncns_query_t`. `serv` is the memory at the answer of the name server, of
which the first `ret` bytes are the answer. -/
structure AsyncnsQuery where
  done : Bool := false
  ret : Int := 0
  errno : Int := 0
  addrinfo : List AddrInfo := []
  serv : Memory := fun _ => 0

/-- `RESPONSE_ADDRINFO`, `RESPONSE_RES` and `RESPONSE_DIED`. -/
inductive AsyncnsResponse where
  | addrinfo (ret : Int) (ai : List AddrInfo)
  | res (ret errno : Int) (serv : Memory)
  | died

/-- The request a response is for. -/
def AsyncnsResponse.queryType : AsyncnsResponse → Option QueryType
  | .addrinfo _ _ => some .addrinfo
  | .res _ _ _ => some .resQuery
  | .died => none

/-- `asyncns_t`. `requests` is what the worker has still to answer and
`responses` what `recv` has still to read. -/
structure Asyncns where
  fd : Int
  dead : Bool := false
  query : Option AsyncnsQuery := none
  worker : Bool := true
  requests : List QueryType := []
  responses : List AsyncnsResponse := []

/-- `asyncns_new (1)`, when all its system calls succeed. -/
def asyncnsNew (fd : Int) : Asyncns := { fd }

/-- `asyncns_fd`. -/
def asyncnsFd (asyncns : Asyncns) : Int := asyncns.fd

/-! ## Submitting -/

/-- Whether `malloc` and `send` of a submission succeed. -/
structure Submission where
  malloc : Bool
  send : Bool
deriving DecidableEq, Repr

/-- A request of this length gets through. -/
def Submission.accepted (o : Submission) (length : Nat) : Bool :=
  o.malloc && length ≤ bufsize && o.send

/-- The part `asyncns_getaddrinfo` and `asyncns_res` share. Whether the query
is `NULL` is the first component; one that cannot be sent is cancelled. -/
def asyncnsSubmit (type : QueryType) (length : Nat) (o : Submission) (asyncns : Asyncns) :
    Bool × Asyncns :=
  if asyncns.dead then (false, asyncns)
  else if o.accepted length then
    (true, { asyncns with query := some {}, requests := asyncns.requests ++ [type] })
  else (false, asyncns)

def addrinfoRequestLength (node : String) : Nat := sizeofAddrinfoRequest + (node.utf8ByteSize + 1)

def resRequestLength (dname : String) : Nat := sizeofResRequest + (dname.utf8ByteSize + 1)

def asyncnsGetaddrinfo (node : String) : Submission → Asyncns → Bool × Asyncns :=
  asyncnsSubmit .addrinfo (addrinfoRequestLength node)

def asyncnsResQuery (dname : String) : Submission → Asyncns → Bool × Asyncns :=
  asyncnsSubmit .resQuery (resRequestLength dname)

/-! ## Receiving -/

/-- `complete_query`, for the query in the table if it is still there. -/
def completeQuery (f : AsyncnsQuery → AsyncnsQuery) (asyncns : Asyncns) : Asyncns :=
  { asyncns with query := asyncns.query.map fun q => { f q with done := true } }

/-- `assert(length == resp->length)`: `recv` got the whole response. The worker
sends no list of addresses that is longer than the buffer, but it has room for
an answer of a name server that is. -/
def AsyncnsResponse.whole : AsyncnsResponse → Bool
  | .res ret _ _ => sizeofResResponse + ret.toNat ≤ sizeofBuf
  | _ => true

def handleResponse (resp : AsyncnsResponse) (asyncns : Asyncns) : Option Asyncns :=
  if !resp.whole then none
  else
    match resp with
    | .died => some { asyncns with dead := true }
    | .addrinfo ret ai => some (completeQuery (fun q => { q with ret, addrinfo := ai }) asyncns)
    | .res ret errno serv =>
        some (completeQuery (fun q => { q with ret, errno, serv }) asyncns)

/-- `asyncns_wait (asyncns, FALSE)`. It receives until `recv` gives up, after
`recvs` responses or when there are none, or the worker is known to be dead. -/
def asyncnsWait : Nat → Asyncns → Option Asyncns
  | 0, asyncns => some asyncns
  | recvs + 1, asyncns =>
      if asyncns.dead then some asyncns
      else
        match asyncns.responses with
        | [] => some asyncns
        | resp :: responses =>
            match handleResponse resp { asyncns with responses } with
            | none => none
            | some asyncns => asyncnsWait recvs asyncns

/-- `asyncns_isdone`, for a query that is not `NULL`. -/
def asyncnsIsdone (asyncns : Asyncns) : Bool := asyncns.query.any (·.done)

/-! ## Fetching the answer -/

def asyncnsCancel (asyncns : Asyncns) : Asyncns := { asyncns with query := none }

/-- The result, the list, and what is left of the context. -/
def asyncnsGetaddrinfoDone (asyncns : Asyncns) : Int × List AddrInfo × Asyncns :=
  if asyncns.dead then (eaiSystem, [], asyncns)
  else
    match asyncns.query with
    | none => (eaiAgain, [], asyncns)
    | some q =>
        if q.done then (q.ret, q.addrinfo, asyncnsCancel asyncns)
        else (eaiAgain, [], asyncns)

/-- The length, the answer, and what is left of the context. -/
def asyncnsResDone (asyncns : Asyncns) : Int × Memory × Asyncns :=
  if asyncns.dead then (-echild, fun _ => 0, asyncns)
  else
    match asyncns.query with
    | none => (-eagain, fun _ => 0, asyncns)
    | some q =>
        if q.done then
          (if q.ret < 0 then -q.errno else q.ret, q.serv, asyncnsCancel asyncns)
        else (-eagain, fun _ => 0, asyncns)

/-! ## The worker -/

/-- The worker answers the request it has. -/
def Asyncns.answer (resp : AsyncnsResponse) (asyncns : Asyncns) : Option Asyncns :=
  match asyncns.requests with
  | [] => none
  | type :: requests =>
      if asyncns.worker = true ∧ resp.queryType = some type then
        some { asyncns with requests, responses := asyncns.responses ++ [resp] }
      else none

/-- The worker dies. `told` is whether it could still send its last message. -/
def Asyncns.workerDies (told : Bool) (asyncns : Asyncns) : Option Asyncns :=
  if asyncns.worker then
    some
      { asyncns with
        worker := false
        responses := asyncns.responses ++ if told then [.died] else [] }
  else none

end LmTransport.Ref
