import LmTransport.Ref.AsyncnsQueries

/-!
# The processes of `asyncns.c`

A client and its workers are connected by two datagram sockets: all workers take
their requests from the one and send their replies to the other. A datagram that
is sent waits in its socket until it is received, in the order of sending, and a
`send` waits for room. Which worker takes a request, how long it works on it,
what the C library gives and which process is killed when is not up to the
program, so all of that is in the labels.

The socket the client receives from does not block. `asyncns_wait` receives one
response after the other until there are none; a label is one turn of its loop.
-/

namespace LmTransport.Ref.Libasyncns

/-- `MAX_WORKERS`. -/
def maxWorkers : Nat := 16

/-- Where a worker is in its loop. A worker out of its loop has `send_died` before it. -/
inductive Worker where
  | waiting
  | working (id : UInt32) (call : LibcCall)
  | leaving
  | gone
deriving DecidableEq, Repr

/-- The processes and the datagrams between them. `aborted` is a client that did
not survive an assertion. -/
structure Net where
  client : Asyncns
  workers : List Worker
  requests : List (List UInt8) := []
  responses : List (List UInt8) := []
  aborted : Bool := false

/-- `asyncns_new`, when all its system calls succeed. -/
def asyncnsNew (nProc : Nat) : Net where
  client := {}
  workers := List.replicate (min nProc maxWorkers) .waiting

/-- The steps of the client are its calls and the turns of `asyncns_wait`; the
steps of a worker are `recv` with `handle_request`, the reply, the ends of its loop and of its
life. `malloc` and `send` are what these calls did. -/
inductive Label where
  | submit (call : Call) (malloc : Option Ptr) (send : Bool)
  | receive (malloc : Nat → Bool)
  | fetch (fetch : Fetch) (p : Ptr)
  | cancel (p : Ptr)
  | getnext
  | isdone (p : Ptr)
  | take (w : Nat)
  | reply (w : Nat) (result : LibcResult) (send : Bool)
  | leave (w : Nat)
  | announce (w : Nat) (send : Bool)
  | kill (w : Nat)

/-- The client goes on with what a function left of its context. -/
def Net.setClient (s : Net) : Option Asyncns → Net
  | none => { s with aborted := true }
  | some client => { s with client }

/-- `malloc` does not give memory that is in use. -/
def Net.canAlloc (s : Net) : Option Ptr → Bool
  | none => true
  | some p => (s.client.heap p).isNone

/-- A client's call. It waits while the socket is full. -/
def Net.submit (capacity : Nat) (call : Call) (malloc : Option Ptr) (send : Bool) (s : Net) :
    Option Net :=
  match asyncnsSubmit call malloc send s.client with
  | none => some (s.setClient none)
  | some (_, none, client) => some (s.setClient (some client))
  | some (_, some request, client) =>
      if s.requests.length < capacity then
        some { s.setClient (some client) with requests := s.requests ++ [request] }
      else none

/-- A turn of the loop of `asyncns_wait`. -/
def Net.receive (malloc : Nat → Bool) (s : Net) : Option Net :=
  if s.client.dead then none
  else
    match s.responses with
    | [] => none
    | response :: responses =>
        some
          { s.setClient (handleResponse malloc (response.take recvSize) s.client) with
            responses }

/-- The steps of the client. Queries it names are queries of its own. -/
def Net.clientStep (capacity : Nat) (s : Net) : Label → Option Net
  | .submit call malloc send =>
      if s.canAlloc malloc then s.submit capacity call malloc send else none
  | .receive malloc => s.receive malloc
  | .fetch fetch p =>
      if (s.client.heap p).isNone then none
      else some (s.setClient ((asyncnsDone fetch p s.client).map (·.2)))
  | .cancel p =>
      if (s.client.heap p).isNone then none else some (s.setClient (asyncnsCancel p s.client))
  | .getnext => some s
  | .isdone p => if (s.client.heap p).isNone then none else some s
  | _ => none

/-- A worker receives a request. One that fails an assertion or overruns its
buffer is gone without a word. -/
def Net.take (s : Net) (w : Nat) : Option Net :=
  match s.workers[w]?, s.requests with
  | some .waiting, request :: requests =>
      let worker : Worker :=
        match handleRequest (request.take recvSize) with
        | .aborts | .overruns => .gone
        | .ignores => .waiting
        | .terminates => .leaving
        | .calls id call => .working id call
      some { s with requests, workers := s.workers.set w worker }
  | _, _ => none

/-- The C library has given a result and the worker replies. A reply that cannot
be sent ends its loop. -/
def Net.reply (capacity : Nat) (s : Net) (w : Nat) (result : LibcResult) (send : Bool) :
    Option Net :=
  match s.workers[w]? with
  | some (.working id call) =>
      if !result.fits call then none
      else
        match sendReply id call result with
        | none => some { s with workers := s.workers.set w .gone }
        | some response =>
            if !send then some { s with workers := s.workers.set w .leaving }
            else if s.responses.length < capacity then
              some
                { s with
                  responses := s.responses ++ [response]
                  workers := s.workers.set w .waiting }
            else none
  | _ => none

/-- The end of a worker: `recv` fails, `send_died`, and a signal. -/
def Net.workerEnds (capacity : Nat) (s : Net) : Label → Option Net
  | .leave w =>
      if s.workers[w]? = some .waiting then some { s with workers := s.workers.set w .leaving }
      else none
  | .announce w send =>
      if s.workers[w]? = some .leaving then
        if !send then some { s with workers := s.workers.set w .gone }
        else if s.responses.length < capacity then
          some
            { s with responses := s.responses ++ [diedBytes], workers := s.workers.set w .gone }
        else none
      else none
  | .kill w =>
      if w < s.workers.length then some { s with workers := s.workers.set w .gone } else none
  | _ => none

/-- One step of one of the processes. `capacity` is how many datagrams a socket
holds. -/
def netStep (capacity : Nat) (s : Net) : Label → Option Net
  | .take w => s.take w
  | .reply w result send => s.reply capacity w result send
  | .leave w => s.workerEnds capacity (.leave w)
  | .announce w send => s.workerEnds capacity (.announce w send)
  | .kill w => s.workerEnds capacity (.kill w)
  | label => if s.aborted then none else s.clientStep capacity label

/-! ## What the user sees -/

/-- A call of the user with what it returned. -/
inductive Event where
  | submitted (call : Call) (q : Option Ptr)
  | fetched (fetch : Fetch) (q : Ptr) (answer : Answer)
  | cancelled (q : Ptr)
  | next (q : Option Ptr)
  | isdone (q : Ptr) (done : Bool)
deriving DecidableEq, Repr

def netEvents (s : Net) : Label → List Event
  | .submit call malloc send =>
      (asyncnsSubmit call malloc send s.client).toList.map fun r => .submitted call r.1
  | .fetch fetch p => (asyncnsDone fetch p s.client).toList.map fun r => .fetched fetch p r.1
  | .cancel p => [.cancelled p]
  | .getnext => [.next (asyncnsGetnext s.client)]
  | .isdone p => (asyncnsIsdone s.client p).toList.map fun done => .isdone p done
  | _ => []

end LmTransport.Ref.Libasyncns
