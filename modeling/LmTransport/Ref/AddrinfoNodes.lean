import LmTransport.Lib.LinkedList
import LmTransport.Ref.SocketAddress

/-!
# Result lists in memory

`lm-socket-address.c` once more, on the nodes `getaddrinfo` allocates: each is a
`struct addrinfo` with a pointer to its socket address and one to the next
node. Results are set in place, and an iterator is a pointer into the list.

A socket address is a block of bytes of its own. `ai_addr` points to the
beginning of one, and whether two nodes share a block is left open.
-/

namespace LmTransport.Ref.Nodes

/-- `struct addrinfo`. `aiAddr` is the number of a block and `aiNext` the place
of a node. -/
structure Addrinfo where
  aiFlags : Int
  aiFamily : Int
  aiSocktype : Int
  aiProtocol : Int
  aiAddrlen : Nat
  aiAddr : Nat
  aiCanonname : Option String
  aiNext : Option Nat
deriving DecidableEq, Repr

structure Heap where
  node : Nat → Addrinfo
  block : Nat → List UInt8

/-- `addr->ai_next`. -/
def Heap.next (heap : Heap) (addr : Nat) : Option Nat := (heap.node addr).aiNext

/-- Its back pointer is the address it is stored in. -/
structure LmSocketAddressIter where
  current : Option Nat
deriving DecidableEq, Repr

structure LmSocketAddress where
  hostname : String
  port : Nat
  results : Option Nat := none
  resultsIter : Option LmSocketAddressIter := none
deriving DecidableEq, Repr

def lmSocketAddressIsResolved (sa : LmSocketAddress) : Bool := sa.results.isSome

/-- The iterator that is returned is the one in the address. -/
def lmSocketAddressGetResultIter (sa : LmSocketAddress) :
    LmSocketAddressIter × LmSocketAddress :=
  match sa.resultsIter with
  | none => (⟨sa.results⟩, { sa with resultsIter := some ⟨sa.results⟩ })
  | some iter =>
      ({ iter with current := sa.results },
        { sa with resultsIter := some { iter with current := sa.results } })

/-- `((struct sockaddr_in *) addr->ai_addr)->sin_port = htons (sa->port)`. -/
def setPort (port : Nat) (addr : Nat) (heap : Heap) : Heap :=
  let block := (heap.node addr).aiAddr
  { heap with block := Function.update heap.block block (setSinPort (heap.block block) port) }

/-- `none` is a loop that has not come to an end yet. -/
def lmSocketAddressSetResults (fuel : Nat) (ai : Option Nat) (sa : LmSocketAddress)
    (heap : Heap) : Option (LmSocketAddress × Heap) :=
  (LinkedList.walk Heap.next (setPort sa.port) fuel ai heap).map fun heap =>
    ({ sa with results := ai }, heap)

def lmSocketAddressIterGetNext (heap : Heap) (iter : LmSocketAddressIter) :
    Option Nat × LmSocketAddressIter :=
  match iter.current with
  | none => (none, iter)
  | some current => (some current, { iter with current := heap.next current })

/-- `iter` is the iterator of `sa`. -/
def lmSocketAddressIterReset (sa : LmSocketAddress) (iter : LmSocketAddressIter) :
    LmSocketAddressIter :=
  { iter with current := sa.results }

end LmTransport.Ref.Nodes
