import Mathlib.Data.List.Basic

/-!
# Socket addresses and their result iterator

`LmSocketAddress` carries a host, a port and, once resolved, the list of
`addrinfo` nodes the resolver delivered. A `NULL` list and an empty one are the
same thing to every function here, so `results` is a plain list. The iterator
is a field of the address: whoever asks for it gets the same one, rewound.
-/

namespace LmTransport.Ref

/-- One node of a `getaddrinfo` answer, without its `ai_next`. The `sockaddr`
is the bytes `ai_addr` points to, and `ai_addrlen` is how many there are. -/
structure AddrInfo where
  aiFlags : Int
  aiFamily : Int
  aiSocktype : Int
  aiProtocol : Int
  aiAddr : List UInt8
  aiCanonname : Option String
deriving DecidableEq, Repr

/-- `LmSocketAddressIter`. Its back pointer is the address it is stored in. -/
structure LmSocketAddressIter where
  current : List AddrInfo
deriving DecidableEq, Repr

structure LmSocketAddress where
  hostname : String
  port : Nat
  results : List AddrInfo := []
  resultsIter : Option LmSocketAddressIter := none
deriving DecidableEq, Repr

def lmSocketAddressNew (hostname : String) (port : Nat) : LmSocketAddress :=
  { hostname, port }

def lmSocketAddressGetHost (sa : LmSocketAddress) : String := sa.hostname

def lmSocketAddressGetPort (sa : LmSocketAddress) : Nat := sa.port

def lmSocketAddressIsResolved (sa : LmSocketAddress) : Bool := !sa.results.isEmpty

/-- Make the iterator on the first call, "just reset it" on the later ones:
either way it stands at the first result. -/
def lmSocketAddressGetResultIter (sa : LmSocketAddress) : LmSocketAddress :=
  match sa.resultsIter with
  | none => { sa with resultsIter := some ⟨sa.results⟩ }
  | some iter => { sa with resultsIter := some { iter with current := sa.results } }

/-- The bytes `htons` leaves in memory: the port modulo `2 ^ 16`, high byte
first. -/
def htons (port : Nat) : UInt8 × UInt8 :=
  (UInt8.ofNat (port / 256 % 256), UInt8.ofNat (port % 256))

/-- Store through the cast to `sockaddr_in`: `sin_port` is the two bytes after
the address family. -/
def setSinPort (addr : List UInt8) (port : Nat) : List UInt8 :=
  (addr.set 2 (htons port).1).set 3 (htons port).2

def lmSocketAddressSetResults (sa : LmSocketAddress) (ai : List AddrInfo) :
    LmSocketAddress :=
  { sa with
    results := ai.map fun addr => { addr with aiAddr := setSinPort addr.aiAddr sa.port } }

def lmSocketAddressIterGetNext (iter : LmSocketAddressIter) :
    Option AddrInfo × LmSocketAddressIter :=
  match iter.current with
  | [] => (none, iter)
  | addr :: rest => (some addr, { iter with current := rest })

/-! ## What the iterator has left -/

/-- The results the iterator of `sa` has still to give. -/
def LmSocketAddress.remaining (sa : LmSocketAddress) : List AddrInfo :=
  match sa.resultsIter with
  | none => []
  | some iter => iter.current

@[simp] theorem lmSocketAddressGetResultIter_remaining (sa : LmSocketAddress) :
    (lmSocketAddressGetResultIter sa).remaining = sa.results := by
  unfold lmSocketAddressGetResultIter LmSocketAddress.remaining
  cases sa.resultsIter <;> rfl

@[simp] theorem lmSocketAddressGetResultIter_results (sa : LmSocketAddress) :
    (lmSocketAddressGetResultIter sa).results = sa.results := by
  unfold lmSocketAddressGetResultIter
  cases sa.resultsIter <;> rfl

end LmTransport.Ref
