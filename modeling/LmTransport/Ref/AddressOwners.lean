import LmTransport.Lib.Lifecycle
import LmTransport.Lib.Refcount
import LmTransport.Lib.Run
import LmTransport.Ref.SocketAddress
import Mathlib.Algebra.Group.Nat.Defs

/-!
# The owners of socket addresses

What `lm-socket-address.c`, the `address` property of `LmSocket` and the two
resolvers do with the reference counts of any number of addresses. An address,
a socket and a lookup are each known by their place in a list, which is never
given out again.

Callers own the references in `refs`. A call that takes an address is given one
that somebody holds, and `lm_socket_address_unref` gives up a reference that
the caller owns. What `lm_socket_connect` does with its address is to look it
up and to ask for its iterator, and anybody may do that here at any time. A
lookup completes or fails; nobody cancels one or takes a reference to its
resolver.

An address is boxed: `g_value_set_boxed` and the arguments of a signal take
references with `lm_socket_address_ref` and drop them again. The copies GLib
makes inside a call are not modelled. The one in the argument of `finished` is
there while the handlers run, which may do everything here.
-/

namespace LmTransport.Ref.Owners

/-! ## Addresses -/

/-- What is allocated for an address: the struct, the copy of the host name, the
lists the resolver delivered (counted from one) and the iterator. -/
inductive Part where
  | slice
  | hostname
  | results (n : Nat)
  | resultsIter
deriving DecidableEq, Repr

/-- `lists` is how many lists have been given, so `results` is `NULL` or the
last one of them. The record stays when the struct is freed. -/
structure Address where
  sa : LmSocketAddress
  refCount : Nat
  lists : Nat
  log : List (Lifecycle.Ev Part)
deriving DecidableEq, Repr

def Address.new (hostname : String) (port : Nat) : Address :=
  { sa := lmSocketAddressNew hostname port
    refCount := 1
    lists := 0
    log := [.acquire .slice, .acquire .hostname] }

/-- `ref_count` is a `guint`. -/
def Address.ref (address : Address) : Address :=
  { address with refCount := (address.refCount + 1) % 2 ^ 32 }

/-- `lm_resolver_freeaddrinfo (sa->results)`, if there are any. -/
def Address.freeResults (address : Address) : List (Lifecycle.Ev Part) :=
  if address.sa.results = [] then [] else [.release (.results address.lists)]

def Address.unref (address : Address) : Address :=
  let address := { address with refCount := (address.refCount + (2 ^ 32 - 1)) % 2 ^ 32 }
  if address.refCount = 0 then
    { address with
      log := address.log ++ [.release .hostname] ++ address.freeResults ++ [.release .slice] }
  else address

/-- The list comes with its ownership. A `NULL` one only replaces what is there. -/
def Address.setResults (ai : List AddrInfo) (address : Address) : Address :=
  let address := { address with sa := lmSocketAddressSetResults address.sa ai }
  if ai = [] then address
  else
    { address with
      lists := address.lists + 1
      log := address.log ++ [.acquire (.results (address.lists + 1))] }

def Address.getResultIter (address : Address) : Address :=
  { address with
    sa := lmSocketAddressGetResultIter address.sa
    log := address.log ++
      if address.sa.resultsIter = none then [.acquire .resultsIter] else [] }

/-! ## Holders -/

structure LmSocket where
  alive : Bool := true
  sa : Option Nat := none
deriving DecidableEq, Repr

inductive Backend where
  | asyncns
  | blocking
deriving DecidableEq, Repr

/-- A lookup is pending until its answer is in, then the handlers of `finished`
run, then the rest of the function does, and the resolver is gone. -/
inductive Phase where
  | pending
  | emitting
  | emitted
  | gone
deriving DecidableEq, Repr

structure LmResolver where
  backend : Backend
  sa : Option Nat
  phase : Phase := .pending
deriving DecidableEq, Repr

structure World where
  addresses : List Address := []
  refs : List Nat := []
  sockets : List LmSocket := []
  resolvers : List LmResolver := []
deriving DecidableEq, Repr

/-- The address a socket has. -/
def LmSocket.held (socket : LmSocket) : Option Nat :=
  if socket.alive then socket.sa else none

/-- The address a resolver is looking up. -/
def LmResolver.held (resolver : LmResolver) : Option Nat :=
  match resolver.phase with
  | .gone => none
  | _ => resolver.sa

/-- The address in the argument of `finished`. -/
def LmResolver.argument (resolver : LmResolver) : Option Nat :=
  match resolver.phase with
  | .emitting => resolver.sa
  | _ => none

/-- How many live holders an address has: references the callers own (the
argument of a signal is one), sockets and lookups. -/
def World.holders (w : World) (a : Nat) : Nat :=
  Refcount.pointers some w.refs a + Refcount.pointers LmResolver.argument w.resolvers a +
    Refcount.pointers LmSocket.held w.sockets a + Refcount.pointers LmResolver.held w.resolvers a

/-- A pointer that may be passed: `NULL`, or to an address somebody holds. -/
def World.Valid (w : World) (address : Option Nat) : Prop :=
  ∀ a ∈ address, 0 < w.holders a

instance (w : World) : (address : Option Nat) → Decidable (w.Valid address)
  | none => isTrue fun _ h => by cases h
  | some a => decidable_of_iff (0 < w.holders a) (by simp [World.Valid])

/-! ## The functions -/

def World.modify (w : World) (a : Nat) (f : Address → Address) : World :=
  { w with addresses := w.addresses.modify a f }

def lmSocketAddressRef (a : Nat) (w : World) : World := w.modify a Address.ref

def lmSocketAddressUnref (a : Nat) (w : World) : World := w.modify a Address.unref

/-- `if (sa) { lm_socket_address_ref (sa); }`, and the same with `unref`. -/
def refIfSet (address : Option Nat) (w : World) : World :=
  match address with
  | none => w
  | some a => lmSocketAddressRef a w

def unrefIfSet (address : Option Nat) (w : World) : World :=
  match address with
  | none => w
  | some a => lmSocketAddressUnref a w

/-- `priv->sa = g_value_get_boxed (value)`, and a reference for it. -/
def socketSetProperty (k : Nat) (value : Option Nat) (w : World) : World :=
  refIfSet value
    { w with sockets := w.sockets.modify k fun socket => { socket with sa := value } }

def lmSocketNew (address : Option Nat) (w : World) : World :=
  socketSetProperty w.sockets.length address { w with sockets := w.sockets ++ [{}] }

def socketFinalize (k : Nat) (socket : LmSocket) (w : World) : World :=
  let w := unrefIfSet socket.sa w
  { w with sockets := w.sockets.modify k fun socket => { socket with alive := false } }

/-! ## The resolvers

Each reads the address from its private data, so the functions look it up. -/

def lmResolverLookupHost (backend : Backend) (a : Nat) (w : World) : World :=
  let w := lmSocketAddressRef a w
  { w with resolvers := w.resolvers ++ [{ backend, sa := some a }] }

/-- `lm_socket_address_set_results`, with its guard. -/
def lmSocketAddressSetResults (address : Option Nat) (ai : List AddrInfo) (w : World) : World :=
  match address with
  | none => w
  | some a => w.modify a (Address.setResults ai)

/-- `ans` is what the C library answered, if it did not fail. -/
def asyncnsResolverHostDone (priv : LmResolver) (ans : Option (List AddrInfo)) (w : World) :
    World :=
  match ans with
  | none => w
  | some ans => lmSocketAddressSetResults priv.sa ans w

/-- Here an empty answer is a failure too. -/
def blockingResolverIdleLookupHost (priv : LmResolver) (ans : Option (List AddrInfo))
    (w : World) : World :=
  match ans with
  | none => w
  | some [] => w
  | some ans => lmSocketAddressSetResults priv.sa ans w

def World.setPhase (w : World) (r : Nat) (phase : Phase) : World :=
  { w with resolvers := w.resolvers.modify r fun priv => { priv with phase } }

/-- `g_signal_emit_by_name (resolver, "finished", result, priv->sa)`, up to the
first handler. -/
def emitFinished (r : Nat) (priv : LmResolver) (w : World) : World :=
  (refIfSet priv.sa w).setPhase r .emitting

/-- The last handler has returned, and the argument is unset. -/
def finishedEmitted (r : Nat) (priv : LmResolver) (w : World) : World :=
  (unrefIfSet priv.sa w).setPhase r .emitted

/-- What of it is about the address. -/
def asyncnsResolverCleanup (r : Nat) (w : World) : World :=
  match w.resolvers[r]? with
  | none => w
  | some priv =>
      let w := unrefIfSet priv.sa w
      { w with resolvers := w.resolvers.modify r fun priv => { priv with sa := none } }

def asyncnsResolverFinalize (r : Nat) (w : World) : World := asyncnsResolverCleanup r w

def blockingResolverFinalize (r : Nat) (w : World) : World :=
  match w.resolvers[r]? with
  | none => w
  | some priv => unrefIfSet priv.sa w

/-- The rest of `asyncns_resolver_finished`. The reference it drops is the only
one there is. -/
def asyncnsResolverFinished (r : Nat) (w : World) : World :=
  (asyncnsResolverFinalize r (asyncnsResolverCleanup r w)).setPhase r .gone

/-- The rest of `blocking_resolver_finished`. -/
def blockingResolverFinished (r : Nat) (w : World) : World :=
  (blockingResolverFinalize r w).setPhase r .gone

/-! ## The machine -/

inductive Label where
  | new (hostname : String) (port : Nat)
  | ref (a : Nat)
  | unref (a : Nat)
  | socketNew (address : Option Nat)
  | setAddress (k : Nat) (address : Option Nat)
  | socketFinalize (k : Nat)
  | lookupHost (backend : Backend) (a : Nat)
  | hostDone (r : Nat) (ans : Option (List AddrInfo))
  | finished (r : Nat)
  | getResultIter (a : Nat)
deriving DecidableEq, Repr

def hostDone (r : Nat) (priv : LmResolver) (ans : Option (List AddrInfo)) (w : World) : World :=
  match priv.backend with
  | .asyncns => emitFinished r priv (asyncnsResolverHostDone priv ans w)
  | .blocking => emitFinished r priv (blockingResolverIdleLookupHost priv ans w)

def finished (r : Nat) (priv : LmResolver) (w : World) : World :=
  let w := finishedEmitted r priv w
  match priv.backend with
  | .asyncns => asyncnsResolverFinished r w
  | .blocking => blockingResolverFinished r w

/-- The socket, if it has not been finalized. -/
def World.socket (w : World) (k : Nat) : Option LmSocket :=
  w.sockets[k]?.filter LmSocket.alive

/-- The lookup, if it is in this phase. -/
def World.lookup (w : World) (r : Nat) (phase : Phase) : Option LmResolver :=
  w.resolvers[r]?.filter fun priv => priv.phase == phase

def step (w : World) : Label → Option World
  | .new hostname port =>
      some
        { w with
          addresses := w.addresses ++ [.new hostname port]
          refs := w.refs ++ [w.addresses.length] }
  | .ref a =>
      if w.Valid (some a) then some { lmSocketAddressRef a w with refs := w.refs ++ [a] }
      else none
  | .unref a =>
      if a ∈ w.refs then some { lmSocketAddressUnref a w with refs := w.refs.erase a }
      else none
  | .socketNew address => if w.Valid address then some (lmSocketNew address w) else none
  | .setAddress k address =>
      match w.socket k with
      | none => none
      | some _ => if w.Valid address then some (socketSetProperty k address w) else none
  | .socketFinalize k => (w.socket k).map fun priv => socketFinalize k priv w
  | .lookupHost backend a =>
      if w.Valid (some a) then some (lmResolverLookupHost backend a w) else none
  | .hostDone r ans => (w.lookup r .pending).map fun priv => hostDone r priv ans w
  | .finished r => (w.lookup r .emitting).map fun priv => finished r priv w
  | .getResultIter a =>
      if w.Valid (some a) then some (w.modify a Address.getResultIter) else none

end LmTransport.Ref.Owners
