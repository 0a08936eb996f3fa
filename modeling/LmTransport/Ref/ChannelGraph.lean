import LmTransport.Lib.Broadcast
import LmTransport.Ref.Socket

/-!
# Channels and their inner channels

What `lm-channel.c` does with the `inner` relation, for any number of channels.
A channel is known by its number. `lm_channel_set_inner` connects one handler
for each of the four signals, always all four and with the same data, so one
list of outer channels stands for the four lists GObject keeps.

An emission takes a snapshot of the handlers connected by then and calls them
in order; it holds a reference on the channel until it is over. Handlers of
user code run before, between and after the handlers that forward, and may call
everything here, so while an emission is under way any label can be taken and
`next` moves it on. Any channel may emit by itself at any time: a socket does
when its watches are dispatched.

`rounds` remembers every emission, with the channels that ought to pass it on.
No function reads it.
-/

namespace LmTransport.Ref

inductive ChannelSignal where
  | opened
  | readable
  | writeable
  | closed (reason : LmChannelCloseReason)
deriving DecidableEq, Repr

/-- Of the references counted by `refCount`, callers own `held` and
`lm_channel_set_inner` took `innerRefs`. -/
structure LmChannel where
  refCount : Nat := 1
  held : Nat := 1
  innerRefs : Nat := 0
  inner : Option Nat := none
  handlers : List Nat := []
  finalized : Bool := false
deriving DecidableEq, Repr

namespace Graph

structure World where
  channel : Nat → LmChannel := fun _ => {}
  next : Nat := 0
  rounds : List (Broadcast.Round Nat ChannelSignal) := []
  stack : List (Broadcast.Frame Nat ChannelSignal) := []
  lateForwards : List Nat := []

def World.modify (w : World) (x : Nat) (f : LmChannel → LmChannel) : World :=
  { w with channel := fun y => if y = x then f (w.channel y) else w.channel y }

def World.live (w : World) (x : Nat) : Bool := x < w.next && !(w.channel x).finalized

/-- The live channels whose current inner is `x`. -/
def World.outers (w : World) (x : Nat) : List Nat :=
  (List.range w.next).filter fun y => w.live y && (w.channel y).inner == some x

/-! ## Objects -/

def gObjectNew (w : World) : World :=
  { w with
    channel := fun y => if y = w.next then {} else w.channel y
    next := w.next + 1 }

def gObjectRef (x : Nat) (w : World) : World :=
  w.modify x fun c => { c with refCount := c.refCount + 1 }

/-- The last one finalizes. `channel_finalize` does nothing of its own. -/
def gObjectUnref (x : Nat) (w : World) : World :=
  w.modify x fun c =>
    if c.refCount = 1 then { c with refCount := 0, finalized := true }
    else { c with refCount := c.refCount - 1 }

/-! ## The inner channel -/

/-- `g_object_ref` and the four `g_signal_connect`. Where there is an inner
channel already, the source has a comment. -/
def lmChannelSetInner (y : Nat) (inner : Option Nat) (w : World) : World :=
  match inner with
  | none => w
  | some x =>
      let w := w.modify y fun c => { c with inner := some x }
      w.modify x fun c =>
        { c with
          refCount := c.refCount + 1
          innerRefs := c.innerRefs + 1
          handlers := c.handlers ++ [y] }

/-- The new channel is the one with the number `w.next`. -/
def lmSecureChannelNew (inner : Option Nat) (w : World) : World :=
  lmChannelSetInner w.next inner (gObjectNew w)

/-! ## Emissions -/

/-- `g_signal_emit`, up to the first handler. -/
def emit (cause : Option Nat) (x : Nat) (s : ChannelSignal) (w : World) : World :=
  let w := gObjectRef x w
  { w with
    rounds := w.rounds ++ [⟨cause, x, s, w.outers x⟩]
    stack := ⟨w.rounds.length, x, s, (w.channel x).handlers⟩ :: w.stack }

/-- `i` is the emission the handler was called from. -/
def channelInnerOpenedCb (i : Nat) (channel : Nat) : World → World :=
  emit (some i) channel .opened

def channelInnerReadableCb (i : Nat) (channel : Nat) : World → World :=
  emit (some i) channel .readable

def channelInnerWriteableCb (i : Nat) (channel : Nat) : World → World :=
  emit (some i) channel .writeable

def channelInnerClosedCb (i : Nat) (reason : LmChannelCloseReason) (channel : Nat) :
    World → World :=
  emit (some i) channel (.closed reason)

/-- The handler connected to each signal. -/
def channelInnerCb (i : Nat) (s : ChannelSignal) (channel : Nat) : World → World :=
  match s with
  | .opened => channelInnerOpenedCb i channel
  | .readable => channelInnerReadableCb i channel
  | .writeable => channelInnerWriteableCb i channel
  | .closed reason => channelInnerClosedCb i reason channel

/-- The innermost emission calls its next handler, or ends. A handler whose
channel is gone runs all the same, on freed memory. -/
def nextHandler (w : World) : Option World :=
  match w.stack with
  | [] => none
  | ⟨_, x, _, []⟩ :: rest => some (gObjectUnref x { w with stack := rest })
  | ⟨i, x, s, y :: pending⟩ :: rest =>
      let w := { w with stack := ⟨i, x, s, pending⟩ :: rest }
      if w.live y then some (channelInnerCb i s y w)
      else some { w with lateForwards := w.lateForwards ++ [y] }

/-! ## The machine -/

inductive Label where
  | new
  | secureNew (inner : Option Nat)
  | ref (x : Nat)
  | unref (x : Nat)
  | setInner (y : Nat) (inner : Option Nat)
  | emit (x : Nat) (s : ChannelSignal)
  | next
deriving DecidableEq, Repr

/-- Callers hold valid pointers, and give back only references they own. -/
def step (w : World) : Label → Option World
  | .new => some (gObjectNew w)
  | .secureNew inner => if inner.all w.live then some (lmSecureChannelNew inner w) else none
  | .ref x =>
      if w.live x then
        some (gObjectRef x (w.modify x fun c => { c with held := c.held + 1 }))
      else none
  | .unref x =>
      if w.live x ∧ 0 < (w.channel x).held then
        some (gObjectUnref x (w.modify x fun c => { c with held := c.held - 1 }))
      else none
  | .setInner y inner =>
      if w.live y ∧ inner.all w.live then some (lmChannelSetInner y inner w) else none
  | .emit x s => if w.live x then some (Graph.emit none x s w) else none
  | .next => nextHandler w

end Graph

end LmTransport.Ref
