import LmTransport.Ref.Sock

/-!
# `LmSocket`

A translation of `lm-socket.c`. The state is everything one socket can touch:
its private struct, its address, the kernel's descriptor table, the sources
attached to its main context, the lookups that may still report to it, and a
log of what it did, which no function reads.

Signals are where control leaves the file. `g_signal_emit` runs handlers the
socket knows nothing about, and those may call back into the socket before the
function that emitted goes on. So an emission ends the function here and
pushes a frame, which is the rest of that function; while a frame is on the
stack, control is with user code, and when the handlers of the innermost
emission are done its frame is resumed. Nothing bounds what handlers do, and
the calls a handler makes nest like any others.

The main loop runs callbacks only when the stack is empty: handlers do not
iterate it themselves. It polls, and dispatches the sources it found ready one
after the other, each unless it was destroyed in the meantime. Nobody looks at
the descriptors again before the next poll, so a callback may be told of a
readiness that is gone, or of one that another descriptor with the same number
had.

`step` is the whole machine, with one label for each thing that can happen.
Labels carry the answers of the outside world: what `socket()` and `connect()`
returned in each attempt, how a lookup ended, what an uninitialised variable
held.
-/

namespace LmTransport.Ref

/-! ## The private struct

A watch is known by the number of its source. `sa_iter` is `NULL` or the one
iterator of the address, so a flag is enough; `handle` is zero in a fresh
socket because GLib zeroes private data. -/

structure IOWatches where
  inWatch : Option Nat := none
  outWatch : Option Nat := none
  errWatch : Option Nat := none
  hupWatch : Option Nat := none
deriving DecidableEq, Repr

structure LmSocketPriv where
  handle : Int := 0
  ioChannel : Option GIOChannel := none
  watches : IOWatches := {}
  connected : Bool := false
  resolver : Option Nat := none
  saIter : Bool := false
deriving DecidableEq, Repr

inductive LmSocketConnectResult where
  | ok
  | failedDns
  | failedTriedAll
deriving DecidableEq, Repr

inductive LmChannelCloseReason where
  | requested
  | hup
  | ioError
deriving DecidableEq, Repr

inductive Signal where
  | connectResult (result : LmSocketConnectResult)
  | opened
  | readable
  | writeable
  | closed (reason : LmChannelCloseReason)
deriving DecidableEq, Repr

/-! ## Frames

`Caller` is where control returns to once the function is over: user code, the
resolver, or the main loop, which destroys the source of a callback that
returned `FALSE`. A `Frame` is what is left to do after the handlers of one
emission. The frame of a `closed` emission also remembers the channel that was
being closed; no code reads it, it is there to be stated about. -/

inductive Caller where
  | api
  | lookup
  | watch (src : Nat) (keep : Bool)
deriving DecidableEq, Repr

inductive Frame where
  | connectResult (result : LmSocketConnectResult) (k : Caller)
  | opened (k : Caller)
  | io (k : Caller)
  | closed (closing : Option GIOChannel) (k : Caller)
deriving DecidableEq, Repr

/-- Where control goes when the handlers of the emission are done. -/
def Frame.caller : Frame → Caller
  | .connectResult _ k => k
  | .opened k => k
  | .io k => k
  | .closed _ k => k

inductive Event where
  | connectCall
  | resultIter (results : List AddrInfo)
  | attempt (addr : AddrInfo)
  | socket (fd : Int)
  | close (fd : Int)
  | emit (s : Signal)
  | callbackAfterFinalize
deriving DecidableEq, Repr

/-- A source that the last poll found ready, and what its descriptor stood for
then. No code reads the file. -/
structure Found where
  src : Nat
  file : Nat
deriving DecidableEq, Repr

structure World where
  priv : LmSocketPriv := {}
  sa : LmSocketAddress
  kernel : Kernel := {}
  ctx : GMainContext := {}
  found : List Found := []
  nextChannel : Nat := 0
  lookups : List Nat := []
  nextLookup : Nat := 0
  stack : List Frame := []
  finalized : Bool := false
  log : List Event := []

def lmSocketNew (sa : LmSocketAddress) : World := { sa }

def World.note (w : World) (e : Event) : World := { w with log := w.log ++ [e] }

/-- `g_signal_emit`, up to the point where the handlers run. -/
def World.emit (w : World) (s : Signal) (f : Frame) : World :=
  { w with log := w.log ++ [.emit s], stack := f :: w.stack }

def returnTo (k : Caller) (w : World) : World :=
  match k with
  | .watch src false => { w with ctx := w.ctx.destroy src }
  | _ => w

def socketEmitConnectResult (result : LmSocketConnectResult) (k : Caller) (w : World) :
    World :=
  w.emit (.connectResult result) (.connectResult result k)

/-! ## Tearing down -/

def socketDisconnectWatch (ctx : GMainContext) (watch : Option Nat) : GMainContext :=
  match watch with
  | none => ctx
  | some id => ctx.destroy id

def socketDisconnectIoWatches (w : World) : World :=
  let ctx := socketDisconnectWatch w.ctx w.priv.watches.inWatch
  let ctx := socketDisconnectWatch ctx w.priv.watches.outWatch
  let ctx := socketDisconnectWatch ctx w.priv.watches.errWatch
  let ctx := socketDisconnectWatch ctx w.priv.watches.hupWatch
  { w with ctx, priv := { w.priv with watches := {} } }

/-- `_lm_sock_close (priv->handle); priv->handle = 0;`. -/
def socketCloseHandle (w : World) : World :=
  { w with
    kernel := lmSockClose w.kernel w.priv.handle
    priv := { w.priv with handle := 0 }
    log := w.log ++ [.close w.priv.handle] }

def socketReset (w : World) : World :=
  let w := { w with priv := { w.priv with connected := false, saIter := false } }
  let w :=
    match w.priv.ioChannel with
    | none => w
    | some _ =>
        let w := socketDisconnectIoWatches w
        { w with priv := { w.priv with ioChannel := none } }
  socketCloseHandle w

/-- `socket_emit_disconnected_and_cleanup`, up to the emission. The reset that
follows it is in `resume`. -/
def socketEmitDisconnectedAndCleanup (reason : LmChannelCloseReason) (k : Caller)
    (w : World) : World :=
  w.emit (.closed reason) (.closed w.priv.ioChannel k)

def socketClose (w : World) : World :=
  socketEmitDisconnectedAndCleanup .requested .api w

/-! ## Connecting

`SysCalls` is what the system calls of one attempt return. `os` lists those of
a whole call, one entry an attempt; a list that is too short or too long is not
a behaviour of the call and gives `none`. -/

structure SysCalls where
  socket : Int
  connect : Int
  errno : Int
deriving DecidableEq, Repr

/-- `connect()` failed in a way the attempt does not wait for. -/
def SysCalls.refused (o : SysCalls) : Bool :=
  o.connect < 0 && !lmSockIsBlockingError o.errno

/-- The branch taken calls neither `socket()` nor `connect()`. -/
def noCalls (os : List SysCalls) (w : World) : Option World :=
  if os.isEmpty then some w else none

def socketWatchAttempt (w : World) : World :=
  let channel : GIOChannel := ⟨w.nextChannel, w.priv.handle⟩
  let outWatch := lmMiscAddIoWatch w.ctx (some channel) .out
  let errWatch := lmMiscAddIoWatch outWatch.2 (some channel) .err
  { w with
    ctx := errWatch.2
    nextChannel := w.nextChannel + 1
    priv :=
      { w.priv with
        ioChannel := some channel
        watches := { w.priv.watches with outWatch := outWatch.1, errWatch := errWatch.1 } } }

def socketAttemptConnect (addr : AddrInfo) (o : SysCalls) (w : World) :
    Option (Bool × World) :=
  match w.kernel.socket addr o.socket with
  | none => none
  | some kernel =>
      let w := { w with kernel, priv := { w.priv with handle := o.socket } }
      let w := w.note (.attempt addr)
      if !lmSockValid o.socket then
        some (false, w)
      else
        let w := socketWatchAttempt (w.note (.socket o.socket))
        let w := { w with kernel := w.kernel.connect o.socket o.connect o.errno }
        if o.refused then
          some (false, socketCloseHandle w)
        else
          some (true, w)

/-- `lm_socket_address_iter_get_next (priv->sa_iter)`, which steps the iterator
stored in the address. -/
def socketIterGetNext (w : World) : Option AddrInfo × World :=
  match w.sa.resultsIter with
  | none => (none, w)
  | some iter =>
      let next := lmSocketAddressIterGetNext iter
      (next.1, { w with sa := { w.sa with resultsIter := some next.2 } })

/-- The `while (TRUE)` of `socket_attempt_connect_next`. -/
def socketAttemptLoop (k : Caller) : List SysCalls → World → Option World
  | os, w =>
      match socketIterGetNext w with
      | (none, w) => noCalls os (socketEmitConnectResult .failedTriedAll k w)
      | (some addr, w) =>
          match os with
          | [] => none
          | o :: os =>
              match socketAttemptConnect addr o w with
              | none => none
              | some (false, w) => socketAttemptLoop k os w
              | some (true, w) => noCalls os (returnTo k w)

def socketGetIter (w : World) : World :=
  if w.priv.saIter then w
  else
    { w with
      sa := lmSocketAddressGetResultIter w.sa
      priv := { w.priv with saIter := true }
      log := w.log ++ [.resultIter w.sa.results] }

def socketAttemptConnectNext (k : Caller) (os : List SysCalls) (w : World) :
    Option World :=
  socketAttemptLoop k os (socketGetIter w)

def lmSocketConnect (os : List SysCalls) (w : World) : Option World :=
  let w := w.note .connectCall
  if !lmSocketAddressIsResolved w.sa then
    noCalls os
      { w with
        lookups := w.lookups ++ [w.nextLookup]
        nextLookup := w.nextLookup + 1
        priv := { w.priv with resolver := some w.nextLookup } }
  else socketAttemptConnectNext .api os w

/-- A lookup reports: the resolver stores the results of a successful one in
the address, then emits `finished`. -/
def socketResolverFinishedCb (ans : Option (List AddrInfo)) (os : List SysCalls)
    (w : World) : Option World :=
  match ans with
  | none => noCalls os (socketEmitConnectResult .failedDns .lookup w)
  | some ai =>
      socketAttemptConnectNext .lookup os
        { w with sa := lmSocketAddressSetResults w.sa ai }

/-! ## The watch callbacks -/

def socketInCb (src : Nat) (w : World) : World :=
  w.emit .readable (.io (.watch src true))

def socketWatchConnection (w : World) : World :=
  let inWatch := lmMiscAddIoWatch w.ctx w.priv.ioChannel .inn
  let hupWatch := lmMiscAddIoWatch inWatch.2 w.priv.ioChannel .hup
  { w with
    ctx := hupWatch.2
    priv :=
      { w.priv with
        watches := { w.priv.watches with inWatch := inWatch.1, hupWatch := hupWatch.1 } } }

def socketOutCb (src : Nat) (w : World) : World :=
  if w.priv.connected then
    w.emit .writeable (.io (.watch src true))
  else
    let w := socketWatchConnection w
    let w := { w with priv := { w.priv with connected := true } }
    socketEmitConnectResult .ok (.watch src true) w

def socketErrCb (src : Nat) (garbage : Int) (os : List SysCalls) (w : World) :
    Option World :=
  if !w.priv.connected then
    let err := lmSockGetError w.kernel w.priv.handle garbage
    let w := { w with kernel := err.2 }
    if !lmSockIsBlockingError err.1 then
      socketAttemptConnectNext (.watch src false) os w
    else noCalls os w
  else
    noCalls os (socketEmitDisconnectedAndCleanup .ioError (.watch src false) w)

def socketHupCb (src : Nat) (w : World) : World :=
  socketEmitDisconnectedAndCleanup .hup (.watch src false) w

/-- The callback `socket_attempt_connect` and `socket_out_cb` install for each
condition. -/
def socketWatchCb (s : GSource) (garbage : Int) (os : List SysCalls) (w : World) :
    Option World :=
  match s.condition with
  | .inn => noCalls os (socketInCb s.id w)
  | .out => noCalls os (socketOutCb s.id w)
  | .err => socketErrCb s.id garbage os w
  | .hup => noCalls os (socketHupCb s.id w)

/-! ## The machine -/

/-- The rest of a function once the handlers of its emission are done. -/
def resume (f : Frame) (w : World) : World :=
  match f with
  | .connectResult .ok k => w.emit .opened (.opened k)
  | .connectResult .failedDns k => returnTo k w
  | .connectResult .failedTriedAll k => returnTo k w
  | .opened k => returnTo k w
  | .io k => returnTo k w
  | .closed _ k => returnTo k (socketReset w)

def socketFinalize (w : World) : World := { socketReset w with finalized := true }

inductive Label where
  | connect (os : List SysCalls)
  | close
  | finalize
  | handlersDone
  | lookupDone (id : Nat) (ans : Option (List AddrInfo)) (os : List SysCalls)
  | poll (found : List Found)
  | dispatch (src : Nat) (garbage : Int) (os : List SysCalls)
  | connectDone (fd err : Int)
  | connectionError (fd err : Int)
deriving DecidableEq, Repr

/-- A lookup that has not reported yet does, on a live socket or on one that is
gone: nothing disconnects its handler. -/
def reportLookup (id : Nat) (ans : Option (List AddrInfo)) (os : List SysCalls)
    (w : World) : Option World :=
  if id ∈ w.lookups ∧ w.stack = [] then
    let w := { w with lookups := w.lookups.erase id }
    if w.finalized then noCalls os (w.note .callbackAfterFinalize)
    else socketResolverFinishedCb ans os w
  else none

def World.finds (w : World) (f : Found) : Bool :=
  (w.ctx.find f.src).any fun s =>
    w.kernel.ready s.channel.fd s.condition && w.kernel.fds s.channel.fd == some f.file

/-- What the last poll found has been dispatched or destroyed, and the main loop
polls again. -/
def pollWatches (found : List Found) (w : World) : Option World :=
  if w.stack = [] ∧ (∀ f ∈ w.found, w.ctx.find f.src = none) ∧ ∀ f ∈ found, w.finds f then
    some { w with found }
  else none

/-- A source is dispatched once for each poll that found it. -/
def World.take (w : World) (src : Nat) : World :=
  { w with found := w.found.filter fun f => f.src != src }

/-- The main loop dispatches a source that was ready when it polled and is
still attached. -/
def dispatchWatch (src : Nat) (garbage : Int) (os : List SysCalls) (w : World) :
    Option World :=
  match w.ctx.find src with
  | none => none
  | some s =>
      if (∃ f ∈ w.found, f.src = src) ∧ w.stack = [] then
        let w := w.take src
        if w.finalized then noCalls os (w.note .callbackAfterFinalize)
        else socketWatchCb s garbage os w
      else none

/-- One event of a run. Calls into the socket need a caller that holds a
reference, so there are none after finalization, which itself waits for every
call to return. -/
def step (w : World) : Label → Option World
  | .connect os => if w.finalized then none else lmSocketConnect os w
  | .close => if w.finalized then none else some (socketClose w)
  | .finalize => if w.finalized ∨ w.stack ≠ [] then none else some (socketFinalize w)
  | .handlersDone =>
      match w.stack with
      | [] => none
      | f :: rest => some (resume f { w with stack := rest })
  | .lookupDone id ans os => reportLookup id ans os w
  | .poll found => pollWatches found w
  | .dispatch src garbage os => dispatchWatch src garbage os w
  | .connectDone fd err =>
      (w.kernel.connectDone fd err).map fun kernel => { w with kernel }
  | .connectionError fd err =>
      (w.kernel.connectionError fd err).map fun kernel => { w with kernel }

/-! ## A socket in its process

Two things the process adds to what a socket does by itself.

The last reference may go while handlers run: a handler drops the one its
caller held, and only the reference of `g_signal_emit` is left, which goes with
the outermost emission. `socket_finalize` runs at that point, and what the
function that emitted still does with the socket it does to freed memory. Only
what it returns to the main loop is left of it here.

And a number that was closed is not gone. Any part of the process may get it
from `socket()`, and a source that polls the number then polls the new
descriptor. -/

namespace Process

inductive Label where
  | socket (l : Ref.Label)
  | lastUnref
  | openOther (addr : AddrInfo) (fd : Int)
deriving DecidableEq, Repr

/-- The handlers of the outermost emission are done, and with them the last
reference. -/
def lastUnref (w : World) : Option World :=
  match w.stack with
  | [f] =>
      if w.finalized then none
      else some (returnTo f.caller (socketFinalize { w with stack := [] }))
  | _ => none

/-- Another part of the process opens `fd` and connects it. -/
def openOther (addr : AddrInfo) (fd : Int) (w : World) : Option World :=
  if lmSockValid fd then
    (w.kernel.socket addr fd).map fun kernel =>
      { w with
        kernel := { kernel.connect fd 0 0 with others := w.kernel.objs.length :: kernel.others } }
  else none

def step (w : World) : Label → Option World
  | .socket l => Ref.step w l
  | .lastUnref => lastUnref w
  | .openOther addr fd => openOther addr fd w

end Process

/-! ## Two sockets with one address

`lm_socket_new` takes a reference to the address it is given, so two sockets
may hold the same one, and with it the same result list and the same iterator.
They also live in one process, over one descriptor table. What is private to
each is the rest of its world.

The state is the two worlds, kept in agreement on what they share. No order is
imposed on their events beyond what each socket imposes on its own, so the
interleavings include all those of a main loop. -/

inductive Side where
  | left
  | right
deriving DecidableEq, Repr

structure Duo where
  left : World
  right : World

/-- The other socket sees what a step did to the shared parts. -/
def World.sharing (v w : World) : World := { v with sa := w.sa, kernel := w.kernel }

def duoNew (sa : LmSocketAddress) : Duo := ⟨lmSocketNew sa, lmSocketNew sa⟩

def Duo.active (d : Duo) : Side → World
  | .left => d.left
  | .right => d.right

def Duo.other (d : Duo) : Side → World
  | .left => d.right
  | .right => d.left

/-- One event of one of the sockets. -/
def duoStep (d : Duo) : Side × Label → Option Duo
  | (.left, l) => (step d.left l).map fun w => ⟨w, d.right.sharing w⟩
  | (.right, l) => (step d.right l).map fun w => ⟨d.left.sharing w, w⟩

end LmTransport.Ref
