import LmTransport.Lib.Pipe
import LmTransport.Ref.GnutlsChannel

/-!
# Buffered output of the old socket

The part of `lm-old-socket.c` that writes. With an open channel the socket has
two modes: as long as `out_buf` is `NULL` a write goes to the channel at once,
and what the channel does not take makes the buffer and a watch that drains it.
While there is a buffer, writes are appended to it.

Lengths change their type on the way, from `gsize` to `guint` for
`old_socket_do_write` and to `gint` everywhere else, and a `GString` function
that is given a negative length takes the buffer for a C string.

The channel answers each call as it likes. A run of `old_socket_do_write` that
has not come to its end leaves the world in `Control.writing`, where nothing
else happens. While the handlers of `disconnected` run they may write, but the
source that is being dispatched is not dispatched again.
-/

namespace LmTransport.Ref.OldSocket

open Gnutls (toGint toGsize)

/-- What buffered output uses of it. The channel is open. -/
structure LmOldSocketPriv where
  ioChannel : GIOChannel
  watchOut : Option Nat := none
  outBuf : Option (List UInt8) := none
deriving DecidableEq, Repr

/-- Where the thread of the socket is: in its main loop, in a call of
`old_socket_do_write`, or in the handlers of `disconnected`, called by the
callback of this source. -/
inductive Control where
  | mainLoop
  | writing
  | emitting (source : Nat)
deriving DecidableEq, Repr

/-- `context` holds the sources that call `socket_buffered_write_cb` with this
socket. The last three are the history: the data passed to `old_socket_write`,
the bytes the channel accepted, and whether a call has returned
`G_IO_STATUS_ERROR` or `G_IO_STATUS_EOF`. -/
structure World where
  priv : LmOldSocketPriv
  context : GMainContext
  control : Control := .mainLoop
  passed : List UInt8 := []
  accepted : List UInt8 := []
  failed : Bool := false
deriving DecidableEq, Repr

/-- What `g_io_channel_write_chars` returns. Bytes may have been accepted
whatever the status is. -/
structure Answer where
  status : GIOStatus
  bytesWritten : Nat
deriving DecidableEq, Repr

def Answer.fails (answer : Answer) : Bool :=
  answer.status == .error || answer.status == .eof

def gIoChannelWriteChars (buf : List UInt8) (answer : Answer) (w : World) : World :=
  { w with
    accepted := w.accepted ++ buf.take answer.bytesWritten
    failed := w.failed || answer.fails }

/-- The bytes `g_string_new_len` and `g_string_append_len` copy. `beyond` is the
memory behind the buffer. -/
def stringBytes (buf beyond : List UInt8) (len : Int) : List UInt8 :=
  if len < 0 then (buf ++ beyond).takeWhile (· != 0) else buf.take len.toNat

/-- `while (io_status == G_IO_STATUS_AGAIN)`, with the answers there are so far.
`none` has not returned yet. -/
def oldSocketDoWrite (buf : List UInt8) : List Answer → World → Option Int × World
  | [], w => (none, w)
  | answer :: answers, w =>
      let w := gIoChannelWriteChars buf answer w
      match answer.status with
      | .again => oldSocketDoWrite buf answers w
      | .normal => (some (toGint answer.bytesWritten), w)
      | .error => (some (-1), w)
      | .eof => (some (-1), w)

def oldSocketOutputIsBuffered (buffer beyond : List UInt8) (len : Int) (w : World) :
    Bool × World :=
  match w.priv.outBuf with
  | none => (false, w)
  | some outBuf =>
      (true,
        { w with priv := { w.priv with outBuf := some (outBuf ++ stringBytes buffer beyond len) } })

def oldSocketSetupOutputBuffer (buffer beyond : List UInt8) (len : Int) (w : World) : World :=
  let watch := lmMiscAddIoWatch w.context (some w.priv.ioChannel) .out
  { w with
    context := watch.2
    priv := { w.priv with outBuf := some (stringBytes buffer beyond len), watchOut := watch.1 } }

/-- The conversion to `guint` is in the call. -/
def oldSocketWrite (buf beyond : List UInt8) (answers : List Answer) (w : World) : World :=
  let w := { w with passed := w.passed ++ buf }
  match oldSocketOutputIsBuffered buf beyond (toGint buf.length) w with
  | (true, w) => w
  | (false, w) =>
      match oldSocketDoWrite (buf.take (buf.length % 2 ^ 32)) answers w with
      | (none, w) => { w with control := .writing }
      | (some bWritten, w) =>
          if toGsize bWritten < buf.length ∧ bWritten ≠ -1 then
            oldSocketSetupOutputBuffer (buf.drop bWritten.toNat) beyond
              (toGint (buf.length - toGsize bWritten)) w
          else w

/-- What the callback returns, if it has returned. -/
def socketBufferedWriteCb (source : Nat) (answers : List Answer) (w : World) :
    Option Bool × World :=
  match w.priv.outBuf with
  | none => (some false, w) -- "Should not be possible"
  | some outBuf =>
      match oldSocketDoWrite (outBuf.take (outBuf.length % 2 ^ 32)) answers w with
      | (none, w) => (none, { w with control := .writing })
      | (some bWritten, w) =>
          if bWritten < 0 then (none, { w with control := .emitting source })
          else
            let outBuf := outBuf.drop bWritten.toNat
            if outBuf.length = 0 then
              let context :=
                match w.priv.watchOut with
                | none => w.context
                | some watchOut => w.context.destroy watchOut
              (some false,
                { w with context, priv := { w.priv with watchOut := none, outBuf := none } })
            else (some true, { w with priv := { w.priv with outBuf := some outBuf } })

/-- A source whose callback returns `FALSE` is destroyed. -/
def gMainContextDispatch (source : Nat) (answers : List Answer) (w : World) : World :=
  match socketBufferedWriteCb source answers w with
  | (some false, w) => { w with context := w.context.destroy source }
  | (_, w) => w

/-! ## Runs -/

inductive Label where
  | write (data beyond : List UInt8) (answers : List Answer)
  | dispatch (source : Nat) (answers : List Answer)
  | handlersDone
deriving DecidableEq, Repr

/-- The answers to the calls one loop makes with `count` bytes: no more bytes
are accepted than were offered, and after an answer other than
`G_IO_STATUS_AGAIN` there is no further call. -/
def AnswersTo (count : Nat) (answers : List Answer) : Prop :=
  (∀ answer ∈ answers, answer.bytesWritten ≤ count) ∧
    ∀ answer ∈ answers.dropLast, answer.status = .again

instance (count : Nat) (answers : List Answer) : Decidable (AnswersTo count answers) :=
  inferInstanceAs (Decidable (_ ∧ _))

/-- The data of one write is an object in memory. -/
def step (w : World) : Label → Option World
  | .write data beyond answers =>
      if w.control ≠ .writing ∧ data.length < 2 ^ 63 ∧ AnswersTo (data.length % 2 ^ 32) answers then
        some (oldSocketWrite data beyond answers w)
      else none
  | .dispatch source answers =>
      if w.control = .mainLoop ∧ (w.context.find source).isSome = true ∧
          AnswersTo ((w.priv.outBuf.getD []).length % 2 ^ 32) answers then
        some (gMainContextDispatch source answers w)
      else none
  | .handlersDone =>
      match w.control with
      | .emitting source =>
          some { w with control := .mainLoop, context := w.context.destroy source }
      | _ => none

/-- Nothing has been written yet. -/
def World.Start (w : World) : Prop :=
  w.priv.outBuf = none ∧ w.context.sources = [] ∧ w.control = .mainLoop ∧ w.passed = [] ∧
    w.accepted = [] ∧ w.failed = false

end LmTransport.Ref.OldSocket
