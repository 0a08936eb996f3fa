import LmTransport.Ref.GnutlsChannel

/-!
# Reading and writing through a stack of channels

`lm_channel_read` and `lm_channel_write` call the method of the channel's class,
and there are three of each: a socket's goes to its `io_channel`, the default
one to the inner channel, and that of a TLS channel to GnuTLS or to the inner
channel. Innermost is a socket.

None of them changes anything that a read or a write looks at, so a stack is
the state it is called in, and the result is what the call returns. What the
`io_channel` or GnuTLS answers comes in with the call, at the one channel it
reaches. The reads and writes GnuTLS makes over the transport callbacks go to
the inner channels as well, but only what GnuTLS makes of them comes back.
-/

namespace LmTransport.Ref

open Gnutls (Ending ReadResult WriteResult RecvCall SendCall gnutlsChannelRead
  gnutlsChannelWrite)

inductive ChannelStack where
  | socket (w : World)
  | passThrough (inner : ChannelStack)
  | gnutls (w : Gnutls.World) (inner : ChannelStack)

/-- Where a call ends up, and what it is answered there. -/
inductive Leaf (ρ κ : Type) where
  | ioChannel (r : ρ)
  | noChannel
  | gnutls (calls : List κ)
deriving DecidableEq, Repr

/-! ## Reading -/

def socketRead (w : World) (a : Leaf ReadResult RecvCall) : Option (Ending ReadResult) :=
  match w.priv.ioChannel, a with
  | none, .noChannel => some (.returns ⟨.eof, none, []⟩)
  | some _, .ioChannel r => some (.returns r)
  | _, _ => none

/-- `out` is whether `bytes_read` is not `NULL`. The method of the class is
`socket_read`, `channel_default_read` or `gnutls_channel_read`. -/
def lmChannelRead (count : Nat) (out : Bool) (a : Leaf ReadResult RecvCall) :
    ChannelStack → Option (Ending ReadResult)
  | .socket w => socketRead w a
  | .passThrough inner => lmChannelRead count out a inner
  | .gnutls w inner =>
      if w.priv.isEncrypted then
        match a with
        | .gnutls calls => (gnutlsChannelRead count out (.gnutls calls) w).map (·.1)
        | _ => none
      else
        match lmChannelRead count out a inner with
        | some (.returns r) => (gnutlsChannelRead count out (.inner r) w).map (·.1)
        | other => other

/-! ## Writing

What a write submits is a pointer and a length, and the two interfaces do not
mean the same by them. `buf` is the memory from the pointer to the end of the
object it points into. -/

inductive Submitted where
  | writeChars (buf : List UInt8) (count : Int)
  | recordSend (buf : List UInt8) (n : Nat)
deriving DecidableEq, Repr

/-- The bytes. A length that goes past the object has none. -/
def Submitted.bytes : Submitted → Option (List UInt8)
  | .writeChars buf count =>
      -- "If -1, the buffer is taken to be a nul-terminated string."
      if count < 0 then some (buf.takeWhile (· != 0))
      else if count.toNat ≤ buf.length then some (buf.take count.toNat)
      else none
  | .recordSend buf n => if n ≤ buf.length then some (buf.take n) else none

structure WriteOutcome where
  ending : Ending WriteResult
  submitted : List Submitted
deriving DecidableEq, Repr

def socketWrite (w : World) (buf : List UInt8) (count : Int) (a : Leaf WriteResult SendCall) :
    Option WriteOutcome :=
  match w.priv.ioChannel, a with
  | none, .noChannel => some ⟨.returns ⟨.eof, none⟩, []⟩
  | some _, .ioChannel r => some ⟨.returns r, [.writeChars buf count]⟩
  | _, _ => none

/-- What the channel has passed to `gnutls_record_send`. -/
def sent (log : List Gnutls.Event) : List Submitted :=
  log.filterMap fun
    | .send _ buf n => some (.recordSend buf n)
    | _ => none

/-- The method is `socket_write`, `channel_default_write` or
`gnutls_channel_write`. -/
def lmChannelWrite (buf : List UInt8) (count : Int) (out : Bool)
    (a : Leaf WriteResult SendCall) : ChannelStack → Option WriteOutcome
  | .socket w => socketWrite w buf count a
  | .passThrough inner => lmChannelWrite buf count out a inner
  | .gnutls w inner =>
      if w.priv.isEncrypted then
        match a with
        | .gnutls calls =>
            (gnutlsChannelWrite buf count out (.gnutls calls) w).map fun (ending, w') =>
              ⟨ending, sent (w'.log.drop w.log.length)⟩
        | _ => none
      else
        match lmChannelWrite buf count out a inner with
        | some ⟨.returns r, submitted⟩ =>
            (gnutlsChannelWrite buf count out (.inner r) w).map fun (ending, _) =>
              ⟨ending, submitted⟩
        | other => other

end LmTransport.Ref
