import LmTransport.Lib.Interaction
import LmTransport.Ref.ChannelStack

/-!
# TLS input and output over an inner channel

The retry loops of `gnutls_channel_read` and `gnutls_channel_write` take the
calls of GnuTLS as they come. Here the calls come about: GnuTLS is a record
layer that asks for the transport callbacks, which read and write the inner
channel and turn its status into what `recv` and `send` would return, and
`errno` is what the inner channel left it at.

The inner channel is whatever answers, with a state of its own. It keeps to the
lengths it was given. What is assumed of GnuTLS is what it documents about
callbacks that would block.
-/

namespace LmTransport.Ref.TlsIo

open Interaction (Prog Path)
open Gnutls (TransportCall RecvCall SendCall eAgain eInterrupted toGsize gnutlsChannelPullFunc
  gnutlsChannelPushFunc gnutlsChannelRead gnutlsChannelWrite)

inductive Errno where
  | eagain
  | eintr
  | other
deriving DecidableEq, Repr

/-! ## The transport callbacks -/

inductive Callback where
  | pull (count : Nat)
  | push (buf : List UInt8)
deriving DecidableEq, Repr

/-- What `lm_channel_read` or `lm_channel_write` gives the callback. A read has
no `bytesWritten` and a write no `bytes`. -/
structure InnerAnswer where
  status : GIOStatus
  errno : Errno := .other
  bytes : List UInt8 := []
  bytesWritten : Nat := 0
deriving DecidableEq, Repr

/-- What the callback gives GnuTLS. -/
structure CallbackResult where
  ret : Int
  errno : Errno
  bytes : List UInt8
deriving DecidableEq, Repr

def callbackResult : Callback → InnerAnswer → CallbackResult
  | .pull _, a => ⟨gnutlsChannelPullFunc a.status a.bytes.length, a.errno, a.bytes⟩
  | .push _, a => ⟨gnutlsChannelPushFunc a.status a.bytesWritten, a.errno, []⟩

def transportCall : Callback × InnerAnswer → TransportCall
  | (.pull count, a) => .pull count a.status a.bytes
  | (.push buf, a) => .push buf a.status a.bytesWritten

def Callback.length : Callback → Nat
  | .pull count => count
  | .push buf => buf.length

def InnerAnswer.Fits (c : Callback) (a : InnerAnswer) : Prop :=
  a.bytes.length ≤ c.length ∧ a.bytesWritten ≤ c.length

structure InnerChannel (ε : Type) where
  transfer : Callback → ε → InnerAnswer × ε
  fits : ∀ c e, InnerAnswer.Fits c (transfer c e).1

/-! ## GnuTLS -/

/-- What `gnutls_record_recv` or `gnutls_record_send` returns, with the data
received and the session it leaves. -/
structure Return (σ : Type) where
  ret : Int
  data : List UInt8
  session : σ

structure RecordLayer (σ : Type) where
  recv : Nat → σ → Prog Callback CallbackResult (Return σ)
  send : List UInt8 → Nat → σ → Prog Callback CallbackResult (Return σ)

/-- The callback would block, or its push was interrupted or accepted
nothing. -/
def Blocked : Callback → CallbackResult → Prop
  | .pull _, r => r.ret = -1 ∧ (r.errno = .eagain ∨ r.errno = .eintr)
  | .push _, r => r.ret = 0 ∨ r.ret = -1 ∧ (r.errno = .eagain ∨ r.errno = .eintr)

/-- Results that callbacks can have. -/
def Possible (trace : List (Callback × CallbackResult)) : Prop :=
  ∀ x ∈ trace, -1 ≤ x.2.ret ∧ x.2.ret ≤ x.1.length

def WantsAgain (ret : Int) : Prop := ret = eAgain ∨ ret = eInterrupted

instance (ret : Int) : Decidable (WantsAgain ret) := inferInstanceAs (Decidable (_ ∨ _))

/-- `GNUTLS_E_AGAIN` or `GNUTLS_E_INTERRUPTED` is returned when a callback would
block. It may be returned without, too: for a record that has nothing for the
reader in it, such as a session ticket. Everything that is returned is an error
code or the length of a record. -/
structure Signals (trace : List (Callback × CallbackResult)) (ret : Int) : Prop where
  again : (∃ x ∈ trace, Blocked x.1 x.2) → WantsAgain ret
  bounds : -2 ^ 31 ≤ ret ∧ ret < 2 ^ 31

structure RecordLayer.Documented {σ : Type} (g : RecordLayer σ) : Prop where
  recv : ∀ count s trace r, Path (g.recv count s) trace r → Possible trace → Signals trace r.ret
  send : ∀ buf count s trace r, Path (g.send buf count s) trace r → Possible trace →
    Signals trace r.ret

/-! ## The calls of the loops -/

/-- One call of GnuTLS, with the transfers of the inner channel on the way. -/
structure Call (σ : Type) where
  transfers : List (Callback × InnerAnswer)
  result : Return σ

def Call.recvCall {σ : Type} (c : Call σ) : RecvCall where
  io := c.transfers.map transportCall
  ret := c.result.ret
  data := c.result.data

def Call.sendCall {σ : Type} (c : Call σ) : SendCall where
  io := c.transfers.map transportCall
  ret := c.result.ret

section
variable {σ ε : Type} (g : RecordLayer σ) (inner : InnerChannel ε)

/-- A program of the record layer over the inner channel. -/
def call (p : Prog Callback CallbackResult (Return σ)) (e : ε) : Call σ × (σ × ε) :=
  let r := Interaction.run callbackResult inner.transfer p e
  (⟨r.1, r.2.1⟩, (r.2.1.session, r.2.2))

/-- The calls go on from where the last one left the session and the inner
channel. -/
def recvRound (count : Nat) (s : σ × ε) : Call σ × (σ × ε) :=
  call inner (g.recv count s.1) s.2

def sendRound (buf : List UInt8) (count : Int) (s : σ × ε) : Call σ × (σ × ε) :=
  call inner (g.send buf (toGsize count) s.1) s.2

/-- With the first `n` calls `gnutls_channel_read` returns. -/
def ReadReturns (count : Nat) (w : Gnutls.World) (s : σ × ε) : Prop :=
  ∃ n r w', gnutlsChannelRead count true
    (.gnutls ((Interaction.rounds (recvRound g inner count) n s).map Call.recvCall)) w =
      some (.returns r, w')

def WriteReturns (buf : List UInt8) (count : Int) (w : Gnutls.World) (s : σ × ε) : Prop :=
  ∃ n r w', gnutlsChannelWrite buf count true
    (.gnutls ((Interaction.rounds (sendRound g inner buf count) n s).map Call.sendCall)) w =
      some (.returns r, w')

end

end LmTransport.Ref.TlsIo
