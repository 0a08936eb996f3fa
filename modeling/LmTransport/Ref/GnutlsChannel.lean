import LmTransport.Ref.Socket
import Mathlib.Algebra.Group.Int.Defs
import Mathlib.Algebra.Group.Nat.Defs

/-!
# `LmGnuTLSChannel`

A translation of `lm-gnutls-channel.c`, with the two properties of
`lm-secure-channel.c` it reads and writes. GnuTLS is outside: what it answers
comes in with each call, together with what it did over the transport
callbacks meanwhile, and all the channel does with it is in the log. A session
is the number of the `gnutls_init` that made it, so a pointer that is kept
after `gnutls_deinit` names a session that is gone.

The inner channel is outside as well. It emits `closed` from within
`lm_channel_close`, and handlers may call the channel back from there; that is
the last thing the channel does in its own close, so the calls of the handlers
are like calls made after it.

Two endings are not returns: a `NULL` out pointer is written through, and the
retry loops go on for as long as GnuTLS wants to be called again.
-/

namespace LmTransport.Ref.Gnutls

open LmTransport.Ref (GIOStatus LmChannelCloseReason)

/-! ## Constants -/

/-- `GNUTLS_E_INTERRUPTED`. -/
def eInterrupted : Int := -52

/-- `GNUTLS_E_AGAIN`. -/
def eAgain : Int := -28

/-- `GNUTLS_E_NO_CERTIFICATE_FOUND`. -/
def eNoCertificateFound : Int := -49

/-- `GNUTLS_CERT_INVALID`. -/
def certInvalid : UInt32 := 2

/-- `GNUTLS_CERT_REVOKED`. -/
def certRevoked : UInt32 := 32

inductive CertType where
  | unknown
  | x509
  | openpgp
deriving DecidableEq, Repr

inductive LmSSLStatus where
  | noCertFound
  | untrustedCert
  | certExpired
  | certNotActivated
  | certHostnameMismatch
  | certFingerprintMismatch
  | genericError
deriving DecidableEq, Repr

/-! ## What GnuTLS answers -/

/-- One call of a transport callback, with what the inner channel answered. -/
inductive TransportCall where
  | push (buf : List UInt8) (status : GIOStatus) (bytesWritten : Nat)
  | pull (count : Nat) (status : GIOStatus) (bytes : List UInt8)
deriving DecidableEq, Repr

/-- Everything the certificate checks ask about the peer of a session. `status`
is what the variable holds after `gnutls_certificate_verify_peers2`, set or
not; `fingerprint` is the memory from the buffer of that name on, and `beyond`
the memory after the `NUL` of the expected fingerprint. -/
structure Peer where
  rc : Int
  status : UInt32
  expirationTime : Int
  expirationNow : Int
  activationTime : Int
  activationNow : Int
  certType : CertType
  certList : Bool
  importRc : Int
  checkHostname : String → Bool
  fingerprintRc : Int
  fingerprint : List UInt8
  digestSize : Nat
  beyond : List UInt8

/-- A call of `gnutls_handshake`, and what the checks will find after it. -/
structure Handshake where
  io : List TransportCall
  ret : Int
  peer : Peer

/-- A call of `gnutls_record_recv`. -/
structure RecvCall where
  io : List TransportCall
  ret : Int
  data : List UInt8
deriving DecidableEq, Repr

/-- A call of `gnutls_record_send`. -/
structure SendCall where
  io : List TransportCall
  ret : Int
deriving DecidableEq, Repr

/-! ## The channel -/

structure LmGnuTLSChannelPriv where
  gnutlsSession : Option Nat := none
  isEncrypted : Bool := false
deriving DecidableEq, Repr

/-- String properties, without their `NUL`. -/
structure LmSecureChannelPriv where
  expectedFingerprint : Option (List UInt8) := none
  fingerprint : Option (List UInt8) := none
deriving DecidableEq, Repr

/-- Who handed a buffer to the inner channel's write. The push callback tells
GnuTLS `ret`. -/
inductive Origin where
  | application
  | pushFunc (ret : Int)
deriving DecidableEq, Repr

/-- Whose read of the inner channel it was. -/
inductive Reader where
  | application
  | pullFunc (ret : Int)
deriving DecidableEq, Repr

inductive Event where
  | init (s : Option Nat)
  | handshake (s : Option Nat) (ret : Int)
  | verify (s : Option Nat) (asked : List LmSSLStatus) (ok : Bool)
  | recv (s : Option Nat) (count : Nat)
  | send (s : Option Nat) (buf : List UInt8) (count : Nat)
  | bye (s : Option Nat)
  | deinit (s : Option Nat)
  | innerRead (by_ : Reader) (bytes : List UInt8)
  | innerWrite (by_ : Origin) (buf : List UInt8) (count : Int)
  | innerClose
  | emitClosed (reason : LmChannelCloseReason)
  | freeCredentials
deriving DecidableEq, Repr

/-- A channel that has crashed, or is in a call that does not return, takes no
further calls. -/
inductive Fate where
  | running
  | finalized
  | crashed
  | spinning
deriving DecidableEq, Repr

structure World where
  priv : LmGnuTLSChannelPriv := {}
  secure : LmSecureChannelPriv := {}
  nextSession : Nat := 0
  fate : Fate := .running
  log : List Event := []
deriving DecidableEq, Repr

/-- `gnutls_channel_init` leaves `is_encrypted` unset, and nothing else the
channel reads. -/
def lmSecureChannelNew : World := {}

def World.note (w : World) (e : Event) : World := { w with log := w.log ++ [e] }

/-! ## The transport callbacks -/

def gnutlsChannelPullFunc (status : GIOStatus) (bytesRead : Nat) : Int :=
  match status with
  | .normal => bytesRead
  | .eof => 0
  | .again => -1
  | .error => -1

def gnutlsChannelPushFunc (status : GIOStatus) (bytesWritten : Nat) : Int :=
  match status with
  | .normal => bytesWritten
  | .eof => 0
  | .again => -1
  | .error => -1

def TransportCall.event : TransportCall → Event
  | .push buf status bytesWritten =>
      .innerWrite (.pushFunc (gnutlsChannelPushFunc status bytesWritten)) buf buf.length
  | .pull _ status bytes =>
      .innerRead (.pullFunc (gnutlsChannelPullFunc status bytes.length)) bytes

def World.transport (w : World) (io : List TransportCall) : World :=
  { w with log := w.log ++ io.map TransportCall.event }

/-! ## Verifying the certificate

The checks of `gnutls_channel_verify_certificate` are all of one form: if there
is a problem, ask, and return `FALSE` unless the answer is to continue. -/

/-- `gnutls_channel_request_user_cert_feedback`, which may look at what it has
been asked before. The source has a stub that always continues. -/
abbrev Feedback := List LmSSLStatus → LmSSLStatus → Bool

def alwaysContinue : Feedback := fun _ _ => true

/-- Ask about the problems that hold, in turn. The second component is what has
been asked. -/
def askInTurn (ask : Feedback) (asked : List LmSSLStatus) :
    List (Bool × LmSSLStatus) → Bool × List LmSSLStatus
  | [] => (true, asked)
  | (holds, status) :: rest =>
      if holds then
        if ask asked status then askInTurn ask (asked ++ [status]) rest
        else (false, asked ++ [status])
      else askInTurn ask asked rest

/-- `memcmp (expected_fingerprint, fingerprint, digest_size)` is not zero. -/
def fingerprintDiffers (expected : List UInt8) (peer : Peer) : Bool :=
  (expected ++ 0 :: peer.beyond).take peer.digestSize != peer.fingerprint.take peer.digestSize

/-- The checks of an X.509 certificate. -/
def x509Problems (peer : Peer) (server : String) (expected : Option (List UInt8)) :
    List (Bool × LmSSLStatus) :=
  [(!peer.certList, .noCertFound),
    (peer.importRc != 0, .noCertFound),
    (!peer.checkHostname server, .certHostnameMismatch),
    if 0 ≤ peer.fingerprintRc then
      (expected.any fun e => fingerprintDiffers e peer, .certFingerprintMismatch)
    else (true, .genericError)]

/-- All the checks, in the order of the source. -/
def certificateProblems (peer : Peer) (server : String) (expected : Option (List UInt8)) :
    List (Bool × LmSSLStatus) :=
  [(peer.rc == eNoCertificateFound, .noCertFound),
    (peer.rc != 0, .genericError),
    (peer.rc == eNoCertificateFound, .noCertFound),
    (peer.status &&& certInvalid != 0 || peer.status &&& certRevoked != 0, .untrustedCert),
    (peer.expirationTime < peer.expirationNow, .certExpired),
    (peer.activationNow < peer.activationTime, .certNotActivated)] ++
  if peer.certType = .x509 then x509Problems peer server expected else []

/-- The string property set from the buffer: its bytes up to the first
`NUL`. -/
def fingerprintString (peer : Peer) : List UInt8 := peer.fingerprint.takeWhile (· != 0)

/-- The verdict goes to the log with what was asked on the way to it. -/
def gnutlsChannelVerifyCertificate (ask : Feedback) (peer : Peer) (server : String)
    (w : World) : Bool × World :=
  let verdict := askInTurn ask [] (certificateProblems peer server w.secure.expectedFingerprint)
  let w := w.note (.verify w.priv.gnutlsSession verdict.2 verdict.1)
  if verdict.1 ∧ peer.certType = .x509 then
    (true, { w with secure := { w.secure with fingerprint := some (fingerprintString peer) } })
  else (verdict.1, w)

/-! ## The handshake -/

/-- `gnutls_init` and the setting up of the session. -/
def gnutlsInit (w : World) : World :=
  { w with
    priv := { w.priv with gnutlsSession := some w.nextSession }
    nextSession := w.nextSession + 1
    log := w.log ++ [.init (some w.nextSession)] }

/-- `auth_ok` is left as it was initialised when the handshake failed, and what
is done about either failure is not compiled. -/
def gnutlsChannelStartHandshake (ask : Feedback) (host : String) (h : Handshake)
    (w : World) : World :=
  let w := (gnutlsInit w).transport h.io
  let w := w.note (.handshake w.priv.gnutlsSession h.ret)
  let w := if 0 ≤ h.ret then (gnutlsChannelVerifyCertificate ask h.peer host w).2 else w
  { w with priv := { w.priv with isEncrypted := true } }

/-! ## Reading and writing -/

/-- How a call ends: it returns, it writes through a `NULL` pointer, or it
calls GnuTLS over and over. -/
inductive Ending (α : Type) where
  | returns (a : α)
  | crashes
  | spins
deriving DecidableEq, Repr

def Ending.fate {α : Type} : Ending α → Fate
  | .returns _ => .running
  | .crashes => .crashed
  | .spins => .spinning

/-- The value an `ssize_t` has in a `gint`. -/
def toGint (r : Int) : Int := r.bmod (2 ^ 32)

/-- The value an `ssize_t` has in a `gsize`. -/
def toGsize (r : Int) : Nat := (r % 2 ^ 64).toNat

structure ReadResult where
  status : GIOStatus
  bytesRead : Option Nat
  data : List UInt8
deriving DecidableEq, Repr

structure WriteResult where
  status : GIOStatus
  bytesWritten : Option Nat
deriving DecidableEq, Repr

/-- What the outside world does in a read or a write: the inner channel answers
it, or GnuTLS is called so many times. -/
inductive Answer (ρ κ : Type) where
  | inner (r : ρ)
  | gnutls (calls : List κ)
deriving DecidableEq, Repr

/-- Call GnuTLS until it does not want to be called again. `calls` are the
calls made, so it ends where the loop does. -/
def gnutlsRetryLoop {κ : Type} (record : κ → World → World) (again : κ → Bool) :
    List κ → World → Option (Ending κ × World)
  | [], _ => none
  | [c], w => some (if again c then .spins else .returns c, record c w)
  | c :: cs, w => if again c then gnutlsRetryLoop record again cs (record c w) else none

def recordRecv (count : Nat) (c : RecvCall) (w : World) : World :=
  (w.note (.recv w.priv.gnutlsSession count)).transport c.io

def recordSend (buf : List UInt8) (count : Int) (c : SendCall) (w : World) : World :=
  (w.note (.send w.priv.gnutlsSession buf (toGsize count))).transport c.io

def recvAgain (c : RecvCall) : Bool := toGint c.ret == eInterrupted || toGint c.ret == eAgain

/-- The result is compared after it has been stored as a `gsize`. -/
def sendAgain (c : SendCall) : Bool :=
  toGsize c.ret == toGsize eInterrupted || toGsize c.ret == toGsize eAgain

def recvResult (c : RecvCall) : ReadResult :=
  if 0 < toGint c.ret then ⟨.normal, some (toGint c.ret).toNat, c.data⟩
  else if toGint c.ret < 0 then ⟨.error, some 0, []⟩
  else ⟨.eof, some 0, []⟩

/-- `out` is whether `bytes_read` is not `NULL`. -/
def gnutlsChannelRead (count : Nat) (out : Bool) (a : Answer ReadResult RecvCall) (w : World) :
    Option (Ending ReadResult × World) :=
  match w.priv.isEncrypted, a with
  | false, .inner r => some (.returns r, w.note (.innerRead .application r.data))
  | true, .gnutls calls =>
      if out then
        match gnutlsRetryLoop (recordRecv count) recvAgain calls w with
        | none => none
        | some (.returns c, w) => some (.returns (recvResult c), w)
        | some (.crashes, w) => some (.crashes, w)
        | some (.spins, w) => some (.spins, w)
      else if calls.isEmpty then some (.crashes, w) else none
  | _, _ => none

/-- The stored result is not negative, so the error branch is never taken. -/
def sendResult (c : SendCall) : WriteResult :=
  if 0 ≤ toGsize c.ret then ⟨.normal, some (toGsize c.ret)⟩
  else ⟨.error, some (toGsize c.ret)⟩

def gnutlsChannelWrite (buf : List UInt8) (count : Int) (out : Bool)
    (a : Answer WriteResult SendCall) (w : World) : Option (Ending WriteResult × World) :=
  match w.priv.isEncrypted, a with
  | false, .inner r => some (.returns r, w.note (.innerWrite .application buf count))
  | true, .gnutls calls =>
      if out then
        match gnutlsRetryLoop (recordSend buf count) sendAgain calls w with
        | none => none
        | some (.returns c, w) => some (.returns (sendResult c), w)
        | some (.crashes, w) => some (.crashes, w)
        | some (.spins, w) => some (.spins, w)
      else
        -- the first call is made, and its result has nowhere to go
        match calls with
        | [c] => some (.crashes, recordSend buf count c w)
        | _ => none
  | _, _ => none

/-! ## Closing and the end -/

/-- `io` is what `gnutls_bye` does over the transport callbacks. -/
def gnutlsChannelClose (io : List TransportCall) (w : World) : Option World :=
  if w.priv.isEncrypted then
    let w := (w.note (.bye w.priv.gnutlsSession)).transport io
    let w := w.note (.deinit w.priv.gnutlsSession)
    some (w.note .innerClose)
  else if io.isEmpty then some (w.note .innerClose)
  else none

/-- `channel_inner_closed_cb`: the inner channel's `closed` is passed on. -/
def channelInnerClosedCb (reason : LmChannelCloseReason) (w : World) : World :=
  w.note (.emitClosed reason)

def gnutlsChannelFinalize (w : World) : World :=
  { w.note .freeCredentials with fate := .finalized }

/-! ## The machine -/

inductive Label where
  | setExpectedFingerprint (s : Option (List UInt8))
  | startHandshake (host : String) (h : Handshake)
  | read (count : Nat) (out : Bool) (a : Answer ReadResult RecvCall)
  | write (buf : List UInt8) (count : Int) (out : Bool) (a : Answer WriteResult SendCall)
  | close (io : List TransportCall)
  | innerClosed (reason : LmChannelCloseReason)
  | finalize

def afterCall {α : Type} (r : Option (Ending α × World)) : Option World :=
  r.map fun (e, w) => { w with fate := e.fate }

def step (ask : Feedback) (w : World) (l : Label) : Option World :=
  if w.fate ≠ .running then none
  else
    match l with
    | .setExpectedFingerprint s =>
        some { w with secure := { w.secure with expectedFingerprint := s } }
    | .startHandshake host h => some (gnutlsChannelStartHandshake ask host h w)
    | .read count out a => afterCall (gnutlsChannelRead count out a w)
    | .write buf count out a => afterCall (gnutlsChannelWrite buf count out a w)
    | .close io => gnutlsChannelClose io w
    | .innerClosed reason => some (channelInnerClosedCb reason w)
    | .finalize => some (gnutlsChannelFinalize w)

/-! ## The channel and the events of its inner channel

`lm_channel_set_inner` connects four handlers, and each emits on the channel
what it was told about. `closed` is a label of the channel's own machine; here
are the other three. None of them touches the channel, but between any two of
its calls there can be any number of them, and their handlers may be what makes
the next call. -/

inductive InnerEvent where
  | opened
  | readable
  | writeable
deriving DecidableEq, Repr

structure Channel where
  world : World := lmSecureChannelNew
  emitted : List InnerEvent := []
deriving DecidableEq, Repr

/-- `channel_inner_opened_cb`, `channel_inner_readable_cb` and
`channel_inner_writeable_cb`. -/
def channelInnerCb (e : InnerEvent) (c : Channel) : Channel :=
  { c with emitted := c.emitted ++ [e] }

inductive ChannelLabel where
  | call (l : Label)
  | inner (e : InnerEvent)

def channelStep (ask : Feedback) (c : Channel) : ChannelLabel → Option Channel
  | .call l => (step ask c.world l).map fun world => { c with world }
  | .inner e => if c.world.fate = .running then some (channelInnerCb e c) else none

end LmTransport.Ref.Gnutls
