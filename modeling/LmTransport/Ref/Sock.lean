import LmTransport.Ref.SocketAddress
import LmTransport.Ref.Glib

/-!
# The kernel under `lm-sock.c`

One kernel object per `socket()` call and a descriptor table over them. The
objects are never forgotten, which makes the list of them the history of every
connection attempt with its fate; a descriptor number released by `close()`
may be given out again for a later object. The table is the process's, and
other parts of the process open descriptors too; their objects are set apart in
`others`, which no function reads.

What the kernel decides on its own (which number `socket()` returns, how a
`connect()` ends, when a connection breaks) comes in from outside, as
arguments of the functions below. A number already in use is never returned,
and that is the only choice they refuse.
-/

namespace LmTransport.Ref

/-- `EINPROGRESS`. -/
def eInProgress : Int := 115

/-- `_LM_SOCK_VALID`. -/
def lmSockValid (fd : Int) : Bool := 0 ≤ fd

/-- `_lm_sock_is_blocking_error`. -/
def lmSockIsBlockingError (err : Int) : Bool := err == eInProgress

/-- The fate of a connection attempt. `noSocket` is an attempt whose
`socket()` failed, `idle` one whose `connect()` has not been called yet,
`reset` a connection that came up and was broken afterwards. -/
inductive ConnStatus where
  | noSocket
  | idle
  | inProgress
  | established
  | refused
  | reset
deriving DecidableEq, Repr

/-- The attempt completed successfully, whatever became of it later. -/
def ConnStatus.succeeded : ConnStatus → Bool
  | .established | .reset => true
  | _ => false

/-- The attempt has left no connection to wait for. -/
def ConnStatus.failed : ConnStatus → Bool
  | .noSocket | .refused | .reset => true
  | _ => false

structure SockObj where
  addr : AddrInfo
  status : ConnStatus
  soError : Int
deriving DecidableEq, Repr

structure Kernel where
  objs : List SockObj := []
  fds : Int → Option Nat := fun _ => none
  others : List Nat := []

/-- The object behind a descriptor. -/
def Kernel.obj (k : Kernel) (fd : Int) : Option SockObj :=
  (k.fds fd).bind fun i => k.objs[i]?

/-- `fd` is an open descriptor of this socket. -/
def Kernel.isOpen (k : Kernel) (fd : Int) : Bool := (k.fds fd).isSome

/-- The descriptor table with one entry changed. -/
def setFd (fds : Int → Option Nat) (fd : Int) (v : Option Nat) : Int → Option Nat :=
  fun x => if x = fd then v else fds x

/-- `socket()` returned `ret` for an attempt on `addr`. -/
def Kernel.socket (k : Kernel) (addr : AddrInfo) (ret : Int) : Option Kernel :=
  if lmSockValid ret then
    if k.isOpen ret then none
    else some
      { k with
        objs := k.objs ++ [⟨addr, .idle, 0⟩]
        fds := setFd k.fds ret (some k.objs.length) }
  else some { k with objs := k.objs ++ [⟨addr, .noSocket, 0⟩] }

def Kernel.modify (k : Kernel) (fd : Int) (f : SockObj → SockObj) : Kernel :=
  match k.fds fd with
  | none => k
  | some i => { k with objs := k.objs.modify i f }

/-- `connect()` returned `res`, with `errno` set when that is negative. -/
def Kernel.connect (k : Kernel) (fd res errno : Int) : Kernel :=
  k.modify fd fun o =>
    { o with
      status :=
        if 0 ≤ res then .established
        else if lmSockIsBlockingError errno then .inProgress
        else .refused }

/-- `_lm_sock_close`. -/
def lmSockClose (k : Kernel) (fd : Int) : Kernel :=
  { k with fds := setFd k.fds fd none }

/-- `_lm_sock_get_error`: read `SO_ERROR` and clear it. On anything but an open
socket `getsockopt` fails and the caller's variable keeps the garbage it
held. -/
def lmSockGetError (k : Kernel) (fd garbage : Int) : Int × Kernel :=
  match k.obj fd with
  | none => (garbage, k)
  | some o => (o.soError, k.modify fd fun o => { o with soError := 0 })

/-- An attempt in progress ends, with `err` zero when it succeeded. `SO_ERROR`
is never `EINPROGRESS`: that is an answer of `connect()`, not an outcome. -/
def Kernel.connectDone (k : Kernel) (fd err : Int) : Option Kernel :=
  match k.obj fd with
  | none => none
  | some o =>
      if o.status = .inProgress ∧ err ≠ eInProgress then
        some (k.modify fd fun o =>
          { o with
            status := if err = 0 then .established else .refused
            soError := err })
      else none

/-- An established connection breaks. -/
def Kernel.connectionError (k : Kernel) (fd err : Int) : Option Kernel :=
  match k.obj fd with
  | none => none
  | some o =>
      if o.status = .established ∧ err ≠ 0 ∧ err ≠ eInProgress then
        some (k.modify fd fun o => { o with status := .reset, soError := err })
      else none

/-- What `poll` may report of a descriptor. A connect that failed makes it
ready for everything, `G_IO_OUT` and `G_IO_ERR` included; whether an error that
has been read is reported again is left open. A closed descriptor is
`G_IO_NVAL`, for which nobody watches. -/
def Kernel.ready (k : Kernel) (fd : Int) (c : GIOCondition) : Bool :=
  match k.obj fd with
  | none => false
  | some o =>
      match o.status with
      | .noSocket | .idle | .inProgress => false
      | .established => c ≠ .err
      | .refused | .reset => true

end LmTransport.Ref
