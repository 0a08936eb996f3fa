import LmTransport.Lib.Decimal
import LmTransport.Ref.AsyncnsNet

/-!
# How a worker starts

`asyncns_new` makes two pairs of sockets and forks. The child is a copy of the
client, with everything the client has open, so before a worker goes into its
loop it gives up what it does not need: it opens `/dev/null` three times, gives up its
privileges, sets its signals and closes all descriptors but its two sockets. What is
open is read from `/proc/self/fd`. Where that cannot be opened, `close_allv`
tries every number there can be.

A system call that fails does so for reasons of its own, so what the calls
of one worker did is data. A function gives whether it succeeded, and the process.
-/

namespace LmTransport.Ref.Libasyncns

/-! ## Processes -/

/-- What a descriptor is for. -/
inductive File where
  | devNull (writing : Bool)
  | procSelfFd
  | socket (id : Nat)
  | other (id : Nat)
deriving DecidableEq, Repr

/-- `SIG_DFL`, `SIG_IGN` and a function of the program. -/
inductive Handler where
  | dfl
  | ign
  | function (id : Nat)
deriving DecidableEq, Repr

/-- What `process_worker` changes. `limit` bounds the descriptors the process can
get. -/
structure Process where
  files : Nat → Option File
  limit : Nat
  handlers : Nat → Handler
  uid : Nat

/-- The descriptor is closed, whether or not it was open. -/
def Process.close (n : Nat) (p : Process) : Process :=
  { p with files := Function.update p.files n none }

/-- A new descriptor is the lowest number that is free. -/
def Process.freeFd (p : Process) : Option Nat :=
  (List.range p.limit).find? fun n => (p.files n).isNone

/-- The descriptor is for this file from now on. -/
def Process.install (n : Nat) (file : File) (p : Process) : Process :=
  { p with files := Function.update p.files n (some file) }

def Process.openFd (file : File) (p : Process) : Option (Nat × Process) :=
  p.freeFd.map fun n => (n, p.install n file)

/-- `socketpair`, with the number of its first end. -/
def Process.socketpair (id : Nat) (p : Process) : Option (Nat × Nat × Process) :=
  match p.openFd (.socket id) with
  | none => none
  | some (a, p) => (p.openFd (.socket (id + 1))).map fun (b, p) => (a, b, p)

inductive Errno where
  | einval
  | ebadf
  | other
deriving DecidableEq, Repr

/-- What the system calls of a worker did. `readdir` is the names in `/proc/self/fd`,
`nobody` the user of that name and `rlimMax` the hard limit on descriptors. A
failing `close` still closes. -/
structure SystemCalls where
  openNull : Nat → Bool := fun _ => true
  chdir : Bool := true
  nobody : Option Nat := none
  setresuid : Bool := true
  sigaction : Nat → Option Errno := fun _ => none
  opendir : Bool := true
  readdir : List (List UInt8) := []
  close : Nat → Option Errno := fun _ => none
  rlimMax : Option UInt64 := none

/-- `if (f (p) < 0) goto fail;` and what follows it. -/
def orFail (r : Bool × Process) (rest : Process → Bool × Process) : Bool × Process :=
  if r.1 then rest r.2 else r

variable (calls : SystemCalls)

/-- `close`, with its error. -/
def closeFd (n : Nat) (p : Process) : Option Errno × Process :=
  if (p.files n).isNone then (some .ebadf, p) else (calls.close n, p.close n)

/-! ## `close_allv` -/

def isSpace (b : UInt8) : Bool := b = 32 || (9 ≤ b.toNat && b.toNat ≤ 13)

def longMin : Int := -9223372036854775808

def longMax : Int := 9223372036854775807

/-- The optional sign `strtol` accepts: whether it is a minus, and what follows. -/
def signOf : List UInt8 → Bool × List UInt8
  | 45 :: s => (true, s)
  | 43 :: s => (false, s)
  | s => (false, s)

/-- `strtol (s, &e, 10)`: the number, the text at `e`, and whether it is out of
range. -/
def strtol (s : List UInt8) : Int × List UInt8 × Bool :=
  let (negative, digits) := signOf (s.dropWhile isSpace)
  let n : Int := Decimal.value (digits.takeWhile Decimal.isDigit)
  let l := if negative then -n else n
  let e := digits.dropWhile Decimal.isDigit
  if digits.takeWhile Decimal.isDigit = [] then (0, s, false)
  else if l < longMin then (longMin, e, true)
  else if longMax < l then (longMax, e, true)
  else (l, e, false)

/-- The loop over `/proc/self/fd`. -/
def closeEntries (exceptFds : List Nat) (dirfd : Nat) : List (List UInt8) → Process → Bool × Process
  | [], p => (true, p)
  | name :: names, p =>
      if name.head? = some 46 then closeEntries exceptFds dirfd names p
      else
        let (l, e, erange) := strtol name
        if erange ∨ e ≠ [] then (false, p)
        else
          let fd := (Int32.ofInt l).toInt
          if fd ≠ l then (false, p)
          else if fd < 3 ∨ fd = dirfd ∨ fd.toNat ∈ exceptFds then
            closeEntries exceptFds dirfd names p
          else
            match closeFd calls fd.toNat p with
            | (none, p) => closeEntries exceptFds dirfd names p
            | (some _, p) => (false, p)

/-- The loop over all numbers. The `continue` for an excepted descriptor is one of
the inner loop, which has nothing left to do. -/
def closeNumbers : List Nat → Process → Bool × Process
  | [], p => (true, p)
  | fd :: fds, p =>
      if fd ≤ 3 then closeNumbers fds p
      else
        match closeFd calls fd p with
        | (some .ebadf, p) | (none, p) => closeNumbers fds p
        | (some _, p) => (false, p)

/-- `(int) rl.rlim_max`, as the bound of a loop from `0` on. -/
def rlimInt (rlimMax : UInt64) : Nat := (Int32.ofInt rlimMax.toNat).toInt.toNat

def closeAllv (exceptFds : List Nat) (p : Process) : Bool × Process :=
  match if calls.opendir then p.openFd .procSelfFd else none with
  | some (dirfd, p) =>
      let (ok, p) := closeEntries calls exceptFds dirfd calls.readdir p
      -- `closedir (d)`
      (ok, p.close dirfd)
  | none =>
      match calls.rlimMax with
      | none => (false, p)
      | some rlimMax => closeNumbers calls (List.range (rlimInt rlimMax)) p

/-! ## Signals -/

/-- `NSIG`. -/
def nsig : Nat := 65

def sigkill : Nat := 9
def sigstop : Nat := 19

/-- `SIGINT`, `SIGHUP`, `SIGPIPE`, `SIGUSR1` and `SIGUSR2`. -/
def ignoreSigs : List Nat := [2, 1, 13, 10, 12]

/-- `sigaction`, for a signal whose call does not fail. -/
def Process.setHandler (sig : Nat) (handler : Handler) (p : Process) : Process :=
  { p with handlers := Function.update p.handlers sig handler }

/-- The loop of `reset_sigsv`. -/
def resetSignals (except : List Nat) : List Nat → Process → Bool × Process
  | [], p => (true, p)
  | sig :: sigs, p =>
      if sig = sigkill ∨ sig = sigstop ∨ sig ∈ except then resetSignals except sigs p
      else
        match calls.sigaction sig with
        | none => resetSignals except sigs (p.setHandler sig .dfl)
        | some .einval => resetSignals except sigs p
        | some _ => (false, p)

def resetSigsv (except : List Nat) (p : Process) : Bool × Process :=
  resetSignals calls except (List.range' 1 (nsig - 1)) p

def ignoreSigsv : List Nat → Process → Bool × Process
  | [], p => (true, p)
  | sig :: sigs, p =>
      match calls.sigaction sig with
      | none => ignoreSigsv sigs (p.setHandler sig .ign)
      | some _ => (false, p)

/-! ## `process_worker` -/

/-- `if (open ("/dev/null", ..) != n) goto fail;` -/
def openNull (n : Nat) (writing : Bool) (p : Process) : Bool × Process :=
  match if calls.openNull n then p.openFd (.devNull writing) else none with
  | some (fd, p) => (fd = n, p)
  | none => (false, p)

/-- A process of `root` becomes one of `nobody`, if there is such a user. -/
def dropPrivileges (p : Process) : Bool × Process :=
  if p.uid ≠ 0 then (true, p)
  else
    match calls.nobody with
    | none => (true, p)
    | some uid => if calls.setresuid then (true, { p with uid }) else (false, p)

/-- `process_worker` up to its loop, after the assertions on its arguments. -/
def processWorker (inFd outFd : Nat) (p : Process) : Bool × Process :=
  orFail (openNull calls 0 false (((p.close 0).close 1).close 2)) fun p =>
  orFail (openNull calls 1 true p) fun p =>
  orFail (openNull calls 2 true p) fun p =>
  orFail (calls.chdir, p) fun p =>
  orFail (dropPrivileges calls p) fun p =>
  orFail (resetSigsv calls ignoreSigs p) fun p =>
  orFail (ignoreSigsv calls ignoreSigs p) fun p =>
  closeAllv calls [inFd, outFd] p

/-! ## `asyncns_new` -/

/-- The sockets of a context: `REQUEST_RECV_FD`, `REQUEST_SEND_FD`,
`RESPONSE_RECV_FD` and `RESPONSE_SEND_FD`. -/
structure MessageFds where
  requestRecv : Nat
  requestSend : Nat
  responseRecv : Nat
  responseSend : Nat
deriving DecidableEq, Repr

/-- The two calls of `socketpair`, and the client after them. -/
def messageFds (p : Process) : Option (MessageFds × Process) :=
  match p.socketpair 0 with
  | none => none
  | some (a, b, p) => (p.socketpair 2).map fun (c, d, p) => (⟨a, b, c, d⟩, p)

/-- The child, up to the loop of `process_worker`. `none` is an assertion of
`process_worker` that fails. -/
def startWorker (fds : MessageFds) (client : Process) : Option (Bool × Process) :=
  let p := (client.close fds.requestSend).close fds.responseRecv
  if fds.requestRecv ≤ 2 ∨ fds.responseSend ≤ 2 then none
  else some (processWorker calls fds.requestRecv fds.responseSend p)

end LmTransport.Ref.Libasyncns
