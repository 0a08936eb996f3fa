import LmTransport.Ref.Socket
import LmTransport.Lib.Run

/-!
# What one event can do to a socket

Every invariant of the socket machine is proved from this file rather than
from the definitions. `socketAttemptConnect_cases` says what an attempt leaves
behind in each of its three outcomes, `attemptLoop_rule` packages the
induction over the loop that makes attempts, and `step_cases` is the inversion
of `step`: one case for each branch the code can take, with the resulting
state spelled out and every guard that was passed on the way.
-/

namespace LmTransport.Ref

/-! ## Descriptor table and objects -/

@[simp] theorem setFd_self (fds : Int → Option Nat) (fd : Int) (v : Option Nat) :
    setFd fds fd v fd = v := if_pos rfl

theorem setFd_of_ne {fds : Int → Option Nat} {fd x : Int} {v : Option Nat} (h : x ≠ fd) :
    setFd fds fd v x = fds x := if_neg h

theorem isOpen_setFd {objs : List SockObj} {fds : Int → Option Nat} {others : List Nat}
    {fd x : Int} {v : Option Nat} :
    Kernel.isOpen ⟨objs, setFd fds fd v, others⟩ x =
      if x = fd then v.isSome else (fds x).isSome := by
  by_cases h : x = fd <;> simp [Kernel.isOpen, setFd, h]

@[simp] theorem isOpen_lmSockClose (k : Kernel) (fd x : Int) :
    (lmSockClose k fd).isOpen x = (x ≠ fd && k.isOpen x) := by
  rw [lmSockClose, isOpen_setFd]
  by_cases h : x = fd <;> simp [h, Kernel.isOpen]

@[simp] theorem modify_fds (k : Kernel) (fd : Int) (f : SockObj → SockObj) :
    (k.modify fd f).fds = k.fds := by
  unfold Kernel.modify
  split <;> rfl

@[simp] theorem modify_others (k : Kernel) (fd : Int) (f : SockObj → SockObj) :
    (k.modify fd f).others = k.others := by
  unfold Kernel.modify
  split <;> rfl

@[simp] theorem lmSockGetError_fds (k : Kernel) (fd garbage : Int) :
    (lmSockGetError k fd garbage).2.fds = k.fds := by
  unfold lmSockGetError
  split
  · rfl
  · exact modify_fds ..

@[simp] theorem isOpen_lmSockGetError (k : Kernel) (fd garbage x : Int) :
    (lmSockGetError k fd garbage).2.isOpen x = k.isOpen x := by
  rw [Kernel.isOpen, lmSockGetError_fds, Kernel.isOpen]

theorem obj_some {k : Kernel} {fd : Int} {o : SockObj} :
    k.obj fd = some o ↔ ∃ i, k.fds fd = some i ∧ k.objs[i]? = some o :=
  Option.bind_eq_some_iff

/-- Whatever is done to the object behind `fd`, the one behind `x` is as it was
or is that very object. -/
theorem obj_modify {k : Kernel} {fd x : Int} {f : SockObj → SockObj} {o : SockObj}
    (h : k.obj x = some o) :
    (k.modify fd f).obj x = some o ∨
      (k.obj fd = some o ∧ (k.modify fd f).obj x = some (f o)) := by
  obtain ⟨i, hi, hoi⟩ := obj_some.mp h
  cases hj : k.fds fd with
  | none =>
      rw [Kernel.modify, hj]
      exact Or.inl h
  | some j =>
      have hobj : (k.modify fd f).obj x = (k.objs.modify j f)[i]? := by
        unfold Kernel.obj
        rw [modify_fds, hi, Kernel.modify, hj]
        rfl
      rw [hobj]
      by_cases hij : j = i
      · subst hij
        exact Or.inr ⟨obj_some.mpr ⟨j, hj, hoi⟩, by simp [hoi]⟩
      · exact Or.inl (by simp [hij, hoi])

/-- A descriptor is ready for `G_IO_OUT` once its attempt is over, and an
attempt that is over and was not refused succeeded. -/
theorem succeeded_of_ready {k : Kernel} {fd : Int} {c : GIOCondition}
    (h : k.ready fd c = true) :
    ∃ o, k.obj fd = some o ∧ (o.status = .refused ∨ o.status.succeeded = true) := by
  unfold Kernel.ready at h
  split at h
  · simp at h
  · next o ho =>
      refine ⟨o, ho, ?_⟩
      cases hs : o.status <;> simp [hs, ConnStatus.succeeded] at h ⊢

theorem connectDone_some {k k' : Kernel} {fd err : Int} (h : k.connectDone fd err = some k') :
    ∃ o, k.obj fd = some o ∧ o.status = .inProgress ∧ err ≠ eInProgress ∧
      k' = k.modify fd fun o =>
        { o with
          status := if err = 0 then .established else .refused
          soError := err } := by
  unfold Kernel.connectDone at h
  split at h
  · cases h
  · next o ho =>
      split at h
      · next hst =>
          rw [Option.some.injEq] at h
          exact ⟨o, ho, hst.1, hst.2, h.symm⟩
      · cases h

theorem connectionError_some {k k' : Kernel} {fd err : Int}
    (h : k.connectionError fd err = some k') :
    ∃ o, k.obj fd = some o ∧ o.status = .established ∧ err ≠ 0 ∧ err ≠ eInProgress ∧
      k' = k.modify fd fun o => { o with status := .reset, soError := err } := by
  unfold Kernel.connectionError at h
  split at h
  · cases h
  · next o ho =>
      split at h
      · next hst =>
          rw [Option.some.injEq] at h
          exact ⟨o, ho, hst.1, hst.2.1, hst.2.2, h.symm⟩
      · cases h

/-! ## One attempt

Three outcomes: no socket, a connect that fails at once and is closed again,
an attempt that is up or in progress. -/

/-- The status `connect()` leaves an attempt with. -/
def SysCalls.status (o : SysCalls) : ConnStatus :=
  if 0 ≤ o.connect then .established
  else if lmSockIsBlockingError o.errno then .inProgress
  else .refused

theorem SysCalls.status_of_refused {o : SysCalls} (h : o.refused = true) :
    o.status = .refused := by
  simp only [SysCalls.refused, Bool.and_eq_true, decide_eq_true_eq, Bool.not_eq_true'] at h
  rw [SysCalls.status, if_neg (by omega), if_neg (by simp [h.2])]

def attemptNoSocket (addr : AddrInfo) (fd : Int) (w : World) : World :=
  { w with
    kernel := { w.kernel with objs := w.kernel.objs ++ [⟨addr, .noSocket, 0⟩] }
    priv := { w.priv with handle := fd }
    log := w.log ++ [.attempt addr] }

def attemptStarted (addr : AddrInfo) (o : SysCalls) (w : World) : World :=
  let channel : GIOChannel := ⟨w.nextChannel, o.socket⟩
  { w with
    kernel :=
      { w.kernel with
        objs := w.kernel.objs ++ [⟨addr, o.status, 0⟩]
        fds := setFd w.kernel.fds o.socket (some w.kernel.objs.length) }
    ctx :=
      { sources :=
          w.ctx.sources ++ [⟨w.ctx.nextId, channel, .out⟩] ++ [⟨w.ctx.nextId + 1, channel, .err⟩]
        nextId := w.ctx.nextId + 1 + 1 }
    nextChannel := w.nextChannel + 1
    priv :=
      { w.priv with
        handle := o.socket
        ioChannel := some channel
        watches :=
          { w.priv.watches with
            outWatch := some w.ctx.nextId
            errWatch := some (w.ctx.nextId + 1) } }
    log := w.log ++ [.attempt addr] ++ [.socket o.socket] }

theorem modify_length_append {α : Type*} (l : List α) (x : α) (f : α → α) :
    (l ++ [x]).modify l.length f = l ++ [f x] := by
  induction l with
  | nil => rfl
  | cons y l ih => simp [ih]

theorem kernel_connect_new (k : Kernel) (addr : AddrInfo) (o : SysCalls) :
    Kernel.connect
        { k with
          objs := k.objs ++ [⟨addr, .idle, 0⟩]
          fds := setFd k.fds o.socket (some k.objs.length) } o.socket o.connect o.errno =
      { k with
        objs := k.objs ++ [⟨addr, o.status, 0⟩]
        fds := setFd k.fds o.socket (some k.objs.length) } := by
  simp only [Kernel.connect, Kernel.modify, setFd_self, modify_length_append,
    SysCalls.status]

theorem socketAttemptConnect_cases {addr : AddrInfo} {o : SysCalls} {w w' : World} {b : Bool}
    (h : socketAttemptConnect addr o w = some (b, w')) :
    (lmSockValid o.socket = false ∧ b = false ∧ w' = attemptNoSocket addr o.socket w) ∨
    (lmSockValid o.socket = true ∧ w.kernel.isOpen o.socket = false ∧ o.refused = true ∧
      b = false ∧ w' = socketCloseHandle (attemptStarted addr o w)) ∨
    (lmSockValid o.socket = true ∧ w.kernel.isOpen o.socket = false ∧ o.refused = false ∧
      b = true ∧ w' = attemptStarted addr o w) := by
  unfold socketAttemptConnect Kernel.socket at h
  cases hv : lmSockValid o.socket with
  | false =>
      simp only [hv, Bool.false_eq_true, if_false, Bool.not_false, if_true,
        Option.some.injEq, Prod.mk.injEq] at h
      exact Or.inl ⟨rfl, h.1.symm, h.2.symm⟩
  | true =>
      cases hopen : w.kernel.isOpen o.socket with
      | true => simp [hv, hopen] at h
      | false =>
          simp only [hv, hopen, Bool.false_eq_true, if_true, if_false, Bool.not_true,
            World.note, socketWatchAttempt, lmMiscAddIoWatch, kernel_connect_new] at h
          refine Or.inr ?_
          cases hr : o.refused with
          | true =>
              simp only [hr, if_true, Option.some.injEq, Prod.mk.injEq] at h
              exact Or.inl ⟨rfl, rfl, rfl, h.1.symm, h.2.symm⟩
          | false =>
              simp only [hr, Bool.false_eq_true, if_false, Option.some.injEq,
                Prod.mk.injEq] at h
              exact Or.inr ⟨rfl, rfl, rfl, h.1.symm, h.2.symm⟩

/-! ## The loop -/

theorem noCalls_some {os : List SysCalls} {w w' : World} (h : noCalls os w = some w') :
    os = [] ∧ w' = w := by
  unfold noCalls at h
  split at h
  · next hos => exact ⟨List.isEmpty_iff.mp hos, (Option.some.inj h).symm⟩
  · cases h

theorem iterGetNext_eq (w : World) :
    socketIterGetNext w =
      match w.sa.remaining with
      | [] => (none, w)
      | addr :: rest => (some addr, { w with sa := { w.sa with resultsIter := some ⟨rest⟩ } }) := by
  obtain ⟨priv, ⟨host, port, results, iter⟩, kernel, ctx⟩ := w
  cases iter with
  | none => rfl
  | some iter =>
      obtain ⟨current⟩ := iter
      cases current <;> rfl

/-- The world with the iterator moved past one result. -/
def advanced (rest : List AddrInfo) (w : World) : World :=
  { w with sa := { w.sa with resultsIter := some ⟨rest⟩ } }

/-- The loop's induction, done once. `I` holds whenever control is at the top
of the loop, `J` when the loop is left, and every attempt's answers are among
those the call was given. -/
theorem attemptLoop_rule {I J : World → Prop} {C : SysCalls → Prop} {k : Caller}
    (hdone : ∀ w, I w → w.sa.remaining = [] →
      J (socketEmitConnectResult .failedTriedAll k w))
    (hnoSocket : ∀ w addr rest o, I w → w.sa.remaining = addr :: rest → C o →
      lmSockValid o.socket = false → I (attemptNoSocket addr o.socket (advanced rest w)))
    (hrefused : ∀ w addr rest o, I w → w.sa.remaining = addr :: rest → C o →
      lmSockValid o.socket = true → w.kernel.isOpen o.socket = false → o.refused = true →
      I (socketCloseHandle (attemptStarted addr o (advanced rest w))))
    (hstarted : ∀ w addr rest o, I w → w.sa.remaining = addr :: rest → C o →
      lmSockValid o.socket = true → w.kernel.isOpen o.socket = false → o.refused = false →
      J (returnTo k (attemptStarted addr o (advanced rest w))))
    {os : List SysCalls} {w w' : World} (hos : ∀ o ∈ os, C o) (hI : I w)
    (h : socketAttemptLoop k os w = some w') : J w' := by
  induction os generalizing w with
  | nil =>
      rw [socketAttemptLoop, iterGetNext_eq] at h
      cases hrem : w.sa.remaining with
      | nil =>
          rw [hrem] at h
          obtain ⟨-, rfl⟩ := noCalls_some h
          exact hdone w hI hrem
      | cons addr rest =>
          rw [hrem] at h
          cases h
  | cons o os ih =>
      rw [socketAttemptLoop, iterGetNext_eq] at h
      cases hrem : w.sa.remaining with
      | nil =>
          rw [hrem] at h
          obtain ⟨hnil, -⟩ := noCalls_some h
          cases hnil
      | cons addr rest =>
          rw [hrem] at h
          simp only [] at h
          have hC : C o := hos o (List.mem_cons_self ..)
          have hCs : ∀ o' ∈ os, C o' := fun o' ho' => hos o' (List.mem_cons_of_mem _ ho')
          split at h
          · cases h
          · next w₁ hatt =>
              rcases socketAttemptConnect_cases hatt with
                ⟨hv, -, rfl⟩ | ⟨hv, hopen, hr, -, rfl⟩ | ⟨-, -, -, hb, -⟩
              · exact ih hCs (hnoSocket w addr rest o hI hrem hC hv) h
              · exact ih hCs (hrefused w addr rest o hI hrem hC hv hopen hr) h
              · cases hb
          · next w₁ hatt =>
              rcases socketAttemptConnect_cases hatt with
                ⟨-, hb, -⟩ | ⟨-, -, -, hb, -⟩ | ⟨hv, hopen, hr, -, rfl⟩
              · cases hb
              · cases hb
              · obtain ⟨-, rfl⟩ := noCalls_some h
                exact hstarted w addr rest o hI hrem hC hv hopen hr

/-! ## Fields

What the small helpers do to the state, at a glance and field by field, so that
no later proof unfolds them. -/

@[simp] theorem take_priv (w : World) (src : Nat) : (w.take src).priv = w.priv := rfl

@[simp] theorem take_kernel (w : World) (src : Nat) : (w.take src).kernel = w.kernel := rfl

theorem returnTo_eq (k : Caller) (w : World) :
    returnTo k w = { w with ctx := (returnTo k w).ctx } := by
  unfold returnTo
  split <;> rfl

@[simp] theorem returnTo_priv (k : Caller) (w : World) : (returnTo k w).priv = w.priv := by
  rw [returnTo_eq]

@[simp] theorem returnTo_kernel (k : Caller) (w : World) :
    (returnTo k w).kernel = w.kernel := by
  rw [returnTo_eq]

@[simp] theorem returnTo_found (k : Caller) (w : World) : (returnTo k w).found = w.found := by
  rw [returnTo_eq]

@[simp] theorem returnTo_log (k : Caller) (w : World) : (returnTo k w).log = w.log := by
  rw [returnTo_eq]

@[simp] theorem returnTo_stack (k : Caller) (w : World) :
    (returnTo k w).stack = w.stack := by
  rw [returnTo_eq]

@[simp] theorem returnTo_sa (k : Caller) (w : World) : (returnTo k w).sa = w.sa := by
  rw [returnTo_eq]

@[simp] theorem returnTo_lookups (k : Caller) (w : World) :
    (returnTo k w).lookups = w.lookups := by
  rw [returnTo_eq]

@[simp] theorem returnTo_finalized (k : Caller) (w : World) :
    (returnTo k w).finalized = w.finalized := by
  rw [returnTo_eq]

theorem mem_returnTo {k : Caller} {w : World} {s : GSource}
    (h : s ∈ (returnTo k w).ctx.sources) : s ∈ w.ctx.sources := by
  unfold returnTo at h
  split at h
  · exact (GMainContext.mem_destroy.mp h).1
  · exact h

theorem socketReset_eq (w : World) :
    socketReset w =
      { w with
        priv :=
          { w.priv with
            handle := 0
            ioChannel := none
            watches := if w.priv.ioChannel = none then w.priv.watches else {}
            connected := false
            saIter := false }
        kernel := lmSockClose w.kernel w.priv.handle
        ctx := (socketReset w).ctx
        log := w.log ++ [.close w.priv.handle] } := by
  cases h : w.priv.ioChannel <;>
    simp [socketReset, socketCloseHandle, socketDisconnectIoWatches, h]

theorem socketReset_priv (w : World) :
    (socketReset w).priv =
      { w.priv with
        handle := 0
        ioChannel := none
        watches := if w.priv.ioChannel = none then w.priv.watches else {}
        connected := false
        saIter := false } := by
  rw [socketReset_eq]

@[simp] theorem socketReset_connected (w : World) :
    (socketReset w).priv.connected = false := by
  rw [socketReset_eq]

@[simp] theorem socketReset_saIter (w : World) : (socketReset w).priv.saIter = false := by
  rw [socketReset_eq]

@[simp] theorem socketReset_ioChannel (w : World) :
    (socketReset w).priv.ioChannel = none := by
  rw [socketReset_eq]

@[simp] theorem socketReset_kernel (w : World) :
    (socketReset w).kernel = lmSockClose w.kernel w.priv.handle := by
  rw [socketReset_eq]

@[simp] theorem socketReset_found (w : World) : (socketReset w).found = w.found := by
  rw [socketReset_eq]

@[simp] theorem socketReset_log (w : World) :
    (socketReset w).log = w.log ++ [.close w.priv.handle] := by
  rw [socketReset_eq]

@[simp] theorem socketReset_stack (w : World) : (socketReset w).stack = w.stack := by
  rw [socketReset_eq]

@[simp] theorem socketReset_sa (w : World) : (socketReset w).sa = w.sa := by
  rw [socketReset_eq]

@[simp] theorem socketReset_lookups (w : World) : (socketReset w).lookups = w.lookups := by
  rw [socketReset_eq]

@[simp] theorem socketReset_finalized (w : World) :
    (socketReset w).finalized = w.finalized := by
  rw [socketReset_eq]

theorem mem_socketDisconnectWatch {ctx : GMainContext} {watch : Option Nat} {s : GSource} :
    s ∈ (socketDisconnectWatch ctx watch).sources ↔
      s ∈ ctx.sources ∧ watch ≠ some s.id := by
  cases watch with
  | none => simp [socketDisconnectWatch]
  | some id => simp [socketDisconnectWatch, eq_comm]

/-- Nothing is left to do but to return. -/
def Frame.returns : Frame → Bool
  | .connectResult .ok _ => false
  | .closed _ _ => false
  | _ => true

/-- What is left of a function once its handlers are done: another emission, a
reset, or nothing. -/
theorem resume_cases (f : Frame) (w : World) :
    (∃ k, f = .connectResult .ok k ∧ resume f w = w.emit .opened (.opened k)) ∨
    (∃ c k, f = .closed c k ∧ resume f w = returnTo k (socketReset w)) ∨
    (f.returns = true ∧ resume f w = returnTo f.caller w) := by
  match f with
  | .connectResult .ok k => exact Or.inl ⟨k, rfl, rfl⟩
  | .closed c k => exact Or.inr (Or.inl ⟨c, k, rfl, rfl⟩)
  | .connectResult .failedDns k => exact Or.inr (Or.inr ⟨rfl, rfl⟩)
  | .connectResult .failedTriedAll k => exact Or.inr (Or.inr ⟨rfl, rfl⟩)
  | .opened k => exact Or.inr (Or.inr ⟨rfl, rfl⟩)
  | .io k => exact Or.inr (Or.inr ⟨rfl, rfl⟩)

/-- The watch recorded for a condition. -/
def IOWatches.get (ws : IOWatches) : GIOCondition → Option Nat
  | .inn => ws.inWatch
  | .out => ws.outWatch
  | .err => ws.errWatch
  | .hup => ws.hupWatch

/-- A reset destroys exactly the recorded sources, and only when there is an
`io_channel` to take down. -/
theorem mem_socketReset {w : World} {s : GSource} :
    s ∈ (socketReset w).ctx.sources ↔
      s ∈ w.ctx.sources ∧
        (w.priv.ioChannel ≠ none → ∀ c, w.priv.watches.get c ≠ some s.id) := by
  cases h : w.priv.ioChannel with
  | none => simp [socketReset, socketCloseHandle, h]
  | some channel =>
      simp only [socketReset, socketCloseHandle, socketDisconnectIoWatches, h,
        mem_socketDisconnectWatch, ne_eq, reduceCtorEq, not_false_eq_true, true_implies]
      constructor
      · intro h
        obtain ⟨⟨⟨⟨hs, hin⟩, hout⟩, herr⟩, hhup⟩ := h
        refine ⟨hs, fun c => ?_⟩
        cases c <;> assumption
      · intro h
        obtain ⟨hs, hget⟩ := h
        exact ⟨⟨⟨⟨hs, hget .inn⟩, hget .out⟩, hget .err⟩, hget .hup⟩

/-- What a round of attempts says in the log: never that it succeeded, never
that anything closed. -/
def Event.ofAttempts : Event → Bool
  | .resultIter _ | .attempt _ | .socket _ | .close _ => true
  | .emit (.connectResult .failedTriedAll) => true
  | _ => false

/-- What a round of attempts leaves alone, whatever the outcomes. -/
structure Untouched (w w' : World) : Prop where
  log : ∃ evs, w'.log = w.log ++ evs ∧ ∀ e ∈ evs, e.ofAttempts = true
  finalized : w'.finalized = w.finalized
  lookups : w'.lookups = w.lookups
  connected : w'.priv.connected = w.priv.connected
  inWatch : w'.priv.watches.inWatch = w.priv.watches.inWatch
  hupWatch : w'.priv.watches.hupWatch = w.priv.watches.hupWatch

/-- The log grew by `n`, and nothing else `Untouched` speaks of moved. -/
theorem Untouched.extend {w₀ w w' : World} {n : List Event} (h : Untouched w₀ w)
    (hlog : w'.log = w.log ++ n) (hnew : ∀ e ∈ n, e.ofAttempts = true)
    (hfin : w'.finalized = w.finalized) (hlook : w'.lookups = w.lookups)
    (hconn : w'.priv.connected = w.priv.connected)
    (hin : w'.priv.watches.inWatch = w.priv.watches.inWatch)
    (hhup : w'.priv.watches.hupWatch = w.priv.watches.hupWatch) : Untouched w₀ w' := by
  obtain ⟨evs, hevs, hall⟩ := h.log
  refine ⟨⟨evs ++ n, by rw [hlog, hevs, List.append_assoc], fun e he => ?_⟩,
    hfin.trans h.finalized, hlook.trans h.lookups, hconn.trans h.connected,
    hin.trans h.inWatch, hhup.trans h.hupWatch⟩
  rcases List.mem_append.mp he with he | he
  · exact hall e he
  · exact hnew e he

theorem untouched_getIter (w : World) : Untouched w (socketGetIter w) := by
  unfold socketGetIter
  split
  · exact ⟨⟨[], by simp⟩, rfl, rfl, rfl, rfl, rfl⟩
  · exact ⟨⟨[.resultIter w.sa.results], rfl, by simp [Event.ofAttempts]⟩,
      rfl, rfl, rfl, rfl, rfl⟩

theorem socketGetIter_stack (w : World) : (socketGetIter w).stack = w.stack := by
  unfold socketGetIter
  split <;> rfl

/-- A round of attempts either leaves an attempt to wait for or reports that
every address has been tried. -/
theorem untouched_of_next {k : Caller} {os : List SysCalls} {w w' : World}
    (h : socketAttemptConnectNext k os w = some w') :
    Untouched w w' ∧ (w'.stack = w.stack ∨
      w'.stack = .connectResult .failedTriedAll k :: w.stack) := by
  refine attemptLoop_rule (I := fun w₁ => Untouched w w₁ ∧ w₁.stack = w.stack)
    (J := fun w₁ => Untouched w w₁ ∧ (w₁.stack = w.stack ∨
      w₁.stack = .connectResult .failedTriedAll k :: w.stack))
    (C := fun _ => True) ?_ ?_ ?_ ?_ (fun _ _ => trivial)
    ⟨untouched_getIter w, socketGetIter_stack w⟩ h
  · intro w₁ hI _
    refine ⟨hI.1.extend (n := [.emit (.connectResult .failedTriedAll)]) rfl ?_
      rfl rfl rfl rfl rfl, Or.inr ?_⟩
    · simp [Event.ofAttempts]
    · rw [socketEmitConnectResult, World.emit, hI.2]
  · intro w₁ addr rest o hI _ _ _
    exact ⟨hI.1.extend (n := [.attempt addr]) rfl (by simp [Event.ofAttempts])
      rfl rfl rfl rfl rfl, hI.2⟩
  · intro w₁ addr rest o hI _ _ _ _ _
    exact ⟨hI.1.extend (n := [.attempt addr, .socket o.socket, .close o.socket])
      (by simp [socketCloseHandle, attemptStarted, advanced])
      (by simp [Event.ofAttempts]) rfl rfl rfl rfl rfl, hI.2⟩
  · intro w₁ addr rest o hI _ _ _ _ _
    refine ⟨hI.1.extend (n := [.attempt addr, .socket o.socket])
      (by simp [attemptStarted, advanced]) (by simp [Event.ofAttempts])
      ?_ ?_ ?_ ?_ ?_, Or.inl ?_⟩
    · rw [returnTo_finalized]; rfl
    · rw [returnTo_lookups]; rfl
    · rw [returnTo_priv]; rfl
    · rw [returnTo_priv]; rfl
    · rw [returnTo_priv]; rfl
    · rw [returnTo_stack]; exact hI.2

/-! ## One event

`Live w s` is what the main loop has checked before it runs a callback for the
source `s`. -/

structure Live (w : World) (s : GSource) : Prop where
  found : w.ctx.find s.id = some s
  polled : ∃ f ∈ w.found, f.src = s.id
  idle : w.stack = []

theorem Live.attached {w : World} {s : GSource} (h : Live w s) : s ∈ w.ctx.sources :=
  (GMainContext.find_some h.found).1

def startLookup (w : World) : World :=
  { w with
    log := w.log ++ [.connectCall]
    lookups := w.lookups ++ [w.nextLookup]
    nextLookup := w.nextLookup + 1
    priv := { w.priv with resolver := some w.nextLookup } }

def dropLookup (id : Nat) (w : World) : World :=
  { w with lookups := w.lookups.erase id }

def lookedUp (id : Nat) (ai : List AddrInfo) (w : World) : World :=
  { dropLookup id w with sa := lmSocketAddressSetResults w.sa ai }

/-- `SO_ERROR` of the current handle, read and cleared. -/
def readError (garbage : Int) (w : World) : World :=
  { w with kernel := (lmSockGetError w.kernel w.priv.handle garbage).2 }

def readErrorValue (garbage : Int) (w : World) : Int :=
  (lmSockGetError w.kernel w.priv.handle garbage).1

/-- The new state of a socket that found its connect has completed. -/
def connectedNow (w : World) : World :=
  { socketWatchConnection w with
    priv := { (socketWatchConnection w).priv with connected := true } }

theorem connectedNow_none {w : World} (h : w.priv.ioChannel = none) :
    connectedNow w =
      { w with
        priv :=
          { w.priv with
            connected := true
            watches := { w.priv.watches with inWatch := none, hupWatch := none } } } := by
  simp only [connectedNow, socketWatchConnection, h, lmMiscAddIoWatch_none]

theorem connectedNow_some {w : World} {ch : GIOChannel} (h : w.priv.ioChannel = some ch) :
    connectedNow w =
      { w with
        ctx :=
          { sources := w.ctx.sources ++ [⟨w.ctx.nextId, ch, .inn⟩] ++ [⟨w.ctx.nextId + 1, ch, .hup⟩]
            nextId := w.ctx.nextId + 1 + 1 }
        priv :=
          { w.priv with
            connected := true
            watches :=
              { w.priv.watches with
                inWatch := some w.ctx.nextId
                hupWatch := some (w.ctx.nextId + 1) } } } := by
  unfold connectedNow socketWatchConnection
  rw [h]
  rfl

/-- Everything one event can do, a constructor for each way through the
code. -/
inductive Happens (w : World) : Label → World → Prop where
  | connectLookup (hf : w.finalized = false) (hres : w.sa.results = []) :
      Happens w (.connect []) (startLookup w)
  | connectAttempt {os w'} (hf : w.finalized = false) (hres : w.sa.results ≠ [])
      (h : socketAttemptConnectNext .api os (w.note .connectCall) = some w') :
      Happens w (.connect os) w'
  | close (hf : w.finalized = false) : Happens w .close (socketClose w)
  | finalize (hf : w.finalized = false) (hstack : w.stack = []) :
      Happens w .finalize (socketFinalize w)
  | resume {f rest} (hstack : w.stack = f :: rest) :
      Happens w .handlersDone (resume f { w with stack := rest })
  | lateLookup {id ans} (hf : w.finalized = true) (hid : id ∈ w.lookups)
      (hstack : w.stack = []) :
      Happens w (.lookupDone id ans []) ((dropLookup id w).note .callbackAfterFinalize)
  | lookupFailed {id} (hf : w.finalized = false) (hid : id ∈ w.lookups)
      (hstack : w.stack = []) :
      Happens w (.lookupDone id none [])
        (socketEmitConnectResult .failedDns .lookup (dropLookup id w))
  | lookupOk {id ai os w'} (hf : w.finalized = false) (hid : id ∈ w.lookups)
      (hstack : w.stack = [])
      (h : socketAttemptConnectNext .lookup os (lookedUp id ai w) = some w') :
      Happens w (.lookupDone id (some ai) os) w'
  | poll {found} (hstack : w.stack = []) (hdone : ∀ f ∈ w.found, w.ctx.find f.src = none)
      (hfound : ∀ f ∈ found, w.finds f = true) : Happens w (.poll found) { w with found }
  | lateDispatch {s g} (hf : w.finalized = true) (hlive : Live w s) :
      Happens w (.dispatch s.id g []) ((w.take s.id).note .callbackAfterFinalize)
  | readable {s g} (hf : w.finalized = false) (hlive : Live w s)
      (hc : s.condition = .inn) : Happens w (.dispatch s.id g []) (socketInCb s.id (w.take s.id))
  | writeable {s g} (hf : w.finalized = false) (hlive : Live w s)
      (hc : s.condition = .out) (hconn : w.priv.connected = true) :
      Happens w (.dispatch s.id g []) ((w.take s.id).emit .writeable (.io (.watch s.id true)))
  | connected {s g} (hf : w.finalized = false) (hlive : Live w s)
      (hc : s.condition = .out) (hconn : w.priv.connected = false) :
      Happens w (.dispatch s.id g [])
        (socketEmitConnectResult .ok (.watch s.id true) (connectedNow (w.take s.id)))
  | errConnected {s g} (hf : w.finalized = false) (hlive : Live w s)
      (hc : s.condition = .err) (hconn : w.priv.connected = true) :
      Happens w (.dispatch s.id g [])
        (socketEmitDisconnectedAndCleanup .ioError (.watch s.id false) (w.take s.id))
  | errWaiting {s g} (hf : w.finalized = false) (hlive : Live w s)
      (hc : s.condition = .err) (hconn : w.priv.connected = false)
      (herr : lmSockIsBlockingError (readErrorValue g w) = true) :
      Happens w (.dispatch s.id g []) (readError g (w.take s.id))
  | errFailed {s g os w'} (hf : w.finalized = false) (hlive : Live w s)
      (hc : s.condition = .err) (hconn : w.priv.connected = false)
      (herr : lmSockIsBlockingError (readErrorValue g w) = false)
      (h : socketAttemptConnectNext (.watch s.id false) os (readError g (w.take s.id)) =
        some w') :
      Happens w (.dispatch s.id g os) w'
  | hup {s g} (hf : w.finalized = false) (hlive : Live w s) (hc : s.condition = .hup) :
      Happens w (.dispatch s.id g []) (socketHupCb s.id (w.take s.id))
  | connectDone {fd err kernel} (h : w.kernel.connectDone fd err = some kernel) :
      Happens w (.connectDone fd err) { w with kernel }
  | connectionError {fd err kernel} (h : w.kernel.connectionError fd err = some kernel) :
      Happens w (.connectionError fd err) { w with kernel }

theorem lmSocketConnect_cases {os : List SysCalls} {w w' : World}
    (hf : w.finalized = false) (h : lmSocketConnect os w = some w') :
    Happens w (.connect os) w' := by
  unfold lmSocketConnect at h
  cases hres : w.sa.results with
  | nil =>
      simp only [World.note, lmSocketAddressIsResolved, hres, List.isEmpty_nil,
        Bool.not_true, Bool.not_false, if_true] at h
      obtain ⟨rfl, rfl⟩ := noCalls_some h
      exact .connectLookup hf hres
  | cons addr rest =>
      simp only [World.note, lmSocketAddressIsResolved, hres, List.isEmpty_cons,
        Bool.not_false, Bool.not_true, Bool.false_eq_true, if_false] at h
      exact .connectAttempt hf (by simp [hres]) h

theorem reportLookup_cases {id : Nat} {ans : Option (List AddrInfo)} {os : List SysCalls}
    {w w' : World} (h : reportLookup id ans os w = some w') :
    Happens w (.lookupDone id ans os) w' := by
  unfold reportLookup at h
  split at h
  · next hguard =>
      obtain ⟨hid, hstack⟩ := hguard
      simp only [] at h
      split at h
      · next hf =>
          obtain ⟨rfl, rfl⟩ := noCalls_some h
          exact .lateLookup hf hid hstack
      · next hf =>
          have hf : w.finalized = false := by simpa using hf
          cases ans with
          | none =>
              obtain ⟨rfl, rfl⟩ := noCalls_some h
              exact .lookupFailed hf hid hstack
          | some ai => exact .lookupOk hf hid hstack h
  · cases h

theorem socketWatchCb_cases {s : GSource} {g : Int} {os : List SysCalls} {w w' : World}
    (hf : w.finalized = false) (hlive : Live w s)
    (h : socketWatchCb s g os (w.take s.id) = some w') :
    Happens w (.dispatch s.id g os) w' := by
  unfold socketWatchCb at h
  cases hc : s.condition with
  | inn =>
      rw [hc] at h
      obtain ⟨rfl, rfl⟩ := noCalls_some h
      exact .readable hf hlive hc
  | out =>
      rw [hc] at h
      obtain ⟨rfl, rfl⟩ := noCalls_some h
      unfold socketOutCb
      cases hconn : (w.take s.id).priv.connected with
      | true => exact .writeable hf hlive hc hconn
      | false => exact .connected hf hlive hc hconn
  | err =>
      rw [hc] at h
      simp only [socketErrCb] at h
      cases hconn : (w.take s.id).priv.connected with
      | true =>
          simp only [hconn, Bool.not_true, Bool.false_eq_true, if_false] at h
          obtain ⟨rfl, rfl⟩ := noCalls_some h
          exact .errConnected hf hlive hc hconn
      | false =>
          simp only [hconn, Bool.not_false, if_true] at h
          split at h
          · next herr =>
              exact .errFailed hf hlive hc hconn (by simpa [readErrorValue] using herr) h
          · next herr =>
              obtain ⟨rfl, rfl⟩ := noCalls_some h
              exact .errWaiting hf hlive hc hconn (by simpa [readErrorValue] using herr)
  | hup =>
      rw [hc] at h
      obtain ⟨rfl, rfl⟩ := noCalls_some h
      exact .hup hf hlive hc

theorem dispatchWatch_cases {src : Nat} {g : Int} {os : List SysCalls} {w w' : World}
    (h : dispatchWatch src g os w = some w') : Happens w (.dispatch src g os) w' := by
  unfold dispatchWatch at h
  split at h
  · cases h
  · next s hfind =>
      obtain ⟨-, rfl⟩ := GMainContext.find_some hfind
      split at h
      · next hguard =>
          have hlive : Live w s := ⟨hfind, hguard.1, hguard.2⟩
          dsimp only at h
          split at h
          · next hf =>
              obtain ⟨rfl, rfl⟩ := noCalls_some h
              exact .lateDispatch hf hlive
          · next hf => exact socketWatchCb_cases (Bool.not_eq_true _ ▸ hf) hlive h
      · cases h

/-- The inversion of `step`. -/
theorem step_cases {w w' : World} {l : Label} (h : step w l = some w') :
    Happens w l w' := by
  cases l with
  | connect os =>
      simp only [step] at h
      split at h
      · cases h
      · next hf => exact lmSocketConnect_cases (by simpa using hf) h
  | close =>
      simp only [step] at h
      split at h
      · cases h
      · next hf =>
          rw [Option.some.injEq] at h
          exact h ▸ .close (by simpa using hf)
  | finalize =>
      simp only [step] at h
      split at h
      · cases h
      · next hf =>
          rw [not_or, not_not, Bool.not_eq_true] at hf
          rw [Option.some.injEq] at h
          exact h ▸ .finalize hf.1 hf.2
  | handlersDone =>
      simp only [step] at h
      split at h
      · cases h
      · next f rest hstack =>
          rw [Option.some.injEq] at h
          exact h ▸ .resume hstack
  | lookupDone id ans os => exact reportLookup_cases h
  | poll found =>
      simp only [step, pollWatches] at h
      split at h
      · next hguard =>
          rw [Option.some.injEq] at h
          exact h ▸ .poll hguard.1 hguard.2.1 hguard.2.2
      · cases h
  | dispatch src g os => exact dispatchWatch_cases h
  | connectDone fd err =>
      simp only [step, Option.map_eq_some_iff] at h
      obtain ⟨kernel, hk, rfl⟩ := h
      exact .connectDone hk
  | connectionError fd err =>
      simp only [step, Option.map_eq_some_iff] at h
      obtain ⟨kernel, hk, rfl⟩ := h
      exact .connectionError hk

/-! ## One event of the process -/

namespace Process

def otherOpened (addr : AddrInfo) (fd : Int) (w : World) : World :=
  { w with
    kernel :=
      { objs := w.kernel.objs ++ [⟨addr, .established, 0⟩]
        fds := setFd w.kernel.fds fd (some w.kernel.objs.length)
        others := w.kernel.objs.length :: w.kernel.others } }

/-- Like `Ref.Happens`. -/
inductive Happens (w : World) : Label → World → Prop where
  | socket {l w'} (h : Ref.step w l = some w') : Happens w (.socket l) w'
  | lastUnref {f} (hf : w.finalized = false) (hstack : w.stack = [f]) :
      Happens w .lastUnref (returnTo f.caller (socketFinalize { w with stack := [] }))
  | openOther {addr fd} (hvalid : lmSockValid fd = true)
      (hclosed : w.kernel.isOpen fd = false) :
      Happens w (.openOther addr fd) (otherOpened addr fd w)

theorem openOther_of_closed {w : World} (addr : AddrInfo) {fd : Int}
    (hvalid : lmSockValid fd = true) (hclosed : w.kernel.isOpen fd = false) :
    step w (.openOther addr fd) = some (otherOpened addr fd w) := by
  have hconnect := kernel_connect_new w.kernel addr ⟨fd, 0, 0⟩
  show openOther addr fd w = _
  unfold openOther Kernel.socket
  simp only [hvalid, hclosed, if_true, Bool.false_eq_true, if_false, Option.map_some, hconnect]
  rfl

/-- The inversion of `Process.step`. -/
theorem step_cases {w w' : World} {l : Label} (h : step w l = some w') : Happens w l w' := by
  cases l with
  | socket l => exact .socket h
  | lastUnref =>
      have h : lastUnref w = some w' := h
      unfold lastUnref at h
      split at h
      · next f hstack =>
          split at h
          · cases h
          · next hf =>
              rw [Option.some.injEq] at h
              exact h ▸ .lastUnref (Bool.eq_false_iff.mpr hf) hstack
      · cases h
  | openOther addr fd =>
      have hopen : openOther addr fd w = some w' := h
      unfold openOther Kernel.socket at hopen
      cases hvalid : lmSockValid fd with
      | false => simp [hvalid] at hopen
      | true =>
          cases hclosed : w.kernel.isOpen fd with
          | true => simp [hvalid, hclosed] at hopen
          | false =>
              rw [openOther_of_closed addr hvalid hclosed, Option.some.injEq] at h
              exact h ▸ .openOther hvalid hclosed

end Process

/-! ## Addresses for concrete runs -/

def sampleAddr (host : UInt8) : AddrInfo :=
  { aiFlags := 0, aiFamily := 2, aiSocktype := 1, aiProtocol := 6
    aiAddr := [2, 0, 20, 102, 10, 0, 0, host], aiCanonname := none }

/-- A resolved address with three results. -/
def sampleSa : LmSocketAddress :=
  { hostname := "example", port := 5222
    results := [sampleAddr 1, sampleAddr 2, sampleAddr 3] }

end LmTransport.Ref
