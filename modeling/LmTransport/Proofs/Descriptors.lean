import LmTransport.Proofs.SocketSteps
import LmTransport.Lib.Lifecycle

/-!
# Who closes which descriptor

`socket_reset` closes `priv->handle` without asking whether there is anything
in it, and `socket_attempt_connect` overwrites it without asking whether there
was. Both are harmless exactly while attempts and resets alternate, and the
condition of this file is that alternation: `socket()` is called while the
handle is not an open descriptor of the socket, the reset runs while it is.

Under it the socket never has a descriptor open but the one in the handle
(`OnlyHandle`), and the descriptors it holds according to its own log are the
ones the kernel has open for it. Without it, finalizing a socket that was
never connected already closes descriptor zero.
-/

namespace LmTransport.Ref

open Lts

/-- The answers to the system calls of a step. -/
def Label.calls : Label → List SysCalls
  | .connect os => os
  | .lookupDone _ _ os => os
  | .dispatch _ _ os => os
  | _ => []

/-- The step runs `socket_reset`: finalization does, and so does what is left
of `socket_emit_disconnected_and_cleanup` after the emission. -/
def runsReset (w : World) : Label → Bool
  | .finalize => true
  | .handlersDone =>
      match w.stack with
      | .closed _ _ :: _ => true
      | _ => false
  | _ => false

/-- The log, read as a trace of descriptors obtained and closed. -/
def descEvents (log : List Event) : List (Lifecycle.Ev Int) :=
  log.filterMap fun
    | .socket fd => some (.acquire fd)
    | .close fd => some (.release fd)
    | _ => none

@[simp] theorem descEvents_append (log log' : List Event) :
    descEvents (log ++ log') = descEvents log ++ descEvents log' :=
  List.filterMap_append

/-- No descriptor of the socket is open. -/
def NoneOpen (w : World) : Prop := ∀ fd, w.kernel.isOpen fd = false

/-- No descriptor of the socket is open but the one in `priv->handle`. -/
def OnlyHandle (w : World) : Prop :=
  ∀ fd, w.kernel.isOpen fd = true → fd = w.priv.handle

theorem NoneOpen.onlyHandle {w : World} (h : NoneOpen w) : OnlyHandle w :=
  fun fd hfd => absurd hfd (by simp [h fd])

theorem OnlyHandle.noneOpen {w : World} (h : OnlyHandle w)
    (hclosed : w.kernel.isOpen w.priv.handle = false) : NoneOpen w := by
  intro fd
  cases hfd : w.kernel.isOpen fd with
  | false => rfl
  | true => rw [h fd hfd, hclosed] at hfd; cases hfd

/-- `socket()` is called only while the handle holds no open descriptor. -/
def HandleFree (w : World) (l : Label) : Prop :=
  l.calls ≠ [] → w.kernel.isOpen w.priv.handle = false

/-- And the handle is reset only while it does. -/
def HandleInStep (w : World) (l : Label) : Prop :=
  HandleFree w l ∧ (runsReset w l = true → w.kernel.isOpen w.priv.handle = true)

instance (w : World) (l : Label) : Decidable (HandleFree w l) :=
  inferInstanceAs (Decidable (_ → _))

instance (w : World) (l : Label) : Decidable (HandleInStep w l) :=
  inferInstanceAs (Decidable (_ ∧ _))

/-! ## One open descriptor at most -/

theorem isOpen_attemptStarted {addr : AddrInfo} {o : SysCalls} {w : World} {fd : Int} :
    (attemptStarted addr o w).kernel.isOpen fd = (fd = o.socket || w.kernel.isOpen fd) := by
  show Kernel.isOpen ⟨_, setFd _ _ _, _⟩ fd = _
  rw [isOpen_setFd]
  by_cases h : fd = o.socket <;> simp [h, Kernel.isOpen]

theorem NoneOpen.started {addr : AddrInfo} {o : SysCalls} {w : World} (h : NoneOpen w) :
    OnlyHandle (attemptStarted addr o w) := by
  intro fd hfd
  rw [isOpen_attemptStarted, h fd, Bool.or_false, decide_eq_true_eq] at hfd
  exact hfd

theorem OnlyHandle.closeHandle {w : World} (h : OnlyHandle w) :
    NoneOpen (socketCloseHandle w) := by
  intro fd
  show (lmSockClose w.kernel w.priv.handle).isOpen fd = false
  rw [isOpen_lmSockClose]
  cases hfd : w.kernel.isOpen fd with
  | false => exact Bool.and_false _
  | true => simp [h fd hfd]

theorem OnlyHandle.congr {w w' : World} (h : OnlyHandle w)
    (hfds : w'.kernel.fds = w.kernel.fds) (hhandle : w'.priv.handle = w.priv.handle) :
    OnlyHandle w' := by
  intro fd hfd
  rw [Kernel.isOpen, hfds] at hfd
  rw [hhandle]
  exact h fd hfd

theorem OnlyHandle.reset {w : World} (h : OnlyHandle w) : NoneOpen (socketReset w) := by
  intro fd
  rw [socketReset_kernel]
  exact h.closeHandle fd

theorem OnlyHandle.attempts {k : Caller} {os : List SysCalls} {w w' : World}
    (h : OnlyHandle w) (hnone : os ≠ [] → NoneOpen w)
    (hnext : socketAttemptConnectNext k os w = some w') : OnlyHandle w' := by
  have hiter : OnlyHandle (socketGetIter w) ∧ (os ≠ [] → NoneOpen (socketGetIter w)) := by
    unfold socketGetIter
    split
    · exact ⟨h, hnone⟩
    · exact ⟨h, fun hos => hnone hos⟩
  refine attemptLoop_rule (C := fun _ => os ≠ [])
    (I := fun w₁ => OnlyHandle w₁ ∧ (os ≠ [] → NoneOpen w₁)) (J := OnlyHandle)
    ?_ ?_ ?_ ?_ (fun o ho => List.ne_nil_of_mem ho) hiter hnext
  · intro w₁ hI _
    exact hI.1
  · intro w₁ addr rest o hI _ hos _
    have hnone₁ : NoneOpen (attemptNoSocket addr o.socket (advanced rest w₁)) := hI.2 hos
    exact ⟨hnone₁.onlyHandle, fun _ => hnone₁⟩
  · intro w₁ addr rest o hI _ hos _ _ _
    have hadv : NoneOpen (advanced rest w₁) := hI.2 hos
    exact ⟨hadv.started.closeHandle.onlyHandle, fun _ => hadv.started.closeHandle⟩
  · intro w₁ addr rest o hI _ hos _ _ _
    have hadv : NoneOpen (advanced rest w₁) := hI.2 hos
    exact hadv.started.congr (by rw [returnTo_kernel]) (by rw [returnTo_priv])

theorem OnlyHandle.resume {f : Frame} {rest : List Frame} {w : World} (h : OnlyHandle w) :
    OnlyHandle (resume f { w with stack := rest }) := by
  have hret : ∀ {w₁ : World} (k : Caller), OnlyHandle w₁ → OnlyHandle (returnTo k w₁) :=
    fun k h₁ => h₁.congr (by rw [returnTo_kernel]) (by rw [returnTo_priv])
  have hpop : OnlyHandle { w with stack := rest } := h
  rcases resume_cases f { w with stack := rest } with
    ⟨k, rfl, hw⟩ | ⟨c, k, rfl, hw⟩ | ⟨-, hw⟩ <;> rw [hw]
  · exact h
  · exact hret k hpop.reset.onlyHandle
  · exact hret f.caller hpop

theorem onlyHandle_step {w w' : World} {l : Label} (h : OnlyHandle w) (hc : HandleFree w l)
    (hstep : step w l = some w') : OnlyHandle w' := by
  have hnone : l.calls ≠ [] → NoneOpen w := fun hl => h.noneOpen (hc hl)
  cases step_cases hstep with
  | connectLookup _ _ | close _ | lateLookup _ _ _ | lookupFailed _ _ _ | poll _ _ _
  | lateDispatch _ _ | readable _ _ _ | writeable _ _ _ _ | connected _ _ _ _
  | errConnected _ _ _ _ | hup _ _ _ => exact h
  | connectAttempt _ _ hnext =>
      exact OnlyHandle.attempts (w := w.note .connectCall) h hnone hnext
  | finalize _ _ => exact h.reset.onlyHandle
  | resume _ => exact h.resume
  | lookupOk _ _ _ hnext =>
      exact OnlyHandle.attempts (w := lookedUp _ _ w) h hnone hnext
  | errWaiting _ _ _ _ _ => exact h.congr (lmSockGetError_fds ..) rfl
  | errFailed _ _ _ _ _ hnext =>
      refine OnlyHandle.attempts (w := readError _ (w.take _)) (h.congr (lmSockGetError_fds ..) rfl)
        (fun hos fd => ?_) hnext
      rw [readError, isOpen_lmSockGetError]
      exact hnone hos fd
  | connectDone hk =>
      obtain ⟨o, -, -, -, rfl⟩ := connectDone_some hk
      exact h.congr (modify_fds ..) rfl
  | connectionError hk =>
      obtain ⟨o, -, -, -, -, rfl⟩ := connectionError_some hk
      exact h.congr (modify_fds ..) rfl

theorem onlyHandle_new (sa : LmSocketAddress) : OnlyHandle (lmSocketNew sa) :=
  fun fd hfd => by simp [lmSocketNew, Kernel.isOpen] at hfd

/-! ## The bookkeeping invariant -/

/-- The socket owns what the kernel has open for it, it has closed nothing
else, and it forgets nothing. -/
structure DescOwned (w : World) : Prop where
  sound : Lifecycle.Sound ∅ (descEvents w.log)
  held : ∀ fd, fd ∈ Lifecycle.held ∅ (descEvents w.log) ↔ w.kernel.isOpen fd = true
  gone : w.finalized = true → NoneOpen w

theorem descOwned_new (sa : LmSocketAddress) : DescOwned (lmSocketNew sa) where
  sound := trivial
  held := fun fd => by simp [lmSocketNew, descEvents, Kernel.isOpen]
  gone := fun h => by cases h

/-- A step that opens, closes and forgets nothing. -/
theorem DescOwned.congr {w w' : World} (h : DescOwned w)
    (hfds : w'.kernel.fds = w.kernel.fds)
    (hlog : descEvents w'.log = descEvents w.log)
    (hfin : w'.finalized = w.finalized) : DescOwned w' := by
  have hopen : ∀ fd, w'.kernel.isOpen fd = w.kernel.isOpen fd := fun fd => by
    rw [Kernel.isOpen, hfds, Kernel.isOpen]
  refine ⟨by rw [hlog]; exact h.sound, fun fd => ?_, fun hw fd => ?_⟩
  · rw [hlog, hopen]
    exact h.held fd
  · rw [hopen]
    exact h.gone (hfin ▸ hw) fd

theorem DescOwned.noSocket {addr : AddrInfo} {fd : Int} {w : World} (h : DescOwned w)
    (hnone : NoneOpen w) : DescOwned (attemptNoSocket addr fd w) where
  sound := by
    show Lifecycle.Sound ∅ (descEvents (w.log ++ [.attempt addr]))
    simpa [descEvents] using h.sound
  held := fun x => by
    show x ∈ Lifecycle.held ∅ (descEvents (w.log ++ [.attempt addr])) ↔
      w.kernel.isOpen x = true
    simpa [descEvents] using h.held x
  gone := fun _ => hnone

theorem DescOwned.started {addr : AddrInfo} {o : SysCalls} {w : World} (h : DescOwned w)
    (hf : w.finalized = false) (hnone : NoneOpen w) :
    DescOwned (attemptStarted addr o w) := by
  have hevs : descEvents (attemptStarted addr o w).log =
      descEvents w.log ++ [.acquire o.socket] := by
    simp [attemptStarted, descEvents]
  refine ⟨?_, fun fd => ?_, fun hw => ?_⟩
  · rw [hevs, Lifecycle.sound_append]
    refine ⟨h.sound, ?_, trivial⟩
    show o.socket ∉ _
    rw [h.held, hnone]
    simp
  · rw [hevs, Lifecycle.held_append, isOpen_attemptStarted]
    show fd ∈ Lifecycle.apply _ (.acquire o.socket) ↔ _
    rw [Lifecycle.mem_apply_acquire, h.held]
    simp
  · rw [show (attemptStarted addr o w).finalized = w.finalized from rfl, hf] at hw
    cases hw

theorem DescOwned.closeHandle {w : World} (h : DescOwned w) (honly : OnlyHandle w)
    (hopen : w.kernel.isOpen w.priv.handle = true) : DescOwned (socketCloseHandle w) := by
  have hevs : descEvents (socketCloseHandle w).log =
      descEvents w.log ++ [.release w.priv.handle] := by
    simp [socketCloseHandle, descEvents]
  refine ⟨?_, fun fd => ?_, fun _ => honly.closeHandle⟩
  · rw [hevs, Lifecycle.sound_append]
    refine ⟨h.sound, ?_, trivial⟩
    show w.priv.handle ∈ _
    rw [h.held]
    exact hopen
  · rw [hevs, Lifecycle.held_append]
    show fd ∈ Lifecycle.apply _ (.release w.priv.handle) ↔
      (lmSockClose w.kernel w.priv.handle).isOpen fd = true
    rw [Lifecycle.mem_apply_release, h.held, isOpen_lmSockClose]
    simp

/-- The reset closes the handle and is otherwise invisible to the
descriptors. -/
theorem DescOwned.reset {w : World} (h : DescOwned w) (honly : OnlyHandle w)
    (hopen : w.kernel.isOpen w.priv.handle = true) : DescOwned (socketReset w) :=
  (h.closeHandle honly hopen).congr (by rw [socketReset_kernel]; rfl)
    (by rw [socketReset_log]; rfl) (by rw [socketReset_finalized]; rfl)

/-- A whole round of attempts. If it makes a system call at all, nothing was
open when it started, and nothing is between two attempts. -/
theorem DescOwned.attempts {k : Caller} {os : List SysCalls} {w w' : World}
    (h : DescOwned w) (hf : w.finalized = false) (hnone : os ≠ [] → NoneOpen w)
    (hnext : socketAttemptConnectNext k os w = some w') : DescOwned w' := by
  have hiter : DescOwned (socketGetIter w) ∧ (socketGetIter w).finalized = false ∧
      (os ≠ [] → NoneOpen (socketGetIter w)) := by
    unfold socketGetIter
    split
    · exact ⟨h, hf, hnone⟩
    · refine ⟨h.congr rfl ?_ rfl, hf, fun hos => hnone hos⟩
      simp [descEvents]
  refine attemptLoop_rule (C := fun _ => os ≠ [])
    (I := fun w₁ => DescOwned w₁ ∧ w₁.finalized = false ∧ (os ≠ [] → NoneOpen w₁))
    (J := DescOwned) ?_ ?_ ?_ ?_ (fun o ho => List.ne_nil_of_mem ho) hiter hnext
  · intro w₁ hI _
    refine hI.1.congr rfl ?_ rfl
    simp [socketEmitConnectResult, World.emit, descEvents]
  · intro w₁ addr rest o hI _ hos _
    have hadv : DescOwned (advanced rest w₁) := hI.1.congr rfl rfl rfl
    exact ⟨hadv.noSocket (hI.2.2 hos), hI.2.1, fun hos fd => hI.2.2 hos fd⟩
  · intro w₁ addr rest o hI _ hos _ _ _
    have hadv : DescOwned (advanced rest w₁) := hI.1.congr rfl rfl rfl
    have hstart : DescOwned (attemptStarted addr o (advanced rest w₁)) :=
      hadv.started hI.2.1 (hI.2.2 hos)
    have hadvNone : NoneOpen (advanced rest w₁) := hI.2.2 hos
    refine ⟨hstart.closeHandle hadvNone.started ?_, hI.2.1,
      fun _ => hadvNone.started.closeHandle⟩
    rw [isOpen_attemptStarted]
    simp [attemptStarted]
  · intro w₁ addr rest o hI _ hos _ _ _
    have hadv : DescOwned (advanced rest w₁) := hI.1.congr rfl rfl rfl
    exact (hadv.started hI.2.1 (hI.2.2 hos)).congr (by rw [returnTo_kernel])
      (by rw [returnTo_log]) (by rw [returnTo_finalized])

theorem DescOwned.resume {f : Frame} {rest : List Frame} {w : World} (h : DescOwned w)
    (honly : OnlyHandle w)
    (hopen : ∀ c k, f = .closed c k → w.kernel.isOpen w.priv.handle = true) :
    DescOwned (resume f { w with stack := rest }) := by
  have hpop : DescOwned { w with stack := rest } := h.congr rfl rfl rfl
  have hret : ∀ {w₁ : World} (k : Caller), DescOwned w₁ → DescOwned (returnTo k w₁) :=
    fun k h₁ => h₁.congr (by rw [returnTo_kernel]) (by rw [returnTo_log])
      (by rw [returnTo_finalized])
  rcases resume_cases f { w with stack := rest } with
    ⟨k, rfl, hw⟩ | ⟨c, k, rfl, hw⟩ | ⟨-, hw⟩ <;> rw [hw]
  · exact hpop.congr rfl (by simp [World.emit, descEvents]) rfl
  · exact hret k (hpop.reset honly (hopen c k rfl))
  · exact hret f.caller hpop

theorem descOwned_step {w w' : World} {l : Label} (h : DescOwned w)
    (honly : OnlyHandle w) (hc : HandleInStep w l) (hstep : step w l = some w') : DescOwned w' := by
  have hnone : l.calls ≠ [] → NoneOpen w := fun hl => honly.noneOpen (hc.1 hl)
  have hnote : ∀ e : Event, descEvents [e] = [] → descEvents (w.log ++ [e]) = descEvents w.log :=
    fun e he => by rw [descEvents_append, he, List.append_nil]
  cases step_cases hstep with
  | connectLookup _ _ | close _ | lateLookup _ _ _ | lookupFailed _ _ _ | lateDispatch _ _
  | readable _ _ _ | writeable _ _ _ _ | connected _ _ _ _ | errConnected _ _ _ _
  | hup _ _ _ => exact h.congr rfl (hnote _ rfl) rfl
  | connectAttempt hf _ hnext =>
      exact DescOwned.attempts (w := w.note .connectCall) (h.congr rfl (hnote _ rfl) rfl) hf
        hnone hnext
  | finalize _ _ =>
      have hreset := h.reset honly (hc.2 rfl)
      exact ⟨hreset.sound, hreset.held, fun _ => honly.reset⟩
  | resume hstack =>
      refine h.resume honly fun c k hf => hc.2 ?_
      simp [runsReset, hstack, hf]
  | lookupOk hf _ _ hnext =>
      exact DescOwned.attempts (w := lookedUp _ _ w) (h.congr rfl rfl rfl) hf hnone hnext
  | poll _ _ _ => exact h.congr rfl rfl rfl
  | errWaiting _ _ _ _ _ => exact h.congr (lmSockGetError_fds ..) rfl rfl
  | errFailed hf _ _ _ _ hnext =>
      refine DescOwned.attempts (w := readError _ (w.take _))
        (h.congr (lmSockGetError_fds ..) rfl rfl) hf (fun hos fd => ?_) hnext
      rw [readError, isOpen_lmSockGetError]
      exact hnone hos fd
  | connectDone hk =>
      obtain ⟨o, -, -, -, rfl⟩ := connectDone_some hk
      exact h.congr (modify_fds ..) rfl rfl
  | connectionError hk =>
      obtain ⟨o, -, -, -, -, rfl⟩ := connectionError_some hk
      exact h.congr (modify_fds ..) rfl rfl

/-! ## Ownership over whole runs -/

/-- Every descriptor the socket closed was one it had obtained and not closed
since, and once it is finalized every descriptor it obtained has been closed
exactly once. -/
def OwnsDescriptors (w : World) : Prop :=
  Lifecycle.Sound ∅ (descEvents w.log) ∧
    (w.finalized = true → Lifecycle.held ∅ (descEvents w.log) = ∅ ∧
      ∀ fd, (descEvents w.log).count (.release fd) = (descEvents w.log).count (.acquire fd))

theorem DescOwned.owns {w : World} (h : DescOwned w) : OwnsDescriptors w := by
  refine ⟨h.sound, fun hf => ?_⟩
  have hend : Lifecycle.held ∅ (descEvents w.log) = ∅ := by
    refine Finset.eq_empty_of_forall_notMem fun fd hfd => ?_
    rw [h.held, h.gone hf fd] at hfd
    cases hfd
  exact ⟨hend, Lifecycle.count_release_eq h.sound hend⟩

theorem descriptors_owned (sa : LmSocketAddress) (as : List Label) (w : World)
    (hc : Meets step HandleInStep (lmSocketNew sa) as)
    (hrun : exec step (lmSocketNew sa) as = some w) : OwnsDescriptors w :=
  (exec_invariant (I := fun w => DescOwned w ∧ OnlyHandle w)
    (fun _ _ _ h hl hs => ⟨descOwned_step h.1 h.2 hl hs, onlyHandle_step h.2 hl.1 hs⟩)
    ⟨descOwned_new sa, onlyHandle_new sa⟩ hc hrun).1.owns

theorem descriptors_owned_connect :
    ∃ w, exec step (lmSocketNew sampleSa) [.connect [⟨5, 0, 0⟩], .finalize] = some w ∧
      OwnsDescriptors w :=
  ⟨_, rfl, descriptors_owned sampleSa [.connect [⟨5, 0, 0⟩], .finalize] _ (by decide) rfl⟩

/-- Finalizing a socket that never connected closes descriptor zero, which it
never opened. -/
theorem finalize_closes_foreign :
    ∃ w, exec step (lmSocketNew sampleSa) [.finalize] = some w ∧ ¬ OwnsDescriptors w :=
  ⟨_, rfl, fun h => absurd h.1 (by decide)⟩

end LmTransport.Ref
