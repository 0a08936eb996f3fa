import LmTransport.Proofs.SocketSteps

/-!
# A finalized socket

The socket hands itself out as the data of its watches and of a handler on the
resolver of a pending lookup, and holds no reference for any of them.
`socket_finalize` takes back what `socket_reset` takes back: the recorded
watches, when there is an `io_channel`. Nothing disconnects the handler, and
nothing destroys a watch whose record was overwritten.

Whatever is left can be called. A pending lookup reports some day, and a watch
needs only a descriptor with the number it polls, which the process can open
again. So the condition below is exact at every point where the last reference
may go.
-/

namespace LmTransport.Ref

open Lts

/-! ## Descriptors that can become ready -/

/-- `connect()` has been called. -/
def ConnStatus.called : ConnStatus → Bool
  | .noSocket | .idle => false
  | _ => true

/-- Between events every open descriptor has been connected, or tried to. -/
def Kernel.Called (k : Kernel) : Prop :=
  ∀ fd, k.isOpen fd = true → ∃ o, k.obj fd = some o ∧ o.status.called = true

theorem SysCalls.status_called (o : SysCalls) : o.status.called = true := by
  unfold SysCalls.status
  split
  · rfl
  · split
    · rfl
    · rfl

theorem obj_modify_self {k : Kernel} {fd : Int} {f : SockObj → SockObj} {o : SockObj}
    (h : k.obj fd = some o) : (k.modify fd f).obj fd = some (f o) := by
  obtain ⟨i, hi, hoi⟩ := obj_some.mp h
  refine obj_some.mpr ⟨i, ?_, ?_⟩
  · rw [modify_fds, hi]
  · rw [Kernel.modify, hi]
    simp [hoi]

theorem Kernel.Called.modify {k : Kernel} {fd : Int} {f : SockObj → SockObj} (h : k.Called)
    (hf : ∀ o, o.status.called = true → (f o).status.called = true) :
    (k.modify fd f).Called := by
  intro x hx
  rw [Kernel.isOpen, modify_fds] at hx
  obtain ⟨o, ho, hcalled⟩ := h x hx
  rcases @obj_modify _ fd _ f _ ho with hsame | ⟨-, hnew⟩
  · exact ⟨o, hsame, hcalled⟩
  · exact ⟨f o, hnew, hf o hcalled⟩

theorem Kernel.Called.close {k : Kernel} (h : k.Called) (fd : Int) :
    (lmSockClose k fd).Called := by
  intro x hx
  rw [isOpen_lmSockClose, Bool.and_eq_true, decide_eq_true_eq] at hx
  obtain ⟨o, ho, hcalled⟩ := h x hx.2
  obtain ⟨i, hi, hoi⟩ := obj_some.mp ho
  exact ⟨o, obj_some.mpr ⟨i, (setFd_of_ne hx.1).trans hi, hoi⟩, hcalled⟩

/-- Objects are added at the end, where no descriptor points yet. -/
theorem obj_append {k : Kernel} {fd : Int} {o : SockObj} (new : SockObj)
    (h : k.obj fd = some o) : Kernel.obj { k with objs := k.objs ++ [new] } fd = some o := by
  obtain ⟨i, hi, hoi⟩ := obj_some.mp h
  refine obj_some.mpr ⟨i, hi, ?_⟩
  obtain ⟨hlt, -⟩ := List.getElem?_eq_some_iff.mp hoi
  show (k.objs ++ [new])[i]? = some o
  rw [List.getElem?_append_left hlt, hoi]

theorem Kernel.Called.noSocket {k : Kernel} (h : k.Called) (new : SockObj) :
    Kernel.Called { k with objs := k.objs ++ [new] } := by
  intro x hx
  obtain ⟨o, ho, hcalled⟩ := h x hx
  exact ⟨o, obj_append new ho, hcalled⟩

theorem Kernel.Called.opened {k : Kernel} (h : k.Called) (fd : Int) {o : SockObj}
    (ho : o.status.called = true) (others : List Nat) :
    Kernel.Called
      { objs := k.objs ++ [o], fds := setFd k.fds fd (some k.objs.length), others } := by
  intro x hx
  by_cases hfd : x = fd
  · subst hfd
    refine ⟨o, obj_some.mpr ⟨k.objs.length, setFd_self .., ?_⟩, ho⟩
    show (k.objs ++ [o])[k.objs.length]? = some o
    rw [List.getElem?_append_right (Nat.le_refl _), Nat.sub_self]
    rfl
  · rw [isOpen_setFd, if_neg hfd] at hx
    obtain ⟨old, hold, hcalled⟩ := h x hx
    obtain ⟨i, hi, hoi⟩ := obj_some.mp (obj_append o hold)
    exact ⟨old, obj_some.mpr ⟨i, (setFd_of_ne hfd).trans hi, hoi⟩, hcalled⟩

theorem ready_of_failed {k : Kernel} {fd : Int} {o : SockObj} (h : k.obj fd = some o)
    (ho : o.status = .refused ∨ o.status = .reset) (c : GIOCondition) :
    k.ready fd c = true := by
  unfold Kernel.ready
  rw [h]
  rcases ho with ho | ho
  · simp [ho]
  · simp [ho]

/-- An open descriptor becomes ready for whatever it is watched for. -/
theorem Kernel.Called.breaks {k : Kernel} (h : k.Called) {fd : Int}
    (hopen : k.isOpen fd = true) (c : GIOCondition) :
    k.ready fd c = true ∨
      ∃ k', (k.connectDone fd 111 = some k' ∨ k.connectionError fd 104 = some k') ∧
        k'.ready fd c = true := by
  obtain ⟨o, ho, hcalled⟩ := h fd hopen
  cases hs : o.status with
  | noSocket => rw [hs] at hcalled; cases hcalled
  | idle => rw [hs] at hcalled; cases hcalled
  | inProgress =>
      have hdone : k.connectDone fd 111 =
          some (k.modify fd fun o => { o with status := .refused, soError := 111 }) := by
        simp [Kernel.connectDone, ho, hs, eInProgress]
      have hnew := obj_modify_self
        (f := fun o => { o with status := .refused, soError := 111 }) ho
      exact Or.inr ⟨_, Or.inl hdone, ready_of_failed hnew (Or.inl rfl) c⟩
  | established =>
      have herror : k.connectionError fd 104 =
          some (k.modify fd fun o => { o with status := .reset, soError := 104 }) := by
        simp [Kernel.connectionError, ho, hs, eInProgress]
      have hnew := obj_modify_self
        (f := fun o => { o with status := .reset, soError := 104 }) ho
      exact Or.inr ⟨_, Or.inr herror, ready_of_failed hnew (Or.inr rfl) c⟩
  | refused => exact Or.inl (ready_of_failed ho (Or.inl hs) c)
  | reset => exact Or.inl (ready_of_failed ho (Or.inr hs) c)

/-! ## What a run keeps

A source polls a number `socket()` has returned. -/

structure Polled (w : World) : Prop where
  called : w.kernel.Called
  sources : ∀ s ∈ w.ctx.sources, lmSockValid s.channel.fd = true
  channel : ∀ ch, w.priv.ioChannel = some ch → lmSockValid ch.fd = true

theorem Polled.congr {w w' : World} (h : Polled w) (hkernel : w'.kernel = w.kernel)
    (hctx : ∀ s ∈ w'.ctx.sources, s ∈ w.ctx.sources)
    (hch : w'.priv.ioChannel = w.priv.ioChannel) : Polled w' where
  called := hkernel ▸ h.called
  sources s hs := h.sources s (hctx s hs)
  channel ch hsome := h.channel ch (hch ▸ hsome)

theorem Polled.kernel {w : World} (h : Polled w) {kernel : Kernel} (hk : kernel.Called) :
    Polled { w with kernel } :=
  ⟨hk, h.sources, h.channel⟩

theorem Polled.returnTo {w : World} (h : Polled w) (k : Caller) : Polled (returnTo k w) :=
  h.congr (returnTo_kernel k w) (fun _ hs => mem_returnTo hs) (by rw [returnTo_priv])

theorem Polled.reset {w : World} (h : Polled w) : Polled (socketReset w) where
  called := by
    rw [socketReset_kernel]
    exact h.called.close _
  sources s hs := h.sources s (mem_socketReset.mp hs).1
  channel ch hsome := by
    rw [socketReset_ioChannel] at hsome
    cases hsome

theorem Polled.started {addr : AddrInfo} {o : SysCalls} {w : World} (h : Polled w)
    (hvalid : lmSockValid o.socket = true) : Polled (attemptStarted addr o w) where
  called := h.called.opened _ o.status_called _
  sources s hs := by
    simp only [attemptStarted, List.mem_append, List.mem_singleton] at hs
    rcases hs with (hs | rfl) | rfl
    · exact h.sources s hs
    · exact hvalid
    · exact hvalid
  channel ch hsome := by
    injection hsome with hch
    subst hch
    exact hvalid

theorem Polled.attempts {k : Caller} {os : List SysCalls} {w w' : World} (h : Polled w)
    (hnext : socketAttemptConnectNext k os w = some w') : Polled w' := by
  have hiter : Polled (socketGetIter w) := by
    unfold socketGetIter
    split
    · exact h
    · exact h.congr rfl (fun _ hs => hs) rfl
  refine attemptLoop_rule (C := fun _ => True) (I := Polled) (J := Polled)
    ?_ ?_ ?_ ?_ (fun _ _ => trivial) hiter hnext
  · intro w₁ hI _
    exact hI.congr rfl (fun _ hs => hs) rfl
  · intro w₁ addr rest o hI _ _ _
    exact ⟨hI.called.noSocket _, hI.sources, hI.channel⟩
  · intro w₁ addr rest o hI _ _ hvalid _ _
    have hadv : Polled (advanced rest w₁) := hI.congr rfl (fun _ hs => hs) rfl
    have hstart := @Polled.started addr o _ hadv hvalid
    exact ⟨hstart.called.close _, hstart.sources, hstart.channel⟩
  · intro w₁ addr rest o hI _ _ hvalid _ _
    have hadv : Polled (advanced rest w₁) := hI.congr rfl (fun _ hs => hs) rfl
    exact (@Polled.started addr o _ hadv hvalid).returnTo k

theorem Polled.connectedNow {w : World} (h : Polled w) : Polled (connectedNow w) := by
  cases hch : w.priv.ioChannel with
  | none =>
      rw [connectedNow_none hch]
      exact h.congr rfl (fun _ hs => hs) rfl
  | some ch =>
      rw [connectedNow_some hch]
      refine ⟨h.called, fun s hs => ?_, h.channel⟩
      simp only [List.mem_append, List.mem_singleton] at hs
      rcases hs with (hs | rfl) | rfl
      · exact h.sources s hs
      · exact h.channel _ hch
      · exact h.channel _ hch

theorem called_getError {k : Kernel} (h : k.Called) (fd garbage : Int) :
    (lmSockGetError k fd garbage).2.Called := by
  unfold lmSockGetError
  split
  · exact h
  · exact h.modify fun o ho => ho

theorem polled_step {w w' : World} {l : Label} (h : Polled w)
    (hs : Ref.step w l = some w') : Polled w' := by
  have hsame {v : World} (hk : v.kernel = w.kernel) (hctx : v.ctx = w.ctx)
      (hch : v.priv.ioChannel = w.priv.ioChannel) : Polled v :=
    h.congr hk (fun s hs => hctx ▸ hs) hch
  cases step_cases hs with
  | connectLookup _ _ => exact hsame rfl rfl rfl
  | connectAttempt _ _ hnext =>
      refine Polled.attempts ?_ hnext
      exact hsame rfl rfl rfl
  | close _ => exact hsame rfl rfl rfl
  | finalize _ _ => exact h.reset.congr rfl (fun _ hs => hs) rfl
  | @resume f rest _ =>
      have hrest : Polled { w with stack := rest } := hsame rfl rfl rfl
      rcases resume_cases f { w with stack := rest } with
        ⟨k, -, hw⟩ | ⟨c, k, -, hw⟩ | ⟨-, hw⟩
      · rw [hw]
        exact hsame rfl rfl rfl
      · rw [hw]
        exact hrest.reset.returnTo k
      · rw [hw]
        exact hrest.returnTo _
  | lateLookup _ _ _ => exact hsame rfl rfl rfl
  | poll _ _ _ => exact hsame rfl rfl rfl
  | lookupFailed _ _ _ => exact hsame rfl rfl rfl
  | lookupOk _ _ _ hnext =>
      refine Polled.attempts ?_ hnext
      exact hsame rfl rfl rfl
  | lateDispatch _ _ => exact hsame rfl rfl rfl
  | readable _ _ _ => exact hsame rfl rfl rfl
  | writeable _ _ _ _ => exact hsame rfl rfl rfl
  | @connected s _ _ _ _ _ =>
      have htake : Polled (w.take s.id) := hsame rfl rfl rfl
      exact htake.connectedNow.congr rfl (fun _ hs => hs) rfl
  | errConnected _ _ _ _ => exact hsame rfl rfl rfl
  | @errWaiting s _ _ _ _ _ _ =>
      have htake : Polled (w.take s.id) := hsame rfl rfl rfl
      exact htake.kernel (called_getError h.called _ _)
  | @errFailed s _ _ _ _ _ _ _ _ hnext =>
      have htake : Polled (w.take s.id) := hsame rfl rfl rfl
      exact Polled.attempts (htake.kernel (called_getError h.called _ _)) hnext
  | hup _ _ _ => exact hsame rfl rfl rfl
  | connectDone hk =>
      obtain ⟨o, -, -, -, rfl⟩ := connectDone_some hk
      refine h.kernel (h.called.modify fun _ _ => ?_)
      show ConnStatus.called (if _ then .established else .refused) = true
      split
      · rfl
      · rfl
  | connectionError hk =>
      obtain ⟨o, -, -, -, -, rfl⟩ := connectionError_some hk
      exact h.kernel (h.called.modify fun _ _ => rfl)

/-- No callback has been called with a socket that is gone. -/
def Undisturbed (w : World) : Prop := .callbackAfterFinalize ∉ w.log

instance (w : World) : Decidable (Undisturbed w) := inferInstanceAs (Decidable (¬_))

theorem Undisturbed.extend {w w' : World} (h : Undisturbed w) (evs : List Event)
    (hlog : w'.log = w.log ++ evs) (hnew : .callbackAfterFinalize ∉ evs) : Undisturbed w' := by
  unfold Undisturbed
  rw [hlog, List.mem_append]
  rintro (hold | hlate)
  · exact h hold
  · exact hnew hlate

theorem Untouched.undisturbed {w w' : World} (hsame : Untouched w w') (h : Undisturbed w) :
    Undisturbed w' := by
  obtain ⟨evs, hlog, hall⟩ := hsame.log
  exact h.extend _ hlog fun hmem => by cases hall _ hmem

theorem resume_finalized (f : Frame) (w : World) : (resume f w).finalized = w.finalized := by
  rcases resume_cases f w with ⟨k, -, hw⟩ | ⟨c, k, -, hw⟩ | ⟨-, hw⟩
  · rw [hw]
    rfl
  · rw [hw, returnTo_finalized, socketReset_finalized]
  · rw [hw, returnTo_finalized]

theorem finalized_step {w w' : World} {l : Label} (hlive : w.finalized = false)
    (hgone : w'.finalized = true) (hs : Ref.step w l = some w') : l = .finalize := by
  have hnot {v : World} (hv : v.finalized = true) (hsame : v.finalized = w.finalized) :
      l = .finalize := by
    rw [hsame, hlive] at hv
    cases hv
  cases step_cases hs with
  | finalize _ _ => rfl
  | connectAttempt _ _ hnext => exact hnot hgone (untouched_of_next hnext).1.finalized
  | lookupOk _ _ _ hnext => exact hnot hgone (untouched_of_next hnext).1.finalized
  | errFailed _ _ _ _ _ hnext => exact hnot hgone (untouched_of_next hnext).1.finalized
  | @resume f rest _ => exact hnot hgone (resume_finalized f { w with stack := rest })
  | _ => exact hnot hgone rfl

/-- What can still happen to a socket that is gone. -/
theorem late_cases {w w' : World} {l : Label} (hgone : w.finalized = true)
    (hs : Ref.step w l = some w') :
    (∃ f rest, w.stack = f :: rest ∧ w' = resume f { w with stack := rest }) ∨
    (∃ id ∈ w.lookups, w' = (dropLookup id w).note .callbackAfterFinalize) ∨
    (∃ s ∈ w.ctx.sources, w' = (w.take s.id).note .callbackAfterFinalize) ∨
    (∃ found, w' = { w with found }) ∨
    ∃ kernel, w' = { w with kernel } := by
  have hnot {P : Prop} (hlive : w.finalized = false) : P := by
    rw [hgone] at hlive
    cases hlive
  cases step_cases hs with
  | resume hstack => exact Or.inl ⟨_, _, hstack, rfl⟩
  | lateLookup _ hid _ => exact Or.inr (Or.inl ⟨_, hid, rfl⟩)
  | lateDispatch _ hlive => exact Or.inr (Or.inr (Or.inl ⟨_, hlive.attached, rfl⟩))
  | poll _ _ _ => exact Or.inr (Or.inr (Or.inr (Or.inl ⟨_, rfl⟩)))
  | connectDone _ => exact Or.inr (Or.inr (Or.inr (Or.inr ⟨_, rfl⟩)))
  | connectionError _ => exact Or.inr (Or.inr (Or.inr (Or.inr ⟨_, rfl⟩)))
  | connectLookup hf _ => exact hnot hf
  | connectAttempt hf _ _ => exact hnot hf
  | close hf => exact hnot hf
  | finalize hf _ => exact hnot hf
  | lookupFailed hf _ _ => exact hnot hf
  | lookupOk hf _ _ _ => exact hnot hf
  | readable hf _ _ => exact hnot hf
  | writeable hf _ _ _ => exact hnot hf
  | connected hf _ _ _ => exact hnot hf
  | errConnected hf _ _ _ => exact hnot hf
  | errWaiting hf _ _ _ _ => exact hnot hf
  | errFailed hf _ _ _ _ _ => exact hnot hf
  | hup hf _ _ => exact hnot hf

theorem stays_gone {w w' : World} {l : Label} (hgone : w.finalized = true)
    (hs : Ref.step w l = some w') : w'.finalized = true := by
  rcases late_cases hgone hs with
    ⟨f, rest, -, rfl⟩ | ⟨id, -, rfl⟩ | ⟨s, -, rfl⟩ | ⟨found, rfl⟩ | ⟨kernel, rfl⟩
  · rw [resume_finalized]
    exact hgone
  · exact hgone
  · exact hgone
  · exact hgone
  · exact hgone

/-- While the socket is alive no callback comes late. -/
theorem undisturbed_step {w w' : World} {l : Label} (hlive : w.finalized = false)
    (h : Undisturbed w) (hs : Ref.step w l = some w') : Undisturbed w' := by
  have hnote {v : World} {e : Event} (hlog : v.log = w.log ++ [e])
      (he : e ≠ .callbackAfterFinalize) : Undisturbed v :=
    h.extend _ hlog fun hmem => he (List.mem_singleton.mp hmem).symm
  have hcall : Undisturbed (w.note .connectCall) := hnote rfl nofun
  cases step_cases hs with
  | lateLookup hf _ _ => rw [hlive] at hf; cases hf
  | lateDispatch hf _ => rw [hlive] at hf; cases hf
  | connectAttempt _ _ hnext => exact (untouched_of_next hnext).1.undisturbed hcall
  | lookupOk _ _ _ hnext => exact (untouched_of_next hnext).1.undisturbed h
  | errFailed _ _ _ _ _ hnext => exact (untouched_of_next hnext).1.undisturbed h
  | finalize _ _ => exact hnote (socketReset_log w) nofun
  | @resume f rest _ =>
      rcases resume_cases f { w with stack := rest } with
        ⟨k, -, hw⟩ | ⟨c, k, -, hw⟩ | ⟨-, hw⟩
      · rw [hw]
        exact hnote rfl nofun
      · rw [hw]
        refine hnote (e := .close w.priv.handle) ?_ nofun
        rw [returnTo_log, socketReset_log]
      · rw [hw]
        exact h.extend [] (by rw [returnTo_log, List.append_nil]) nofun
  | poll _ _ _ => exact h
  | errWaiting _ _ _ _ _ => exact h
  | connectDone _ => exact h
  | connectionError _ => exact h
  | connectLookup _ _ => exact hnote rfl nofun
  | close _ => exact hnote rfl nofun
  | lookupFailed _ _ _ => exact hnote rfl nofun
  | readable _ _ _ => exact hnote rfl nofun
  | writeable _ _ _ _ => exact hnote rfl nofun
  | connected _ _ _ _ => exact hnote rfl nofun
  | errConnected _ _ _ _ => exact hnote rfl nofun
  | hup _ _ _ => exact hnote rfl nofun

namespace Process

/-- `socket_reset` destroys this source. -/
def Recorded (w : World) (s : GSource) : Prop :=
  w.priv.ioChannel ≠ none ∧ ∃ c, w.priv.watches.get c = some s.id

/-- The callback of this source is running, and returns `FALSE`. -/
def Ending (w : World) (s : GSource) : Prop :=
  ∃ f ∈ w.stack, f.caller = .watch s.id false

/-- Nothing the socket has handed out will be there when it is gone. -/
structure CutsAll (w : World) : Prop where
  lookups : w.lookups = []
  sources : ∀ s ∈ w.ctx.sources, Recorded w s ∨ Ending w s

/-- What is left behind by the step that finalizes. -/
structure Leaves (w w' : World) : Prop where
  log : Undisturbed w → Undisturbed w'
  stack : w'.stack = []
  lookups : w'.lookups = w.lookups
  sources : ∀ s, s ∈ w'.ctx.sources ↔ s ∈ w.ctx.sources ∧ ¬(Recorded w s ∨ Ending w s)

theorem mem_reset {w : World} {s : GSource} :
    s ∈ (socketReset w).ctx.sources ↔ s ∈ w.ctx.sources ∧ ¬Recorded w s := by
  rw [mem_socketReset, Recorded, not_and, not_exists]

theorem mem_leaving {k : Caller} {w : World} {s : GSource} :
    s ∈ (returnTo k w).ctx.sources ↔ s ∈ w.ctx.sources ∧ k ≠ .watch s.id false := by
  unfold returnTo
  split
  · next src => simp [GMainContext.mem_destroy, eq_comm]
  · next hk =>
      refine ⟨fun hs => ⟨hs, hk _⟩, And.left⟩

theorem leaves_finalize {w : World} (hidle : w.stack = []) : Leaves w (socketFinalize w) where
  log h := h.extend _ (socketReset_log w) (by simp)
  stack := (socketReset_stack w).trans hidle
  lookups := socketReset_lookups w
  sources s := by
    show s ∈ (socketReset w).ctx.sources ↔ _
    rw [mem_reset, not_or]
    refine and_congr_right fun _ => ⟨fun hno => ⟨hno, ?_⟩, And.left⟩
    rintro ⟨f, hf, -⟩
    rw [hidle] at hf
    cases hf

theorem leaves_lastUnref {w : World} {f : Frame} (hstack : w.stack = [f]) :
    Leaves w (returnTo f.caller (socketFinalize { w with stack := [] })) where
  log h := by
    refine h.extend [.close w.priv.handle] ?_ (by simp)
    rw [returnTo_log]
    exact socketReset_log _
  stack := by
    rw [returnTo_stack]
    exact socketReset_stack _
  lookups := by
    rw [returnTo_lookups]
    exact socketReset_lookups _
  sources s := by
    rw [mem_leaving]
    show s ∈ (socketReset { w with stack := [] }).ctx.sources ∧ _ ↔ _
    have hend : Ending w s ↔ f.caller = .watch s.id false := by
      unfold Ending
      rw [hstack]
      simp
    rw [mem_reset, not_or, hend, and_assoc]
    rfl

theorem find_of_mem {ctx : GMainContext} {s : GSource} (h : s ∈ ctx.sources) :
    ∃ s', ctx.find s.id = some s' := by
  refine Option.isSome_iff_exists.mp ?_
  rw [GMainContext.find, List.find?_isSome]
  exact ⟨s, h, beq_self_eq_true s.id⟩

/-- Two steps finalize. -/
theorem finalizes_cases {w w' : World} {l : Label} (hlive : w.finalized = false)
    (hgone : w'.finalized = true) (hs : step w l = some w') : Leaves w w' := by
  cases step_cases hs with
  | socket hs =>
      obtain rfl := finalized_step hlive hgone hs
      cases Ref.step_cases hs with
      | finalize _ hidle => exact leaves_finalize hidle
  | lastUnref _ hstack => exact leaves_lastUnref hstack
  | openOther _ _ =>
      have hsame : w.finalized = true := hgone
      rw [hlive] at hsame
      cases hsame

/-! ## A run that goes on after the end -/

theorem polled_process {w w' : World} {l : Label} (h : Polled w)
    (hs : step w l = some w') : Polled w' := by
  cases step_cases hs with
  | socket hs => exact polled_step h hs
  | lastUnref _ _ =>
      have hidle : Polled { w with stack := [] } := h.congr rfl (fun _ hs => hs) rfl
      have hfin : Polled (socketFinalize { w with stack := [] }) :=
        hidle.reset.congr rfl (fun _ hs => hs) rfl
      exact hfin.returnTo _
  | openOther _ _ => exact h.kernel (h.called.opened _ rfl _)

/-- Until the socket is gone no callback comes late. -/
theorem quiet_process {w w' : World} {l : Label} (h : w.finalized = false → Undisturbed w)
    (hs : step w l = some w') : w'.finalized = false → Undisturbed w' := by
  intro hlive'
  cases step_cases hs with
  | socket hs =>
      cases hlive : w.finalized with
      | false => exact undisturbed_step hlive (h hlive) hs
      | true =>
          rw [stays_gone hlive hs] at hlive'
          cases hlive'
  | lastUnref hlive hstack => exact (leaves_lastUnref hstack).log (h hlive)
  | openOther _ _ => exact h hlive'

/-- Nothing is left that could call. -/
structure Silent (w : World) : Prop where
  gone : w.finalized = true
  stack : w.stack = []
  lookups : w.lookups = []
  sources : w.ctx.sources = []
  log : Undisturbed w

theorem Silent.kernel {w : World} (h : Silent w) (kernel : Kernel) :
    Silent { w with kernel } :=
  ⟨h.gone, h.stack, h.lookups, h.sources, h.log⟩

theorem silent_step {w w' : World} {l : Label} (h : Silent w) (hs : step w l = some w') :
    Silent w' := by
  cases step_cases hs with
  | lastUnref hlive _ =>
      rw [h.gone] at hlive
      cases hlive
  | openOther _ _ => exact h.kernel _
  | socket hs =>
      rcases late_cases h.gone hs with
        ⟨f, rest, hstack, -⟩ | ⟨id, hid, -⟩ | ⟨s, hmem, -⟩ | ⟨found, rfl⟩ | ⟨kernel, rfl⟩
      · rw [h.stack] at hstack
        cases hstack
      · rw [h.lookups] at hid
        cases hid
      · rw [h.sources] at hmem
        cases hmem
      · exact ⟨h.gone, h.stack, h.lookups, h.sources, h.log⟩
      · exact h.kernel kernel

/-- The number a source polls can be opened again, and made ready. -/
theorem ready_soon {w : World} (h : Polled w) {s : GSource} (hs : s ∈ w.ctx.sources) :
    ∃ bs kernel, exec step w bs = some { w with kernel } ∧
      kernel.ready s.channel.fd s.condition = true := by
  have hbreak (k : Kernel) (hk : k.Called) (hopen : k.isOpen s.channel.fd = true) :
      ∃ bs kernel, exec step { w with kernel := k } bs = some { w with kernel } ∧
        kernel.ready s.channel.fd s.condition = true := by
    rcases hk.breaks hopen s.condition with hready | ⟨k', hk' | hk', hready⟩
    · exact ⟨[], k, rfl, hready⟩
    · refine ⟨[.socket (.connectDone s.channel.fd 111)], k', ?_, hready⟩
      exact exec_cons_of_step (by simp [step, Ref.step, hk'])
    · refine ⟨[.socket (.connectionError s.channel.fd 104)], k', ?_, hready⟩
      exact exec_cons_of_step (by simp [step, Ref.step, hk'])
  cases hopen : w.kernel.isOpen s.channel.fd with
  | true => exact hbreak w.kernel h.called hopen
  | false =>
      have hvalid := h.sources s hs
      have hnew := openOther_of_closed (sampleAddr 0) hvalid hopen
      obtain ⟨bs, kernel, hexec, hready⟩ := hbreak _
        (h.called.opened s.channel.fd (o := ⟨sampleAddr 0, .established, 0⟩) rfl
          (w.kernel.objs.length :: w.kernel.others))
        (by rw [isOpen_setFd, if_pos rfl]; rfl)
      exact ⟨.openOther (sampleAddr 0) s.channel.fd :: bs, kernel,
        (exec_cons_of_step hnew).trans hexec, hready⟩

theorem file_of_ready {k : Kernel} {fd : Int} {c : GIOCondition} (h : k.ready fd c = true) :
    ∃ file, k.fds fd = some file := by
  cases hfd : k.fds fd with
  | none => simp [Kernel.ready, Kernel.obj, hfd] at h
  | some file => exact ⟨file, rfl⟩

theorem dispatched_late {w : World} {s : GSource} (hlive : Live w s)
    (hgone : w.finalized = true) :
    ∃ u, step w (.socket (.dispatch s.id 0 [])) = some u ∧ ¬Undisturbed u := by
  refine ⟨(w.take s.id).note .callbackAfterFinalize, ?_, fun hlog => ?_⟩
  · have hgone' : (w.take s.id).finalized = true := hgone
    show dispatchWatch s.id 0 [] w = _
    unfold dispatchWatch
    rw [hlive.found]
    dsimp only
    rw [if_pos ⟨hlive.polled, hlive.idle⟩, if_pos hgone']
    rfl
  · exact hlog (List.mem_append_right _ (List.mem_singleton_self _))

/-- Whatever was left behind will be called. -/
theorem called_late {w : World} (h : Polled w) (hgone : w.finalized = true)
    (hidle : w.stack = []) (hleft : w.lookups ≠ [] ∨ ∃ s, s ∈ w.ctx.sources) :
    ∃ bs u, exec step w bs = some u ∧ ¬Undisturbed u := by
  rcases hleft with hlookups | ⟨s, hs⟩
  · obtain ⟨id, ids, hids⟩ := List.exists_cons_of_ne_nil hlookups
    have hlate : step w (.socket (.lookupDone id none [])) =
        some ((dropLookup id w).note .callbackAfterFinalize) := by
      simp [step, Ref.step, reportLookup, hids, hidle, hgone, noCalls, dropLookup]
    refine ⟨[.socket (.lookupDone id none [])], _, exec_cons_of_step hlate, ?_⟩
    exact fun hlog => hlog (List.mem_append_right _ (List.mem_singleton_self _))
  · by_cases hdone : ∀ f ∈ w.found, w.ctx.find f.src = none
    · obtain ⟨s, hfind⟩ := find_of_mem hs
      obtain ⟨hs, hid⟩ := GMainContext.find_some hfind
      rw [← hid] at hfind
      obtain ⟨bs, kernel, hexec, hready⟩ := ready_soon h hs
      obtain ⟨file, hfile⟩ := file_of_ready hready
      have hpoll : step { w with kernel } (.socket (.poll [⟨s.id, file⟩])) =
          some { w with kernel, found := [⟨s.id, file⟩] } := by
        refine if_pos ⟨hidle, hdone, fun f hf => ?_⟩
        rw [List.mem_singleton] at hf
        subst hf
        simp [World.finds, hfind, hready, hfile]
      obtain ⟨u, hlate, hlog⟩ := @dispatched_late { w with kernel, found := [⟨s.id, file⟩] } s
        ⟨hfind, ⟨_, List.mem_singleton_self _, rfl⟩, hidle⟩ hgone
      exact ⟨_, u, exec_concat (exec_concat hexec hpoll) hlate, hlog⟩
    · -- what the last poll found is dispatched first
      push Not at hdone
      obtain ⟨f, hf, hattached⟩ := hdone
      obtain ⟨s, hfind⟩ := Option.ne_none_iff_exists'.mp hattached
      obtain ⟨-, hid⟩ := GMainContext.find_some hfind
      rw [← hid] at hfind
      obtain ⟨u, hlate, hlog⟩ := dispatched_late ⟨hfind, ⟨f, hf, hid.symm⟩, hidle⟩ hgone
      exact ⟨[.socket (.dispatch s.id 0 [])], u, exec_cons_of_step hlate, hlog⟩

/-- Wherever a run finalizes the socket: it is left alone in every run that
goes on from there just when all it has handed out is cut. -/
theorem no_callback_after_finalize {sa : LmSocketAddress} {as : List Label} {l : Label}
    {w w' : World} (hrun : exec step (lmSocketNew sa) as = some w)
    (hlive : w.finalized = false) (hs : step w l = some w') (hgone : w'.finalized = true) :
    (∀ bs u, exec step w' bs = some u → Undisturbed u) ↔ CutsAll w := by
  have hstart : Polled (lmSocketNew sa) := ⟨nofun, nofun, nofun⟩
  have hpolled : Polled w' :=
    polled_process (exec_preserves (fun _ _ _ hI ht => polled_process hI ht) hstart hrun) hs
  have hleaves := finalizes_cases hlive hgone hs
  constructor
  · intro hall
    have hsilent : ¬(w'.lookups ≠ [] ∨ ∃ s, s ∈ w'.ctx.sources) := by
      intro hleft
      obtain ⟨bs, u, hexec, hlate⟩ := called_late hpolled hgone hleaves.stack hleft
      exact hlate (hall bs u hexec)
    rw [not_or, not_not, not_exists] at hsilent
    refine ⟨hleaves.lookups ▸ hsilent.1, fun s hmem => ?_⟩
    by_contra hleft
    exact hsilent.2 s ((hleaves.sources s).mpr ⟨hmem, hleft⟩)
  · intro hcuts bs u hexec
    have hnew : Undisturbed (lmSocketNew sa) := List.not_mem_nil
    have hlog : Undisturbed w :=
      exec_preserves (I := fun v => v.finalized = false → Undisturbed v)
        (fun _ _ _ hI ht => quiet_process hI ht) (fun _ => hnew) hrun hlive
    have hsilent : Silent w' := by
      refine ⟨hgone, hleaves.stack, hleaves.lookups.trans hcuts.lookups, ?_, hleaves.log hlog⟩
      refine List.eq_nil_iff_forall_not_mem.mpr fun s hmem => ?_
      obtain ⟨hmem, hleft⟩ := (hleaves.sources s).mp hmem
      exact hleft (hcuts.sources s hmem)
    exact (exec_preserves (fun _ _ _ hI ht => silent_step hI ht) hsilent hexec).log

/-- A socket that connected and is finalized. -/
theorem no_callback_after_finalize_connected :
    ∃ w w', exec step (lmSocketNew sampleSa)
        [.socket (.connect [⟨6, -1, 115⟩]), .socket (.connectDone 6 0),
          .socket (.poll [⟨0, 0⟩]), .socket (.dispatch 0 0 []), .socket .handlersDone,
          .socket .handlersDone] = some w ∧
      step w (.socket .finalize) = some w' ∧
        ∀ bs u, exec step w' bs = some u → Undisturbed u := by
  have hexact := @no_callback_after_finalize sampleSa
    [.socket (.connect [⟨6, -1, 115⟩]), .socket (.connectDone 6 0),
      .socket (.poll [⟨0, 0⟩]), .socket (.dispatch 0 0 []), .socket .handlersDone,
      .socket .handlersDone]
    (.socket .finalize) _ _ rfl rfl rfl rfl
  refine ⟨_, _, rfl, rfl, hexact.mpr ⟨rfl, fun s hs => Or.inl ⟨nofun, s.condition, ?_⟩⟩⟩
  have hall : s ∈ [(⟨0, ⟨0, 6⟩, .out⟩ : GSource), ⟨1, ⟨0, 6⟩, .err⟩, ⟨2, ⟨0, 6⟩, .inn⟩,
    ⟨3, ⟨0, 6⟩, .hup⟩] := hs
  simp only [List.mem_cons, List.not_mem_nil, or_false] at hall
  rcases hall with rfl | rfl | rfl | rfl <;> rfl

/-- Finalized while the host is being looked up, and finalized after an attempt
that another one replaced: the lookup reports, the old watch is dispatched. -/
theorem callback_after_finalize :
    (∃ u, exec step (lmSocketNew (lmSocketAddressNew "host" 5222))
        [.socket (.connect []), .socket .finalize, .socket (.lookupDone 0 none [])] = some u ∧
      ¬Undisturbed u) ∧
    ∃ u, exec step (lmSocketNew sampleSa)
        [.socket (.connect [⟨5, -1, 115⟩]), .socket (.connectDone 5 111),
          .socket (.poll [⟨1, 0⟩]), .socket (.dispatch 1 0 [⟨6, -1, 115⟩]), .socket .finalize,
          .socket (.poll [⟨0, 0⟩]), .socket (.dispatch 0 0 [])] = some u ∧
      ¬Undisturbed u :=
  ⟨⟨_, rfl, by decide⟩, _, rfl, by decide⟩

end Process

end LmTransport.Ref
