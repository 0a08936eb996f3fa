import LmTransport.Proofs.Descriptors

/-!
# The watches and their records

`priv->watches` has one place for each condition, and the book is kept when
the places and the attached sources say the same. Two functions fill places
and neither looks whether there was something in them, so the book goes wrong
whenever an attempt is made on top of another: after an attempt that failed at
once, whose watches `socket_attempt_connect` leaves behind when it closes the
descriptor, after one that failed later, since `socket_err_cb` starts the next
attempt in its place, and on a second `lm_socket_connect`. An asynchronous
failure of the last address has no next attempt, but then it is the `FALSE`
of the callback that destroys a source which stays recorded.

Under the condition that none of this happens every source is accounted for,
in every state, also while handlers run.
-/

namespace LmTransport.Ref

open Lts

/-- The attached sources are the recorded ones, one for each condition at
most, and they poll the current handle through the current channel. -/
structure WatchBook (w : World) : Prop where
  attached : ∀ s ∈ w.ctx.sources, w.priv.watches.get s.condition = some s.id
  recorded : ∀ c id, w.priv.watches.get c = some id →
    ∃ s ∈ w.ctx.sources, s.id = id ∧ s.condition = c
  polls : ∀ s ∈ w.ctx.sources,
    w.priv.ioChannel = some s.channel ∧ s.channel.fd = w.priv.handle
  once : (w.ctx.sources.map GSource.condition).Nodup

/-- `socket_err_cb` is about to run on a socket that is not connected. -/
def errUnconnected (w : World) : Label → Bool
  | .dispatch src _ _ =>
      (w.ctx.find src).any fun s => s.condition == .err && !w.priv.connected
  | _ => false

/-- No attempt is made on top of another, and none fails once it has a
descriptor. -/
def AttemptsApart (w : World) (l : Label) : Prop :=
  (l.calls ≠ [] → w.priv.ioChannel = none) ∧
    (∀ o ∈ l.calls, lmSockValid o.socket = true → o.refused = false) ∧
    errUnconnected w l = false

instance (w : World) (l : Label) : Decidable (AttemptsApart w l) :=
  inferInstanceAs (Decidable (_ ∧ _ ∧ _))

/-! ## The invariant -/

/-- The caller does not go on to destroy a source. -/
def Caller.keeps : Caller → Bool
  | .watch _ false => false
  | _ => true

/-- Only the cleanup after a `closed` emission returns to a callback that
destroys its source. -/
def Frame.keeps : Frame → Bool
  | .connectResult _ k => k.keeps
  | .opened k => k.keeps
  | .io k => k.keeps
  | .closed _ _ => true

structure WatchInv (w : World) : Prop where
  exact : ∀ s, s ∈ w.ctx.sources ↔
    w.priv.ioChannel = some s.channel ∧ w.priv.watches.get s.condition = some s.id
  polls : ∀ ch, w.priv.ioChannel = some ch → ch.fd = w.priv.handle
  empty : w.priv.ioChannel = none → ∀ c, w.priv.watches.get c = none
  unconnected : w.priv.connected = false →
    w.priv.watches.get .inn = none ∧ w.priv.watches.get .hup = none
  once : (w.ctx.sources.map GSource.condition).Nodup
  frames : ∀ f ∈ w.stack, f.keeps = true

theorem WatchInv.book {w : World} (h : WatchInv w) : WatchBook w where
  attached := fun s hs => ((h.exact s).mp hs).2
  recorded := fun c id hid => by
    cases hch : w.priv.ioChannel with
    | none => rw [h.empty hch c] at hid; cases hid
    | some ch => exact ⟨⟨id, ch, c⟩, (h.exact _).mpr ⟨hch, hid⟩, rfl, rfl⟩
  polls := fun s hs => by
    obtain ⟨hch, -⟩ := (h.exact s).mp hs
    exact ⟨hch, h.polls _ hch⟩
  once := h.once

theorem watchInv_new (sa : LmSocketAddress) : WatchInv (lmSocketNew sa) where
  exact := fun s => by simp [lmSocketNew]
  polls := fun ch hch => by cases hch
  empty := fun _ c => by cases c <;> rfl
  unconnected := fun _ => ⟨rfl, rfl⟩
  once := List.nodup_nil
  frames := fun f hf => by cases hf

theorem WatchInv.sources_nil {w : World} (h : WatchInv w) (hch : w.priv.ioChannel = none) :
    w.ctx.sources = [] := by
  refine List.eq_nil_iff_forall_not_mem.mpr fun s hs => ?_
  rw [h.exact, hch] at hs
  cases hs.1

/-- A step that leaves the private struct and the sources alone. -/
theorem WatchInv.congr {w w' : World} (h : WatchInv w) (hpriv : w'.priv = w.priv)
    (hctx : w'.ctx = w.ctx) (hframes : ∀ f ∈ w'.stack, f ∈ w.stack ∨ f.keeps = true) :
    WatchInv w' := by
  refine ⟨?_, ?_, ?_, ?_, ?_, fun f hf => ?_⟩
  · rw [hpriv, hctx]; exact h.exact
  · rw [hpriv]; exact h.polls
  · rw [hpriv]; exact h.empty
  · rw [hpriv]; exact h.unconnected
  · rw [hctx]; exact h.once
  · rcases hframes f hf with hold | hnew
    · exact h.frames f hold
    · exact hnew

theorem WatchInv.noSocket {addr : AddrInfo} {fd : Int} {w : World} (h : WatchInv w)
    (hch : w.priv.ioChannel = none) : WatchInv (attemptNoSocket addr fd w) where
  exact := h.exact
  polls := fun ch hsome => by
    rw [show (attemptNoSocket addr fd w).priv.ioChannel = w.priv.ioChannel from rfl, hch]
      at hsome
    cases hsome
  empty := h.empty
  unconnected := h.unconnected
  once := h.once
  frames := h.frames

/-- With nothing in the way an attempt attaches its two watches and records
both. -/
theorem WatchInv.started {addr : AddrInfo} {o : SysCalls} {w : World} (h : WatchInv w)
    (hch : w.priv.ioChannel = none) : WatchInv (attemptStarted addr o w) := by
  have hnil := h.sources_nil hch
  have hget := h.empty hch
  have hin : w.priv.watches.inWatch = none := hget .inn
  have hhup : w.priv.watches.hupWatch = none := hget .hup
  refine ⟨fun s => ?_, fun ch hsome => ?_, fun hnone => ?_, fun _ => ⟨hin, hhup⟩, ?_,
    h.frames⟩
  · obtain ⟨id, ch, c⟩ := s
    cases c <;>
      simp [attemptStarted, hnil, IOWatches.get, hin, hhup, and_comm, eq_comm]
  · rw [show (attemptStarted addr o w).priv.ioChannel =
      some ⟨w.nextChannel, o.socket⟩ from rfl, Option.some.injEq] at hsome
    rw [← hsome]
    rfl
  · cases hnone
  · simp [attemptStarted, hnil]

theorem WatchInv.attempts {k : Caller} {os : List SysCalls} {w w' : World}
    (h : WatchInv w) (hk : k.keeps = true)
    (hch : os ≠ [] → w.priv.ioChannel = none)
    (hos : ∀ o ∈ os, lmSockValid o.socket = true → o.refused = false)
    (hnext : socketAttemptConnectNext k os w = some w') : WatchInv w' := by
  have hiter : WatchInv (socketGetIter w) ∧
      (os ≠ [] → (socketGetIter w).priv.ioChannel = none) := by
    unfold socketGetIter
    split
    · exact ⟨h, hch⟩
    · exact ⟨⟨h.exact, h.polls, h.empty, h.unconnected, h.once, h.frames⟩, hch⟩
  have hreturn : ∀ w₁, WatchInv w₁ → WatchInv (returnTo k w₁) := by
    intro w₁ h₁
    match k, hk with
    | .api, _ => exact h₁
    | .lookup, _ => exact h₁
    | .watch _ true, _ => exact h₁
  refine attemptLoop_rule
    (C := fun o => os ≠ [] ∧ (lmSockValid o.socket = true → o.refused = false))
    (I := fun w₁ => WatchInv w₁ ∧ (os ≠ [] → w₁.priv.ioChannel = none)) (J := WatchInv)
    ?_ ?_ ?_ ?_ (fun o ho => ⟨List.ne_nil_of_mem ho, hos o ho⟩) hiter hnext
  · intro w₁ hI _
    refine hI.1.congr rfl rfl fun f hf => ?_
    rcases List.mem_cons.mp hf with rfl | hf
    · exact Or.inr hk
    · exact Or.inl hf
  · intro w₁ addr rest o hI _ hC _
    have hadv : WatchInv (advanced rest w₁) := hI.1.congr rfl rfl fun f hf => Or.inl hf
    exact ⟨hadv.noSocket (hI.2 hC.1), hI.2⟩
  · intro w₁ addr rest o _ _ hC hv _ hr
    rw [hC.2 hv] at hr
    cases hr
  · intro w₁ addr rest o hI _ hC _ _ _
    have hadv : WatchInv (advanced rest w₁) := hI.1.congr rfl rfl fun f hf => Or.inl hf
    exact hreturn _ (hadv.started (hI.2 hC.1))

/-- The first `G_IO_OUT` fills the two places that are empty until then. -/
theorem WatchInv.connectedNow {w : World} {ch : GIOChannel} (h : WatchInv w)
    (hch : w.priv.ioChannel = some ch) (hconn : w.priv.connected = false) :
    WatchInv (connectedNow w) := by
  obtain ⟨hin, hhup⟩ := h.unconnected hconn
  have hnot : ∀ s ∈ w.ctx.sources, s.condition ≠ .inn ∧ s.condition ≠ .hup := by
    intro s hs
    have hget := ((h.exact s).mp hs).2
    refine ⟨fun hc => ?_, fun hc => ?_⟩
    · rw [hc, hin] at hget; cases hget
    · rw [hc, hhup] at hget; cases hget
  rw [connectedNow_some hch]
  refine ⟨fun s => ?_, h.polls, fun hnone => ?_, fun hno => ?_, ?_, h.frames⟩
  · have hs := h.exact s
    have hs' := hnot s
    obtain ⟨id, ch', c⟩ := s
    rw [List.mem_append, List.mem_append, List.mem_singleton, List.mem_singleton]
    cases c with
    | inn =>
        have hno : (⟨id, ch', .inn⟩ : GSource) ∉ w.ctx.sources := fun hmem => (hs' hmem).1 rfl
        simp [hno, hch, IOWatches.get, and_comm, eq_comm]
    | out => simpa [IOWatches.get] using hs
    | err => simpa [IOWatches.get] using hs
    | hup =>
        have hno : (⟨id, ch', .hup⟩ : GSource) ∉ w.ctx.sources := fun hmem => (hs' hmem).2 rfl
        simp [hno, hch, IOWatches.get, and_comm, eq_comm]
  · rw [hch] at hnone
    cases hnone
  · cases hno
  · have hfresh : GIOCondition.inn ∉ w.ctx.sources.map GSource.condition ∧
        GIOCondition.hup ∉ w.ctx.sources.map GSource.condition := by
      constructor
      · intro hmem
        obtain ⟨s, hs, hc⟩ := List.mem_map.mp hmem
        exact (hnot s hs).1 hc
      · intro hmem
        obtain ⟨s, hs, hc⟩ := List.mem_map.mp hmem
        exact (hnot s hs).2 hc
    simp only [List.map_append, List.map_cons, List.map_nil]
    simp only [List.nodup_append, List.mem_append, List.mem_singleton]
    refine ⟨⟨h.once, List.nodup_singleton _, ?_⟩, List.nodup_singleton _, ?_⟩
    · rintro c hc _ rfl rfl
      exact hfresh.1 hc
    · rintro c (hc | rfl) _ rfl
      · rintro rfl
        exact hfresh.2 hc
      · decide

/-- After a reset there is nothing left to account for. -/
theorem WatchInv.reset {w : World} (h : WatchInv w) :
    WatchInv (socketReset w) ∧ (socketReset w).ctx.sources = [] := by
  have hnil : (socketReset w).ctx.sources = [] := by
    refine List.eq_nil_iff_forall_not_mem.mpr fun s hs => ?_
    rw [mem_socketReset, h.exact] at hs
    obtain ⟨⟨hch, hget⟩, hgone⟩ := hs
    exact hgone (by simp [hch]) _ hget
  have hget : ∀ c, (socketReset w).priv.watches.get c = none := by
    intro c
    rw [socketReset_priv]
    simp only []
    split
    · next hch => exact h.empty hch c
    · cases c <;> rfl
  refine ⟨⟨fun s => ?_, fun ch hch => ?_, fun _ => hget, fun _ => ⟨hget _, hget _⟩, ?_, ?_⟩, hnil⟩
  · rw [hnil, socketReset_ioChannel]
    simp
  · rw [socketReset_ioChannel] at hch
    cases hch
  · rw [hnil]
    exact List.nodup_nil
  · rw [socketReset_stack]
    exact h.frames

/-- Destroying a source when there is none. -/
theorem WatchInv.returnTo {w : World} {k : Caller} (h : WatchInv w)
    (hk : k.keeps = false → w.ctx.sources = []) : WatchInv (returnTo k w) := by
  match k, hk with
  | .api, _ => exact h
  | .lookup, _ => exact h
  | .watch _ true, _ => exact h
  | .watch src false, hk =>
      have hnil := hk rfl
      refine ⟨fun s => ?_, h.polls, h.empty, h.unconnected, ?_, h.frames⟩
      · have hs := h.exact s
        rw [hnil] at hs
        simpa [Ref.returnTo, hnil] using hs
      · simp [Ref.returnTo, GMainContext.destroy, hnil]

theorem keeps_caller {f : Frame} (h : f.returns = true) : f.caller.keeps = f.keeps := by
  cases f with
  | closed c k => cases h
  | _ => rfl

theorem WatchInv.resume {f : Frame} {rest : List Frame} {w : World} (h : WatchInv w)
    (hstack : w.stack = f :: rest) : WatchInv (resume f { w with stack := rest }) := by
  have hpop : WatchInv { w with stack := rest } :=
    h.congr rfl rfl fun g hg => Or.inl (by rw [hstack]; exact List.mem_cons_of_mem _ hg)
  have hkeep : f.keeps = true := h.frames f (by rw [hstack]; exact List.mem_cons_self ..)
  rcases resume_cases f { w with stack := rest } with
    ⟨k, rfl, hw⟩ | ⟨c, k, rfl, hw⟩ | ⟨hreturns, hw⟩ <;> rw [hw]
  · refine hpop.congr rfl rfl fun g hg => ?_
    rcases List.mem_cons.mp hg with rfl | hg
    · exact Or.inr hkeep
    · exact Or.inl hg
  · exact hpop.reset.1.returnTo fun _ => hpop.reset.2
  · refine hpop.returnTo fun hno => ?_
    rw [keeps_caller hreturns, hkeep] at hno
    cases hno

theorem watchInv_step {w w' : World} {l : Label} (h : WatchInv w) (hc : AttemptsApart w l)
    (hstep : step w l = some w') : WatchInv w' := by
  have hpush : ∀ {w₁ : World} {f : Frame}, w₁.priv = w.priv → w₁.ctx = w.ctx →
      w₁.stack = f :: w.stack → f.keeps = true → WatchInv w₁ := by
    intro w₁ f hpriv hctx hstack hf
    refine h.congr hpriv hctx fun g hg => ?_
    rw [hstack, List.mem_cons] at hg
    rcases hg with rfl | hg
    · exact Or.inr hf
    · exact Or.inl hg
  have hsame : ∀ {w₁ : World}, w₁.priv = w.priv → w₁.ctx = w.ctx →
      w₁.stack = w.stack → WatchInv w₁ := by
    intro w₁ hpriv hctx hstack
    exact h.congr hpriv hctx fun g hg => Or.inl (hstack ▸ hg)
  cases step_cases hstep with
  | connectLookup _ _ =>
      exact ⟨h.exact, h.polls, h.empty, h.unconnected, h.once, h.frames⟩
  | connectAttempt _ _ hnext =>
      exact WatchInv.attempts (w := w.note .connectCall) (hsame rfl rfl rfl) rfl hc.1 hc.2.1 hnext
  | close _ | lookupFailed _ _ _ | readable _ _ _ | writeable _ _ _ _ | errConnected _ _ _ _
  | hup _ _ _ => exact hpush rfl rfl rfl rfl
  | lateLookup _ _ _ | poll _ _ _ | lateDispatch _ _ | errWaiting _ _ _ _ _ | connectDone _
  | connectionError _ => exact hsame rfl rfl rfl
  | finalize _ _ =>
      exact h.reset.1.congr rfl rfl fun g hg => Or.inl hg
  | resume hstack => exact h.resume hstack
  | lookupOk _ _ _ hnext =>
      exact WatchInv.attempts (w := lookedUp _ _ w) (hsame rfl rfl rfl) rfl
        hc.1 hc.2.1 hnext
  | @connected s _ _ hlive _ hconn =>
      have hch := ((h.exact _).mp hlive.attached).1
      have htake : WatchInv (w.take s.id) := hsame rfl rfl rfl
      refine (htake.connectedNow hch hconn).congr rfl rfl fun g hg => ?_
      rcases List.mem_cons.mp hg with rfl | hg
      · exact Or.inr rfl
      · exact Or.inl hg
  | errFailed _ hlive hcond hconn _ _ =>
      have hno := hc.2.2
      simp [errUnconnected, hlive.found, hcond, hconn] at hno

theorem watches_booked (sa : LmSocketAddress) (as : List Label) (w : World)
    (hc : Meets step AttemptsApart (lmSocketNew sa) as)
    (hrun : exec step (lmSocketNew sa) as = some w) : WatchBook w :=
  (exec_invariant (fun _ _ _ => watchInv_step) (watchInv_new sa) hc hrun).book

theorem watches_booked_connected :
    ∃ w, exec step (lmSocketNew sampleSa)
        [.connect [⟨-1, 0, 0⟩, ⟨6, -1, 115⟩], .connectDone 6 0, .poll [⟨0, 1⟩],
          .dispatch 0 0 []] = some w ∧
      WatchBook w :=
  ⟨_, rfl, watches_booked sampleSa
    [.connect [⟨-1, 0, 0⟩, ⟨6, -1, 115⟩], .connectDone 6 0, .poll [⟨0, 1⟩], .dispatch 0 0 []] _
    (by decide) rfl⟩

/-- The first address fails later on and the second is tried: the first one's
`G_IO_OUT` watch is attached and recorded nowhere. -/
theorem fallback_orphans_watch :
    ∃ w, exec step (lmSocketNew sampleSa)
        [.connect [⟨5, -1, 115⟩], .connectDone 5 111, .poll [⟨1, 0⟩],
          .dispatch 1 0 [⟨6, -1, 115⟩]] = some w ∧
      ¬ WatchBook w :=
  ⟨_, rfl, fun h => absurd (h.attached ⟨0, ⟨0, 5⟩, .out⟩ (by decide)) (by decide)⟩

end LmTransport.Ref
