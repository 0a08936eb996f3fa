import LmTransport.Proofs.ConnectResult

/-!
# After `lm_channel_close` has returned

The reset at the end of a close destroys the sources recorded in
`priv->watches` and closes the handle. Two kinds of pending work it does not
reach: a host lookup, which is neither cancelled nor disconnected from, and the
watches of earlier attempts, which are recorded nowhere. Such a watch needs no
open descriptor of the socket to be called: the poll may have found it before
the close, and later another part of the process may get the number it polls.
And if the close was called from a handler of a successful connect result,
`opened` is still to come.

With nothing of the kind pending when the close returns the socket is
`Inert`: no source is attached, no lookup can report, no frame emits, and
nothing but a call into the socket changes that.
-/

namespace LmTransport.Ref

open Lts

/-- Opening a descriptor and emitting a signal, the things a closed socket is
not to do. -/
def Event.isNoise : Event → Bool
  | .socket _ => true
  | .emit _ => true
  | _ => false

/-- The step does none of them. -/
def Quiet (w : World) (_ : Process.Label) (w' : World) : Prop :=
  w'.log.countP Event.isNoise = w.log.countP Event.isNoise

instance (w : World) (l : Process.Label) (w' : World) : Decidable (Quiet w l w') :=
  inferInstanceAs (Decidable (_ = _))

/-- The handlers of a requested close are done, and `lm_channel_close` is about
to reset the socket and return. -/
def closeReturning (w : World) : Bool :=
  match w.stack with
  | .closed _ .api :: _ => true
  | _ => false

/-- The reset will destroy this source. -/
def recorded (w : World) (s : GSource) : Bool :=
  w.priv.ioChannel.isSome &&
    [GIOCondition.inn, .out, .err, .hup].any fun c => w.priv.watches.get c == some s.id

/-- No lookup is pending, every source will be destroyed, and no `opened` is
due. -/
def NothingPending (w : World) : Prop :=
  w.lookups = [] ∧ (∀ s ∈ w.ctx.sources, recorded w s = true) ∧ announcing w.stack = false

instance (w : World) : Decidable (NothingPending w) :=
  inferInstanceAs (Decidable (_ ∧ (∀ _ ∈ _, _) ∧ _))

/-- The label is not a call of `lm_socket_connect` or `lm_channel_close`. -/
def fromOutside : Process.Label → Bool
  | .socket (.connect _) => false
  | .socket .close => false
  | _ => true

structure Inert (w : World) : Prop where
  lookups : w.lookups = []
  sources : w.ctx.sources = []
  frames : announcing w.stack = false

theorem recorded_iff {w : World} {s : GSource} :
    recorded w s = true ↔
      w.priv.ioChannel ≠ none ∧ ∃ c, w.priv.watches.get c = some s.id := by
  rw [recorded, Bool.and_eq_true, Option.isSome_iff_ne_none, List.any_eq_true]
  refine and_congr_right fun _ => ⟨fun ⟨c, _, hc⟩ => ⟨c, by simpa using hc⟩, fun ⟨c, hc⟩ => ?_⟩
  exact ⟨c, by cases c <;> simp, by simpa using hc⟩

theorem Inert.congr {w w' : World} (h : Inert w) (hlook : w'.lookups = w.lookups)
    (hctx : w'.ctx = w.ctx) (hstack : announcing w'.stack = false) : Inert w' :=
  ⟨hlook.trans h.lookups, hctx ▸ h.sources, hstack⟩

theorem Inert.returnTo {w : World} {k : Caller} (h : Inert w) : Inert (returnTo k w) := by
  refine ⟨?_, List.eq_nil_iff_forall_not_mem.mpr fun s hs => ?_, ?_⟩
  · rw [returnTo_lookups]; exact h.lookups
  · have hmem := mem_returnTo hs
    rw [h.sources] at hmem
    cases hmem
  · rw [returnTo_stack]; exact h.frames

theorem Inert.reset {w : World} (h : Inert w) : Inert (socketReset w) := by
  refine ⟨?_, List.eq_nil_iff_forall_not_mem.mpr fun s hs => ?_, ?_⟩
  · rw [socketReset_lookups]; exact h.lookups
  · have hmem := (mem_socketReset.mp hs).1
    rw [h.sources] at hmem
    cases hmem
  · rw [socketReset_stack]; exact h.frames

/-- No source survives the reset of a close. -/
theorem NothingPending.reset {w : World} {f : Frame} {rest : List Frame}
    (h : NothingPending w) (hstack : w.stack = f :: rest) :
    Inert (socketReset { w with stack := rest }) := by
  obtain ⟨hlook, hsources, hframes⟩ := h
  refine ⟨?_, List.eq_nil_iff_forall_not_mem.mpr fun s hs => ?_, ?_⟩
  · rw [socketReset_lookups]; exact hlook
  · obtain ⟨hmem, hget⟩ := mem_socketReset.mp hs
    obtain ⟨hch, c, hc⟩ := recorded_iff.mp (hsources s hmem)
    exact hget hch c hc
  · rw [socketReset_stack]
    rw [hstack, announcing, List.any_cons, Bool.or_eq_false_iff] at hframes
    exact hframes.2

theorem quiet_of_note {w w' : World} {l : Process.Label} {e : Event}
    (hlog : w'.log = w.log ++ [e]) (he : e.isNoise = false) : Quiet w l w' := by
  rw [Quiet, hlog, List.countP_append, List.countP_singleton, he]
  rfl

theorem quiet_of_reset {w : World} {l : Process.Label} {k : Caller} {rest : List Frame} :
    Quiet w l (returnTo k (socketReset { w with stack := rest })) :=
  quiet_of_note (by rw [returnTo_log, socketReset_log]) rfl

/-- Nothing that comes from outside wakes an inert socket up. -/
theorem inert_step {w w' : World} {l : Label} (h : Inert w)
    (hl : fromOutside (.socket l) = true) (hstep : step w l = some w') :
    Quiet w (.socket l) w' ∧ Inert w' := by
  have hlook : ∀ {id : Nat}, id ∉ w.lookups := fun hid => by
    rw [h.lookups] at hid
    cases hid
  have hdead : ∀ {s : GSource}, ¬ Live w s := fun hlive => by
    have hmem := hlive.attached
    rw [h.sources] at hmem
    cases hmem
  cases step_cases hstep with
  | connectLookup _ _ | connectAttempt _ _ _ | close _ => cases hl
  | finalize _ _ =>
      exact ⟨quiet_of_note (socketReset_log w) rfl, h.reset.congr rfl rfl h.reset.frames⟩
  | @resume f rest hstack =>
      have hframes := h.frames
      rw [hstack, announcing, List.any_cons, Bool.or_eq_false_iff] at hframes
      have hpop : Inert { w with stack := rest } := h.congr rfl rfl hframes.2
      rcases resume_cases f { w with stack := rest } with
        ⟨k, rfl, -⟩ | ⟨c, k, rfl, hw⟩ | ⟨-, hw⟩
      · cases hframes.1
      · rw [hw]
        exact ⟨quiet_of_reset, hpop.reset.returnTo⟩
      · rw [hw]
        exact ⟨by rw [Quiet, returnTo_log], hpop.returnTo⟩
  | lateLookup _ hid _ | lookupFailed _ hid _ | lookupOk _ hid _ _ => exact absurd hid hlook
  | lateDispatch _ hlive | readable _ hlive _ | writeable _ hlive _ _ | connected _ hlive _ _
  | errConnected _ hlive _ _ | errWaiting _ hlive _ _ _ | errFailed _ hlive _ _ _ _
  | hup _ hlive _ => exact absurd hlive hdead
  | poll _ _ _ | connectDone _ | connectionError _ => exact ⟨rfl, h.congr rfl rfl h.frames⟩

theorem inert_process {w w' : World} {l : Process.Label} (h : Inert w)
    (hl : fromOutside l = true) (hstep : Process.step w l = some w') :
    Quiet w l w' ∧ Inert w' := by
  cases Process.step_cases hstep with
  | socket hstep => exact inert_step h hl hstep
  | lastUnref _ _ =>
      have hidle : Inert { w with stack := [] } := h.congr rfl rfl rfl
      have hgone : Inert (socketFinalize { w with stack := [] }) :=
        hidle.reset.congr rfl rfl hidle.reset.frames
      refine ⟨quiet_of_note (e := .close w.priv.handle) ?_ rfl, hgone.returnTo⟩
      rw [returnTo_log]
      exact socketReset_log _
  | openOther _ _ => exact ⟨rfl, h.congr rfl rfl h.frames⟩

theorem Inert.quiet {w : World} (h : Inert w) {as : List Process.Label}
    (has : ∀ l ∈ as, fromOutside l = true) : Along Process.step Quiet w as := by
  refine along_of_invariant (I := Inert) ?_ h (meets_of_labels has)
  intro w l w' hw hl hs
  exact inert_process hw hl hs

/-- Whatever state the socket is in and whatever happens next, up to the next
call into it. -/
theorem close_is_final (w : World) (hclose : closeReturning w = true)
    (hnothing : NothingPending w) (as : List Process.Label)
    (has : ∀ l ∈ as, fromOutside l = true) :
    Along Process.step Quiet w (.socket .handlersDone :: as) := by
  intro w' hstep
  have hstack : ∃ c rest, w.stack = .closed c .api :: rest := by
    unfold closeReturning at hclose
    split at hclose
    · next c rest hs => exact ⟨c, rest, hs⟩
    · cases hclose
  obtain ⟨c, rest, hstack⟩ := hstack
  have hw' : w' = socketReset { w with stack := rest } := by
    rw [Process.step, step, hstack] at hstep
    exact (Option.some.inj hstep).symm
  subst hw'
  exact ⟨quiet_of_reset (k := .api), (hnothing.reset hstack).quiet has⟩

/-- The number goes to another part of the process. -/
theorem close_is_final_in_progress :
    ∃ w, exec Process.step (lmSocketNew sampleSa)
        [.socket (.connect [⟨5, -1, 115⟩]), .socket .close] = some w ∧
      Along Process.step Quiet w
        [.socket .handlersDone, .openOther (sampleAddr 4) 5, .socket .finalize] :=
  ⟨_, rfl, close_is_final _ rfl (by decide) [.openOther (sampleAddr 4) 5, .socket .finalize]
    (by decide)⟩

/-- A host that has not been resolved yet. -/
def unresolvedSa : LmSocketAddress := lmSocketAddressNew "example" 5222

/-- The host is being looked up when the socket is closed, and the answer that
comes in later makes it open a descriptor. -/
theorem late_lookup_reopens :
    ∃ w, exec Process.step (lmSocketNew unresolvedSa)
        [.socket (.connect []), .socket .close] = some w ∧
      closeReturning w = true ∧
      ¬ Along Process.step Quiet w
        [.socket .handlersDone, .socket (.lookupDone 0 (some [sampleAddr 1]) [⟨5, -1, 115⟩])] :=
  ⟨_, rfl, rfl, by decide⟩

end LmTransport.Ref
