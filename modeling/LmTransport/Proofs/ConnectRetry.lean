import LmTransport.Proofs.AddressFallback

/-!
# Connecting again after a connect that failed

When the last address has failed, the failure is reported and the function
returns. Nothing is torn down: only the two ways of closing lead to
`socket_reset`. In particular `sa_iter` is still set, so that the next
`lm_socket_connect` does not ask the address for a rewound iterator and goes on
with the one it has, which has nothing left.

The path to the report does not matter. It may come from the loop of the first
call or from one that `socket_err_cb` has gone on with, and on either the loop
leaves the iterator where it found it to be at the end.
-/

namespace LmTransport.Ref

open Lts

/-- The state of a socket that was just created, as far as connecting is
concerned. -/
structure LikeNew (w : World) : Prop where
  disconnected : w.priv.connected = false
  noIterator : w.priv.saIter = false
  noChannel : w.priv.ioChannel = none
  noDescriptor : w.priv.handle = 0
  noWatches : w.priv.watches = {}

/-- The socket is not as it was created, and connecting it again can be tried
but comes to nothing: no address is attempted, and the failure of all of them is
reported. -/
structure Stranded (w : World) : Prop where
  used : ¬ LikeNew w
  possible : ∃ w', step w (.connect []) = some w'
  futile : ∀ os w', step w (.connect os) = some w' →
    w'.log = w.log ++ [.connectCall, .emit (.connectResult .failedTriedAll)]

/-- The iterator is in use and has nothing left. -/
structure Exhausted (w : World) : Prop where
  live : w.finalized = false
  iter : w.priv.saIter = true
  atEnd : w.sa.remaining = []

theorem Exhausted.returnTo {k : Caller} {w : World} (h : Exhausted w) :
    Exhausted (returnTo k w) := by
  refine ⟨?_, ?_, ?_⟩
  · rw [returnTo_finalized]
    exact h.live
  · rw [returnTo_priv]
    exact h.iter
  · rw [returnTo_sa]
    exact h.atEnd

/-- A connect in this state is over at once. -/
theorem Exhausted.connect {w : World} (h : Exhausted w) (hres : w.sa.results ≠ [])
    (os : List SysCalls) :
    step w (.connect os) = noCalls os (socketEmitConnectResult .failedTriedAll .api
      (w.note .connectCall)) := by
  have hcall : lmSocketConnect os w = socketAttemptConnectNext .api os (w.note .connectCall) := by
    have hresolved : lmSocketAddressIsResolved (w.note .connectCall).sa = true := by
      simpa [lmSocketAddressIsResolved, World.note] using hres
    unfold lmSocketConnect
    simp only [hresolved]
    rfl
  have hiter : socketGetIter (w.note .connectCall) = w.note .connectCall := if_pos h.iter
  have hend : (w.note .connectCall).sa.remaining = [] := h.atEnd
  rw [step, if_neg (by simp [h.live]), hcall, socketAttemptConnectNext, hiter]
  unfold socketAttemptLoop
  rw [iterGetNext_eq, hend]

theorem Exhausted.stranded {w : World} (h : Exhausted w) (hres : w.sa.results ≠ []) :
    Stranded w := by
  refine ⟨fun hnew => ?_, ⟨_, h.connect hres []⟩, fun os w' hstep => ?_⟩
  · have hiter := hnew.noIterator
    rw [h.iter] at hiter
    cases hiter
  · rw [h.connect hres os] at hstep
    obtain ⟨-, rfl⟩ := noCalls_some hstep
    exact List.append_assoc ..

/-- A round of attempts that reports has used the iterator up. -/
theorem exhausted_of_next {k : Caller} {os : List SysCalls} {w w' : World}
    (hf : w.finalized = false) (h : socketAttemptConnectNext k os w = some w')
    (hreport : triedAlls w'.log ≠ triedAlls w.log) :
    Exhausted w' ∧ ∃ rest, w'.stack = .connectResult .failedTriedAll k :: rest := by
  have hstart : (socketGetIter w).finalized = false ∧ (socketGetIter w).priv.saIter = true ∧
      triedAlls (socketGetIter w).log = triedAlls w.log := by
    unfold socketGetIter
    split
    · next hiter => exact ⟨hf, hiter, rfl⟩
    · refine ⟨hf, rfl, ?_⟩
      show triedAlls (w.log ++ _) = _
      rw [triedAlls_append]
      rfl
  refine attemptLoop_rule (C := fun _ => True)
    (I := fun w₁ => w₁.finalized = false ∧ w₁.priv.saIter = true ∧
      triedAlls w₁.log = triedAlls w.log)
    (J := fun w₂ => triedAlls w₂.log ≠ triedAlls w.log →
      Exhausted w₂ ∧ ∃ rest, w₂.stack = .connectResult .failedTriedAll k :: rest)
    ?_ ?_ ?_ ?_ (fun _ _ => trivial) hstart h hreport
  · intro w₁ hI hrem _
    exact ⟨⟨hI.1, hI.2.1, hrem⟩, w₁.stack, rfl⟩
  · intro w₁ addr rest o hI _ _ _
    refine ⟨hI.1, hI.2.1, ?_⟩
    show triedAlls (w₁.log ++ _) = _
    rw [triedAlls_append, hI.2.2]
    rfl
  · intro w₁ addr rest o hI _ _ _ _ _
    refine ⟨hI.1, hI.2.1, ?_⟩
    show triedAlls (w₁.log ++ _ ++ _ ++ _) = _
    rw [triedAlls_append, triedAlls_append, triedAlls_append, hI.2.2]
    rfl
  · -- an attempt that goes on has reported nothing
    intro w₁ addr rest o hI _ _ _ _ _ hnew
    refine absurd ?_ hnew
    rw [returnTo_log]
    show triedAlls (w₁.log ++ _ ++ _) = _
    rw [triedAlls_append, triedAlls_append, hI.2.2]
    rfl

/-- Whatever reports the failure of all addresses is such a round. -/
theorem exhausted_of_report {w w' : World} {l : Label} (hs : step w l = some w')
    (hreport : triedAlls w'.log ≠ triedAlls w.log) :
    Exhausted w' ∧ ∃ k rest, w'.stack = .connectResult .failedTriedAll k :: rest := by
  have hnote : ∀ e : Event, triedAlls [e] = 0 → triedAlls (w.log ++ [e]) = triedAlls w.log :=
    fun e he => by rw [triedAlls_append, he, Nat.add_zero]
  have hreset : ∀ w₁ : World, triedAlls (socketReset w₁).log = triedAlls w₁.log := by
    intro w₁
    rw [socketReset_log, triedAlls_append]
    rfl
  cases step_cases hs with
  | connectAttempt hf _ hnext =>
      rw [← hnote .connectCall rfl] at hreport
      obtain ⟨hend, rest, hstack⟩ := exhausted_of_next (w := w.note .connectCall) hf hnext hreport
      exact ⟨hend, _, rest, hstack⟩
  | lookupOk hf _ _ hnext =>
      obtain ⟨hend, rest, hstack⟩ := exhausted_of_next (w := lookedUp _ _ w) hf hnext hreport
      exact ⟨hend, _, rest, hstack⟩
  | errFailed hf _ _ _ _ hnext =>
      obtain ⟨hend, rest, hstack⟩ := exhausted_of_next (w := readError _ (w.take _)) hf hnext hreport
      exact ⟨hend, _, rest, hstack⟩
  | connectLookup _ _ | close _ | lateDispatch _ _ | readable _ _ _ | writeable _ _ _ _
  | connected _ _ _ _ | errConnected _ _ _ _ | hup _ _ _ | lateLookup _ _ _
  | lookupFailed _ _ _ => exact absurd (hnote _ rfl) hreport
  | poll _ _ _ | errWaiting _ _ _ _ _ | connectDone _ | connectionError _ =>
      exact absurd rfl hreport
  | finalize _ _ => exact absurd (hreset w) hreport
  | @resume f rest _ =>
      rcases resume_cases f { w with stack := rest } with
        ⟨k, rfl, hw⟩ | ⟨c, k, rfl, hw⟩ | ⟨-, hw⟩ <;> rw [hw] at hreport
      · exact absurd (hnote _ rfl) hreport
      · rw [returnTo_log] at hreport
        exact absurd (hreset _) hreport
      · rw [returnTo_log] at hreport
        exact absurd rfl hreport

/-- In every run, whenever all addresses of a list have been tried in vain, the
socket is stranded, while the handlers of the report run and when they are
done. -/
theorem failed_connect_stranded (sa : LmSocketAddress) (as : List Label) :
    Along step
      (fun w _ w' => triedAlls w'.log ≠ triedAlls w.log → w'.sa.results ≠ [] →
        Stranded w' ∧ ∃ w'', step w' .handlersDone = some w'' ∧ Stranded w'')
      (lmSocketNew sa) as := by
  refine along_of_invariant (I := fun _ => True) (c := fun _ _ => True) ?_ trivial
    (meets_of_labels (p := fun _ => True) fun _ _ => trivial)
  intro w l w' _ _ hs
  refine ⟨fun hreport hres => ?_, trivial⟩
  obtain ⟨hend, k, rest, hstack⟩ := exhausted_of_report hs hreport
  refine ⟨hend.stranded hres, returnTo k { w' with stack := rest }, ?_, ?_⟩
  · rw [step, hstack]
    rfl
  · have hdone : Exhausted { w' with stack := rest } := ⟨hend.live, hend.iter, hend.atEnd⟩
    refine hdone.returnTo.stranded ?_
    rw [returnTo_sa]
    exact hres

/-- Three addresses refuse at once. The second connect tries none of them. -/
theorem failed_connect_not_retried :
    ∃ w w', exec step (lmSocketNew sampleSa)
        [.connect [⟨5, -1, 111⟩, ⟨5, -1, 111⟩, ⟨5, -1, 111⟩], .handlersDone] = some w ∧
      triedAlls w.log = 1 ∧ ¬ LikeNew w ∧ step w (.connect []) = some w' ∧
      w'.log = w.log ++ [.connectCall, .emit (.connectResult .failedTriedAll)] := by
  refine ⟨_, _, rfl, by decide, fun h => ?_, rfl, rfl⟩
  have hiter := h.noIterator
  cases hiter

end LmTransport.Ref
