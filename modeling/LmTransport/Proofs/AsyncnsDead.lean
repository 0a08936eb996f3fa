import LmTransport.Lib.Simulation
import LmTransport.Proofs.AsyncnsFlight

/-!
# A service that has died

One worker that leaves its loop is enough: its word makes the client set `dead`,
however many other workers there are. From then on the client asks for nothing
and receives nothing. Every `*_done` function answers that the child is gone before it
looks at the query, so an answer that had arrived and was not fetched cannot be
had any more, and its query stays in memory until it is cancelled.
-/

namespace LmTransport.Ref.Libasyncns

variable {s s' : Net} {capacity : Nat} {label : Label} {labels : List Label}

/-- What a service that has died still says. -/
def Event.hollow : Event → Prop
  | .submitted _ q => q = none
  | .fetched fetch _ answer => answer = fetch.childGone
  | .cancelled _ | .next _ | .isdone .. => True

/-! ## One call -/

theorem asyncnsSubmit_dead {a : Asyncns} (hdead : a.dead = true) (call : Call)
    (malloc : Option Ptr) (send : Bool) :
    asyncnsSubmit call malloc send a = none ∨
      asyncnsSubmit call malloc send a = some (none, none, a) := by
  rw [asyncnsSubmit, hdead]
  cases call.valid with
  | true => exact Or.inr rfl
  | false => exact Or.inl rfl

theorem asyncnsDone_dead {a : Asyncns} (hdead : a.dead = true) (f : Fetch) (p : Ptr) :
    asyncnsDone f p a = none ∨ asyncnsDone f p a = some (f.childGone, a) := by
  unfold asyncnsDone
  split
  · exact Or.inl rfl
  · next q _ =>
      rw [hdead]
      cases f.accepts q.type with
      | true => exact Or.inr rfl
      | false => exact Or.inl rfl

theorem asyncnsCancel_some {a b : Asyncns} {p : Ptr} (h : asyncnsCancel p a = some b) :
    ∃ q, b = a.remove p q := by
  unfold asyncnsCancel at h
  split at h
  · cases h
  · next q _ =>
      split at h
      · cases h
      · simp only [ne_eq, ite_not, Option.ite_none_right_eq_some, Option.some.injEq] at h
        exact ⟨q, h.2.symm⟩

/-! ## One step -/

theorem clientStep_of_dead (hdead : s.client.dead = true)
    (hstep : s.clientStep capacity label = some s') :
    s'.client.dead = true ∧ (∀ p, label ≠ .cancel p → s'.client.bare p = s.client.bare p) ∧
      ∀ e ∈ netEvents s label, e.hollow := by
  cases label with
  | submit call malloc send =>
      simp only [Net.clientStep, Option.ite_none_right_eq_some] at hstep
      obtain ⟨-, hstep⟩ := hstep
      rcases asyncnsSubmit_dead hdead call malloc send with hsubmit | hsubmit
      · rw [Net.submit, hsubmit] at hstep
        obtain rfl := Option.some.inj hstep
        exact ⟨hdead, fun _ _ => rfl, by simp [netEvents, hsubmit]⟩
      · rw [Net.submit, hsubmit] at hstep
        obtain rfl := Option.some.inj hstep
        exact ⟨hdead, fun _ _ => rfl, by simp [netEvents, hsubmit, Event.hollow]⟩
  | receive malloc =>
      simp [Net.clientStep, Net.receive, hdead] at hstep
  | fetch f p =>
      simp only [Net.clientStep, Option.ite_none_left_eq_some, Option.some.injEq] at hstep
      obtain ⟨-, rfl⟩ := hstep
      rcases asyncnsDone_dead hdead f p with hdone | hdone
      · refine ⟨?_, fun r _ => ?_, by simp [netEvents, hdone]⟩
        · rw [hdone]
          exact hdead
        · rw [hdone]
          rfl
      · refine ⟨?_, fun r _ => ?_, by simp [netEvents, hdone, Event.hollow]⟩
        · rw [hdone]
          exact hdead
        · rw [hdone]
          rfl
  | cancel p =>
      simp only [Net.clientStep, Option.ite_none_left_eq_some, Option.some.injEq] at hstep
      obtain ⟨-, rfl⟩ := hstep
      cases hcancel : asyncnsCancel p s.client with
      | none => exact ⟨hdead, fun _ _ => rfl, by simp [netEvents, Event.hollow]⟩
      | some b =>
          obtain ⟨q, rfl⟩ := asyncnsCancel_some hcancel
          refine ⟨(s.client.remove_dead p q).trans hdead, fun r hr => ?_,
            by simp [netEvents, Event.hollow]⟩
          show (s.client.remove p q).bare r = s.client.bare r
          rw [Asyncns.bare_remove, Function.update_of_ne]
          rintro rfl
          exact hr rfl
  | getnext =>
      obtain rfl := Option.some.inj hstep
      exact ⟨hdead, fun _ _ => rfl, by simp [netEvents, Event.hollow]⟩
  | isdone p =>
      simp only [Net.clientStep, Option.ite_none_left_eq_some, Option.some.injEq] at hstep
      refine hstep.2 ▸ ⟨hdead, fun _ _ => rfl, fun e he => ?_⟩
      simp only [netEvents, List.mem_map] at he
      obtain ⟨_, -, rfl⟩ := he
      trivial
  | take w | reply w result send | leave w | announce w send | kill w => cases hstep

/-- The client of the net is dead, and has the queries it had. -/
theorem step_of_dead (hdead : s.client.dead = true) (hstep : netStep capacity s label = some s') :
    s'.client.dead = true ∧ (∀ p, label ≠ .cancel p → s'.client.bare p = s.client.bare p) ∧
      ∀ e ∈ netEvents s label, e.hollow := by
  rcases netStep_frame hstep with ⟨-, hclient⟩ | ⟨-, hclient, -, hevents⟩
  · exact clientStep_of_dead hdead hclient
  · rw [hclient, hevents]
    exact ⟨hdead, fun _ _ => rfl, fun e he => absurd he List.not_mem_nil⟩

/-! ## Every run -/

/-- Once the word of a worker's death has arrived no call is accepted and no
answer is given any more, and a query is there until it is cancelled. -/
theorem dead_forever {u : Net} (hdead : s.client.dead = true)
    (hrun : Lts.exec (netStep capacity) s labels = some u) :
    u.client.dead = true ∧ (∀ p, .cancel p ∉ labels → u.client.bare p = s.client.bare p) ∧
      ∀ e ∈ Lts.trace (netStep capacity) netEvents s labels, e.hollow := by
  have hstep : ∀ (v : Net) (label : Label) (v' : Net), v.client.dead = true → True →
      netStep capacity v label = some v' →
      v'.client.dead = true ∧ ∀ e ∈ netEvents v label, e.hollow := fun v label v' hv _ hv' =>
    ⟨(step_of_dead hv hv').1, (step_of_dead hv hv').2.2⟩
  obtain ⟨hend, hevents⟩ :=
    Lts.trace_invariant hstep hdead (Lts.meets_of_labels fun _ _ => trivial) hrun
  refine ⟨hend, fun p hp => ?_, hevents⟩
  have hcancel : Lts.Meets (netStep capacity) (fun _ label => label ≠ .cancel p) s labels :=
    Lts.meets_of_labels fun label hlabel heq => hp (heq ▸ hlabel)
  have hkept := Lts.exec_invariant
    (I := fun v => v.client.dead = true ∧ v.client.bare p = s.client.bare p)
    (fun v label v' hv hlabel hv' =>
      ⟨(step_of_dead hv.1 hv').1, ((step_of_dead hv.1 hv').2.1 p hlabel).trans hv.2⟩)
    ⟨hdead, rfl⟩ hcancel hrun
  exact hkept.2

/-- The answer of a lookup has arrived, and then one of the two workers dies. -/
def oneDeath : List Label :=
  [.submit (.resQuery (strndup [97] 1) 1 33) (some 7) true, .take 0,
    .reply 0 (.res ⟨2, 0, 0⟩ [1, 2]) true, .receive fun _ => true, .leave 0, .announce 0 true,
    .receive fun _ => true]

theorem dead_forever_oneDeath :
    ∃ s u, Lts.exec (netStep 4) (asyncnsNew 2) oneDeath = some s ∧
      (s.client.heap 7).map (·.done) = some true ∧
      Lts.exec (netStep 4) s [.fetch .res 7, .fetch .res 7] = some u ∧
      u.client.dead = true ∧
      (∀ p, .cancel p ∉ [Label.fetch .res 7, .fetch .res 7] →
        u.client.bare p = s.client.bare p) ∧
      ∀ e ∈ Lts.trace (netStep 4) netEvents s [.fetch .res 7, .fetch .res 7], e.hollow := by
  have hsome : (Lts.exec (netStep 4) (asyncnsNew 2) oneDeath).map (fun s =>
      (s.client.dead, (s.client.heap 7).map (·.done),
        (Lts.exec (netStep 4) s [.fetch .res 7, .fetch .res 7]).isSome)) =
      some (true, some true, true) := by
    decide +kernel
  obtain ⟨s, hrun, hs⟩ := Option.map_eq_some_iff.mp hsome
  simp only [Prod.mk.injEq] at hs
  obtain ⟨hdead, hdone, hu⟩ := hs
  obtain ⟨u, hrun'⟩ := Option.isSome_iff_exists.mp hu
  exact ⟨s, u, hrun, hdone, hrun', dead_forever hdead hrun'⟩

end LmTransport.Ref.Libasyncns
