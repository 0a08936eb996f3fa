import LmTransport.Lib.Run

/-!
# Machines that come to rest

Some of the transitions of a machine are asked for by its environment and some
it makes on its own accord. When a measure gets smaller with each of the latter,
the machine cannot go on forever without being asked: whatever order it makes
its transitions in, there are only so many of them (`length_le_of_measure`), and
it gets to a state in which none is left (`exists_stuck`). What has been achieved
then is a matter of looking at the states that are stuck.

`c` says which transitions these are and `I` is an invariant the measure may
rely on.
-/

namespace Lts

variable {σ α : Type*} {step : σ → α → Option σ} {c : σ → α → Prop} {I : σ → Prop} {μ : σ → Nat}

/-- No transition that meets `c` is left. -/
def Stuck (step : σ → α → Option σ) (c : σ → α → Prop) (s : σ) : Prop :=
  ∀ a t, c s a → step s a ≠ some t

theorem Stuck.eq_none {s : σ} {a : α} (h : Stuck step c s) (ha : c s a) : step s a = none := by
  rw [Option.eq_none_iff_forall_ne_some]
  exact fun t => h a t ha

/-- The measure bounds the number of transitions in every order. -/
theorem length_le_of_measure
    (hstep : ∀ s a t, I s → c s a → step s a = some t → I t ∧ μ t < μ s) {s t : σ} {as : List α}
    (hI : I s) (hc : Meets step c s as) (h : exec step s as = some t) :
    as.length + μ t ≤ μ s := by
  induction as generalizing s with
  | nil =>
      rw [exec_nil, Option.some.injEq] at h
      rw [h, List.length_nil]
      omega
  | cons a as ih =>
      obtain ⟨u, hu, hrest⟩ := exec_cons_some h
      obtain ⟨hIu, hlt⟩ := hstep s a u hI (hc u hu).1 hu
      have hle := ih hIu (hc u hu).2 hrest
      rw [List.length_cons]
      omega

/-- The machine can always go on until nothing is left. -/
theorem exists_stuck
    (hstep : ∀ s a t, I s → c s a → step s a = some t → I t ∧ μ t < μ s) {s : σ} (hI : I s) :
    ∃ as t, Meets step c s as ∧ exec step s as = some t ∧ I t ∧ Stuck step c t := by
  induction hn : μ s using Nat.strongRecOn generalizing s with
  | _ n ih =>
      by_cases hstuck : Stuck step c s
      · exact ⟨[], s, trivial, rfl, hI, hstuck⟩
      · simp only [Stuck, not_forall, not_not] at hstuck
        obtain ⟨a, t, ha, ht⟩ := hstuck
        obtain ⟨hIt, hlt⟩ := hstep s a t hI ha ht
        obtain ⟨as, u, has, hu, hIu, hend⟩ := ih (μ t) (hn ▸ hlt) hIt rfl
        refine ⟨a :: as, u, fun v hv => ?_, ?_, hIu, hend⟩
        · rw [ht, Option.some.injEq] at hv
          exact hv ▸ ⟨ha, has⟩
        · rw [exec_cons_of_step ht, hu]

end Lts
