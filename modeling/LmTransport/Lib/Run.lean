import Mathlib.Data.Option.Basic

/-!
# Runs of a partial labelled machine

A machine is a partial step function: a label either takes a state to one
state or is not enabled there. All the freedom of an environment lives in the
labels, so a list of labels is a run and a theorem about every run is a
theorem about every list.

Two notions are enough for the safety arguments built on this. `exec` is the
state a run ends in. `Along` says that every transition the run takes has a
property, and `Meets` is the special case of a condition on the source state
and the label, the form an assumption about the environment takes. The rules
at the end turn a step lemma into a statement about runs: `along_of_invariant`
when the invariant survives the steps that meet a condition, and
`along_iff_meets` when a step that misses the condition is where the property
breaks.
-/

namespace Lts

variable {σ α : Type*}

/-- The state a list of labels leads to, if every label is enabled in turn. -/
def exec (step : σ → α → Option σ) : σ → List α → Option σ
  | s, [] => some s
  | s, a :: as =>
      match step s a with
      | none => none
      | some t => exec step t as

/-- Every transition the run takes satisfies `P`. A label that is not enabled
ends the run, and what follows it is never taken. -/
def Along (step : σ → α → Option σ) (P : σ → α → σ → Prop) : σ → List α → Prop
  | _, [] => True
  | s, a :: as => ∀ t, step s a = some t → P s a t ∧ Along step P t as

/-- Every label the run takes meets the condition `c` where it is taken. -/
def Meets (step : σ → α → Option σ) (c : σ → α → Prop) : σ → List α → Prop :=
  Along step fun s a _ => c s a

variable {step : σ → α → Option σ} {P Q : σ → α → σ → Prop} {c : σ → α → Prop}

/-- On a concrete run both notions can be computed. -/
instance Along.dec [∀ s a t, Decidable (P s a t)] :
    (s : σ) → (as : List α) → Decidable (Along step P s as)
  | _, [] => isTrue trivial
  | s, a :: as =>
      match h : step s a with
      | none => isTrue fun t ht => by rw [h] at ht; cases ht
      | some t =>
          have := Along.dec t as
          decidable_of_iff (P s a t ∧ Along step P t as) <| by
            constructor
            · intro hP u hu
              rw [h, Option.some.injEq] at hu
              exact hu ▸ hP
            · exact fun hP => hP t h

instance [∀ s a, Decidable (c s a)] (s : σ) (as : List α) : Decidable (Meets step c s as) :=
  Along.dec s as

@[simp] theorem exec_nil (s : σ) : exec step s [] = some s := rfl

theorem exec_cons_of_step {s t : σ} {a : α} {as : List α} (h : step s a = some t) :
    exec step s (a :: as) = exec step t as := by
  rw [exec, h]

/-- A run that got through its first label and the rest. -/
theorem exec_cons_some {s u : σ} {a : α} {as : List α}
    (h : exec step s (a :: as) = some u) :
    ∃ t, step s a = some t ∧ exec step t as = some u := by
  rw [exec] at h
  split at h
  · cases h
  · next t hst => exact ⟨t, hst, h⟩

theorem exec_concat {s t u : σ} {as : List α} {a : α} (has : exec step s as = some t)
    (ha : step t a = some u) : exec step s (as ++ [a]) = some u := by
  induction as generalizing s with
  | nil =>
      rw [exec_nil, Option.some.injEq] at has
      subst has
      rw [List.nil_append, exec_cons_of_step ha, exec_nil]
  | cons b as ih =>
      obtain ⟨v, hv, hrest⟩ := exec_cons_some has
      rw [List.cons_append, exec_cons_of_step hv, ih hrest]

theorem Along.and {s : σ} {as : List α} (hP : Along step P s as) (hQ : Along step Q s as) :
    Along step (fun s a t => P s a t ∧ Q s a t) s as := by
  induction as generalizing s with
  | nil => trivial
  | cons a as ih =>
      intro t ht
      exact ⟨⟨(hP t ht).1, (hQ t ht).1⟩, ih (hP t ht).2 (hQ t ht).2⟩

theorem Meets.and {c' : σ → α → Prop} {s : σ} {as : List α} (hc : Meets step c s as)
    (hc' : Meets step c' s as) : Meets step (fun s a => c s a ∧ c' s a) s as :=
  Along.and (P := fun s a _ => c s a) (Q := fun s a _ => c' s a) hc hc'

/-- A condition on the labels alone is met wherever they are taken. -/
theorem meets_of_labels {p : α → Prop} {s : σ} {as : List α} (hp : ∀ a ∈ as, p a) :
    Meets step (fun _ a => p a) s as := by
  induction as generalizing s with
  | nil => trivial
  | cons a as ih =>
      intro t _
      refine ⟨hp a (List.mem_cons_self ..), ih fun b hb => ?_⟩
      exact hp b (List.mem_cons_of_mem _ hb)

/-- The transition in the middle of a run has the property the run has along
it. -/
theorem Along.mid {s t u : σ} {as bs : List α} {a : α}
    (h : Along step P s (as ++ a :: bs)) (has : exec step s as = some t)
    (ha : step t a = some u) : P t a u := by
  induction as generalizing s with
  | nil =>
      rw [exec_nil, Option.some.injEq] at has
      subst has
      exact (h u ha).1
  | cons b as ih =>
      obtain ⟨v, hv, hrest⟩ := exec_cons_some has
      exact ih (h v hv).2 hrest

/-! ## From one step to a run

`I` is the invariant and `c` the condition each step is allowed to assume. -/

theorem exec_invariant {I : σ → Prop}
    (hstep : ∀ s a t, I s → c s a → step s a = some t → I t) {s t : σ} {as : List α}
    (hI : I s) (hc : Meets step c s as) (h : exec step s as = some t) : I t := by
  induction as generalizing s with
  | nil =>
      rw [exec_nil, Option.some.injEq] at h
      exact h ▸ hI
  | cons a as ih =>
      obtain ⟨u, hu, hrest⟩ := exec_cons_some h
      exact ih (hstep s a u hI (hc u hu).1 hu) (hc u hu).2 hrest

/-- The unconditional form: an invariant of every step is one of every run. -/
theorem exec_preserves {I : σ → Prop}
    (hstep : ∀ s a t, I s → step s a = some t → I t) {s t : σ} {as : List α}
    (hI : I s) (h : exec step s as = some t) : I t :=
  exec_invariant (c := fun _ _ => True) (fun s a t hI _ hst => hstep s a t hI hst) hI
    (meets_of_labels fun _ _ => trivial) h

theorem along_of_invariant {I : σ → Prop}
    (hstep : ∀ s a t, I s → c s a → step s a = some t → P s a t ∧ I t) {s : σ}
    {as : List α} (hI : I s) (hc : Meets step c s as) : Along step P s as := by
  induction as generalizing s with
  | nil => trivial
  | cons a as ih =>
      intro t ht
      obtain ⟨hP, hIt⟩ := hstep s a t hI (hc t ht).1 ht
      exact ⟨hP, ih hIt (hc t ht).2⟩

/-- When the condition is exact, so is its run: as long as the condition has
been met the invariant holds, and from there the next step has the property
just when it meets the condition too. -/
theorem along_iff_meets {I : σ → Prop}
    (hstep : ∀ s a t, I s → step s a = some t → (P s a t ↔ c s a) ∧ (c s a → I t))
    {s : σ} {as : List α} (hI : I s) : Along step P s as ↔ Meets step c s as := by
  induction as generalizing s with
  | nil => exact Iff.rfl
  | cons a as ih =>
      constructor
      · intro h t ht
        obtain ⟨hiff, hIt⟩ := hstep s a t hI ht
        have hc := hiff.mp (h t ht).1
        exact ⟨hc, (ih (hIt hc)).mp (h t ht).2⟩
      · intro h t ht
        obtain ⟨hiff, hIt⟩ := hstep s a t hI ht
        have hc := (h t ht).1
        exact ⟨hiff.mpr hc, (ih (hIt hc)).mpr (h t ht).2⟩

end Lts
