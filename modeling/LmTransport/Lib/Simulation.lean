import LmTransport.Lib.Run
import Mathlib.Logic.Relation

/-!
# One machine stands for another

What a user of a machine sees of a transition is a list of events: often one,
and none where the machine works on its own. `trace` is what is seen of a run.

A relation between the states of two machines is a simulation when every
transition of the first is answered by a run of the second that looks the same
and leads back into the relation. The answer may be empty, which is how
the steps only the first machine has are hidden. The transitions may be restricted to those
that meet a condition, the assumption under which the first machine stands for
the second.

`Simulates.exists_run` is what it is for: nothing can be seen of the first
machine that could not be seen of the second.

Two simulations make one. The second may have a condition of its own, on the
transitions of the machine in the middle. Which ones it makes is not known, but
they look like those of the first machine, and that has to be enough
(`Follows.comp`).
-/

namespace Lts

variable {σ τ υ α β γ ε δ : Type*}

/-- The events of a run. -/
def trace (step : σ → α → Option σ) (events : σ → α → List ε) : σ → List α → List ε
  | _, [] => []
  | s, a :: as =>
      match step s a with
      | none => []
      | some t => events s a ++ trace step events t as

/-- `rel` is a simulation of the first machine by the second, for the
transitions that meet `c`. -/
def Simulates (step : σ → α → Option σ) (events : σ → α → List ε) (c : σ → α → Prop)
    (step' : τ → β → Option τ) (events' : τ → β → List ε) (rel : σ → τ → Prop) : Prop :=
  ∀ s a s' t, rel s t → c s a → step s a = some s' →
    ∃ bs t', exec step' t bs = some t' ∧ trace step' events' t bs = events s a ∧ rel s' t'

variable {step : σ → α → Option σ} {events : σ → α → List ε} {c : σ → α → Prop}
  {step' : τ → β → Option τ} {events' : τ → β → List ε} {rel : σ → τ → Prop}

theorem trace_cons_of_step {s t : σ} {a : α} {as : List α} (h : step s a = some t) :
    trace step events s (a :: as) = events s a ++ trace step events t as := by
  rw [trace, h]

theorem exec_append {s t : σ} {as bs : List α} (h : exec step s as = some t) :
    exec step s (as ++ bs) = exec step t bs := by
  induction as generalizing s with
  | nil =>
      rw [exec_nil, Option.some.injEq] at h
      rw [List.nil_append, h]
  | cons a as ih =>
      obtain ⟨u, hu, hrest⟩ := exec_cons_some h
      rw [List.cons_append, exec_cons_of_step hu, ih hrest]

/-- A condition along a run is one along both of its parts. -/
theorem meets_append {s t : σ} {as bs : List α} (hc : Meets step c s (as ++ bs))
    (h : exec step s as = some t) : Meets step c s as ∧ Meets step c t bs := by
  induction as generalizing s with
  | nil =>
      rw [exec_nil, Option.some.injEq] at h
      exact ⟨trivial, h ▸ hc⟩
  | cons a as ih =>
      obtain ⟨u, hu, hrest⟩ := exec_cons_some h
      have hmeets := ih (hc u hu).2 hrest
      refine ⟨fun v hv => ?_, hmeets.2⟩
      rw [hu, Option.some.injEq] at hv
      exact hv ▸ ⟨(hc u hu).1, hmeets.1⟩

theorem trace_append {s t : σ} {as bs : List α} (h : exec step s as = some t) :
    trace step events s (as ++ bs) = trace step events s as ++ trace step events t bs := by
  induction as generalizing s with
  | nil =>
      rw [exec_nil, Option.some.injEq] at h
      rw [List.nil_append, h, trace, List.nil_append]
  | cons a as ih =>
      obtain ⟨u, hu, hrest⟩ := exec_cons_some h
      rw [List.cons_append, trace_cons_of_step hu, trace_cons_of_step hu, ih hrest,
        List.append_assoc]

/-- What an invariant says of the events of each step holds of those of a run. -/
theorem trace_invariant {I : σ → Prop} {E : ε → Prop}
    (hstep : ∀ s a t, I s → c s a → step s a = some t → I t ∧ ∀ e ∈ events s a, E e) {s u : σ}
    {as : List α} (hI : I s) (hc : Meets step c s as) (h : exec step s as = some u) :
    I u ∧ ∀ e ∈ trace step events s as, E e := by
  induction as generalizing s with
  | nil =>
      rw [exec_nil, Option.some.injEq] at h
      exact ⟨h ▸ hI, fun e he => absurd he List.not_mem_nil⟩
  | cons a as ih =>
      obtain ⟨t, ht, hrest⟩ := exec_cons_some h
      obtain ⟨hIt, hnow⟩ := hstep s a t hI (hc t ht).1 ht
      obtain ⟨hIu, hlater⟩ := ih hIt (hc t ht).2 hrest
      refine ⟨hIu, fun e he => ?_⟩
      rw [trace_cons_of_step ht, List.mem_append] at he
      exact he.elim (hnow e) (hlater e)

/-- A run of one transition. -/
theorem exec_trace_singleton {t t' : τ} {b : β} (h : step' t b = some t') :
    exec step' t [b] = some t' ∧ trace step' events' t [b] = events' t b := by
  rw [exec_cons_of_step h, trace_cons_of_step h]
  exact ⟨rfl, List.append_nil _⟩

/-- A run of the first machine is a run of the second that looks the same. -/
theorem Simulates.exists_run (hsim : Simulates step events c step' events' rel) {s u : σ} {t : τ}
    {as : List α} (hrel : rel s t) (hc : Meets step c s as) (h : exec step s as = some u) :
    ∃ bs t', exec step' t bs = some t' ∧ trace step' events' t bs = trace step events s as ∧
      rel u t' := by
  induction as generalizing s t with
  | nil =>
      rw [exec_nil, Option.some.injEq] at h
      exact ⟨[], t, rfl, rfl, h ▸ hrel⟩
  | cons a as ih =>
      obtain ⟨v, hv, hrest⟩ := exec_cons_some h
      obtain ⟨bs, t₁, hbs, htrace, hrel₁⟩ := hsim s a v t hrel (hc v hv).1 hv
      obtain ⟨ds, t₂, hds, htrace', hrel₂⟩ := ih hrel₁ (hc v hv).2 hrest
      refine ⟨bs ++ ds, t₂, ?_, ?_, hrel₂⟩
      · rw [exec_append hbs, hds]
      · rw [trace_append hbs, htrace, htrace', trace_cons_of_step hv]

/-! ## Step for step -/

/-- `rel` is a simulation that answers a transition with one, or does not answer
it when nothing of it is seen. -/
def Follows (step : σ → α → Option σ) (events : σ → α → List ε) (c : σ → α → Prop)
    (step' : τ → β → Option τ) (events' : τ → β → List ε) (rel : σ → τ → Prop) : Prop :=
  ∀ s a s' t, rel s t → c s a → step s a = some s' →
    (events s a = [] ∧ rel s' t) ∨
      ∃ b t', step' t b = some t' ∧ events' t b = events s a ∧ rel s' t'

theorem Follows.simulates (h : Follows step events c step' events' rel) :
    Simulates step events c step' events' rel := by
  intro s a s' t hrel hc hstep
  rcases h s a s' t hrel hc hstep with ⟨hevents, hrel'⟩ | ⟨b, t', hb, hevents, hrel'⟩
  · exact ⟨[], t, rfl, hevents.symm, hrel'⟩
  · have hrun : exec step' t [b] = some t' ∧ trace step' events' t [b] = events' t b :=
      exec_trace_singleton hb
    exact ⟨[b], t', hrun.1, hrun.2.trans hevents, hrel'⟩

/-- What is seen of a run through a translation of the events. -/
theorem trace_flatMap (f : ε → List δ) (s : σ) (as : List α) :
    trace step (fun s a => (events s a).flatMap f) s as = (trace step events s as).flatMap f := by
  induction as generalizing s with
  | nil => rfl
  | cons a as ih =>
      rw [trace, trace]
      cases step s a with
      | none => rfl
      | some t => simp only [ih t, List.flatMap_append]

/-- The machine in the middle makes only transitions that look like those of the
first machine. -/
theorem Follows.comp {step'' : υ → γ → Option υ} {events'' : υ → γ → List δ} {f : ε → List δ}
    {c' : τ → β → Prop} {rel' : τ → υ → Prop} (h : Follows step events c step' events' rel)
    (h' : Simulates step' (fun t b => (events' t b).flatMap f) c' step'' events'' rel')
    (hc : ∀ s a s' t b, rel s t → c s a → step s a = some s' → events' t b = events s a →
      c' t b) :
    Simulates step (fun s a => (events s a).flatMap f) c step'' events''
      (Relation.Comp rel rel') := by
  rintro s a s' u ⟨t, hrel, hrel'⟩ hca hstep
  rcases h s a s' t hrel hca hstep with ⟨hevents, hnext⟩ | ⟨b, t', hb, hevents, hnext⟩
  · refine ⟨[], u, rfl, ?_, t, hnext, hrel'⟩
    simp only [hevents, trace, List.flatMap_nil]
  · have hcb := hc s a s' t b hrel hca hstep hevents
    obtain ⟨ds, u', hexec, htrace, hnext'⟩ := h' t b t' u hrel' hcb hb
    refine ⟨ds, u', hexec, ?_, t', hnext, hnext'⟩
    simp only [htrace, hevents]

end Lts
