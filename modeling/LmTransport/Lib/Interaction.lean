import Mathlib.Data.List.Basic

/-!
# Programs that ask their environment

A `Prog` is code that cannot be read, seen from outside: it asks, gets an
answer and goes on with what it makes of it, until it is done. Every program is
done after finitely many questions. What is known of such code is known of its
paths, the answers it could get with the result they lead to, and `run` takes
one of them with an environment that has a state of its own. The environment
may know more of an answer than the program sees of it.

The second part is about doing the same thing over and over, one round after
the other, and about the first round that is different.
-/

namespace Interaction

variable {κ α ρ ε β σ τ : Type*}

inductive Prog (κ α ρ : Type*) where
  | done (r : ρ)
  | ask (q : κ) (next : α → Prog κ α ρ)

/-- With these questions and answers the program comes to this result. -/
inductive Path : Prog κ α ρ → List (κ × α) → ρ → Prop
  | done (r : ρ) : Path (.done r) [] r
  | ask {q : κ} {next : α → Prog κ α ρ} {a : α} {trace : List (κ × α)} {r : ρ}
      (rest : Path (next a) trace r) : Path (.ask q next) ((q, a) :: trace) r

theorem path_ask_done {q : κ} {f : α → ρ} {trace : List (κ × α)} {r : ρ}
    (h : Path (.ask q fun a => .done (f a)) trace r) : ∃ a, trace = [(q, a)] ∧ r = f a := by
  cases h with
  | @ask _ _ a trace _ rest =>
      cases rest
      exact ⟨a, rfl, rfl⟩

/-- What was asked and answered, the result, and the state the environment is
left in. -/
def run (see : κ → β → α) (answer : κ → ε → β × ε) :
    Prog κ α ρ → ε → List (κ × β) × ρ × ε
  | .done r, e => ([], r, e)
  | .ask q next, e =>
      let a := answer q e
      let rest := run see answer (next (see q a.1)) a.2
      ((q, a.1) :: rest.1, rest.2)

section
variable {see : κ → β → α} {answer : κ → ε → β × ε}

theorem run_path (p : Prog κ α ρ) (e : ε) :
    Path p ((run see answer p e).1.map fun x => (x.1, see x.1 x.2)) (run see answer p e).2.1 := by
  induction p generalizing e with
  | done r => exact .done r
  | ask q next ih => exact .ask (ih _ _)

/-- What is true of every answer of the environment is true of those in the
trace. -/
theorem run_forall {P : κ → β → Prop} (hanswer : ∀ q e, P q (answer q e).1) (p : Prog κ α ρ)
    (e : ε) : ∀ x ∈ (run see answer p e).1, P x.1 x.2 := by
  induction p generalizing e with
  | done r => exact fun _ hx => absurd hx List.not_mem_nil
  | ask q next ih =>
      intro x hx
      rcases List.mem_cons.mp hx with rfl | hx
      · exact hanswer q e
      · exact ih _ _ x hx

end

/-! ## Rounds -/

def rounds (round : σ → τ × σ) : Nat → σ → List τ
  | 0, _ => []
  | n + 1, s => (round s).1 :: rounds round n (round s).2

/-- Round number `n`, counted from zero. -/
def nth (round : σ → τ × σ) : Nat → σ → τ
  | 0, s => (round s).1
  | n + 1, s => nth round n (round s).2

section
variable {round : σ → τ × σ}

theorem rounds_succ (n : Nat) (s : σ) :
    rounds round (n + 1) s = rounds round n s ++ [nth round n s] := by
  induction n generalizing s with
  | zero => rfl
  | succ n ih =>
      rw [rounds, ih (round s).2]
      rfl

theorem exists_nth {n : Nat} {s : σ} {x : τ} (h : x ∈ rounds round n s) :
    ∃ i, x = nth round i s := by
  induction n generalizing s with
  | zero => exact absurd h List.not_mem_nil
  | succ n ih =>
      rcases List.mem_cons.mp h with rfl | h
      · exact ⟨0, rfl⟩
      · obtain ⟨i, rfl⟩ := ih h
        exact ⟨i + 1, rfl⟩

/-- If some round is different, one is the first. -/
theorem exists_first {p : τ → Prop} {n : Nat} {s : σ} (h : ¬p (nth round n s)) :
    ∃ m, (∀ x ∈ rounds round m s, p x) ∧ ¬p (nth round m s) := by
  have hnone : ∀ x ∈ rounds round 0 s, p x := fun _ hx => absurd hx List.not_mem_nil
  induction n generalizing s with
  | zero => exact ⟨0, hnone, h⟩
  | succ n ih =>
      by_cases hfirst : p (round s).1
      · obtain ⟨m, hbefore, hm⟩ := ih h fun _ hx => absurd hx List.not_mem_nil
        exact ⟨m + 1, List.forall_mem_cons.mpr ⟨hfirst, hbefore⟩, hm⟩
      · exact ⟨0, hnone, hfirst⟩

/-- What is true of every round whatever it starts from is true of each. -/
theorem nth_forall {P : τ → Prop} (hround : ∀ s, P (round s).1) (n : Nat) (s : σ) :
    P (nth round n s) := by
  induction n generalizing s with
  | zero => exact hround s
  | succ n ih => exact ih (round s).2

end

end Interaction
