import Mathlib.Data.Finset.Insert
import Mathlib.Data.Finset.Basic
import Mathlib.Data.List.Count

/-!
# Resources that are acquired, used and released

A trace of what a program did with a family of resources: descriptors it
opened and closed, sessions it set up and tore down. `Sound` is the discipline
at every point of the trace (nothing is used or released unless it is held,
and nothing is acquired twice without a release between), `held` is what is
left at the end. A trace that is sound and leaves nothing held has released
every acquisition exactly once; `count_release_eq` is that statement.

The identifiers are arbitrary and may be handed out again once released, which
is what operating systems do with descriptor numbers.
-/

namespace Lifecycle

/-- What a program does with the resource named `i`. -/
inductive Ev (ι : Type*) where
  | acquire (i : ι)
  | use (i : ι)
  | release (i : ι)
deriving DecidableEq, Repr

variable {ι : Type*} [DecidableEq ι]

/-- What is held after one more event. -/
def apply (s : Finset ι) : Ev ι → Finset ι
  | .acquire i => insert i s
  | .use _ => s
  | .release i => s.erase i

/-- The events the discipline allows when `s` is held. -/
def Allowed (s : Finset ι) : Ev ι → Prop
  | .acquire i => i ∉ s
  | .use i => i ∈ s
  | .release i => i ∈ s

instance (s : Finset ι) : (e : Ev ι) → Decidable (Allowed s e)
  | .acquire i => inferInstanceAs (Decidable (i ∉ s))
  | .use i => inferInstanceAs (Decidable (i ∈ s))
  | .release i => inferInstanceAs (Decidable (i ∈ s))

/-- What is held after a trace that started with `s` held. -/
def held (s : Finset ι) (evs : List (Ev ι)) : Finset ι := evs.foldl apply s

/-- Every event of the trace was allowed when it happened. -/
def Sound : Finset ι → List (Ev ι) → Prop
  | _, [] => True
  | s, e :: evs => Allowed s e ∧ Sound (apply s e) evs

instance decSound : (s : Finset ι) → (evs : List (Ev ι)) → Decidable (Sound s evs)
  | _, [] => isTrue trivial
  | s, e :: evs =>
      have := decSound (apply s e) evs
      inferInstanceAs (Decidable (Allowed s e ∧ Sound (apply s e) evs))

@[simp] theorem held_nil (s : Finset ι) : held s [] = s := rfl

@[simp] theorem held_cons (s : Finset ι) (e : Ev ι) (evs : List (Ev ι)) :
    held s (e :: evs) = held (apply s e) evs := rfl

@[simp] theorem held_append (s : Finset ι) (evs evs' : List (Ev ι)) :
    held s (evs ++ evs') = held (held s evs) evs' := List.foldl_append

@[simp] theorem sound_nil (s : Finset ι) : Sound s [] ↔ True := Iff.rfl

@[simp] theorem sound_cons (s : Finset ι) (e : Ev ι) (evs : List (Ev ι)) :
    Sound s (e :: evs) ↔ Allowed s e ∧ Sound (apply s e) evs := Iff.rfl

@[simp] theorem sound_append (s : Finset ι) (evs evs' : List (Ev ι)) :
    Sound s (evs ++ evs') ↔ Sound s evs ∧ Sound (held s evs) evs' := by
  induction evs generalizing s with
  | nil => simp
  | cons e evs ih => simp [ih, and_assoc]

@[simp] theorem mem_apply_acquire {s : Finset ι} {i j : ι} :
    j ∈ apply s (.acquire i) ↔ j = i ∨ j ∈ s := Finset.mem_insert

@[simp] theorem apply_use (s : Finset ι) (i : ι) : apply s (.use i) = s := rfl

@[simp] theorem mem_apply_release {s : Finset ι} {i j : ι} :
    j ∈ apply s (.release i) ↔ j ≠ i ∧ j ∈ s := Finset.mem_erase

/-! Any number of uses is one use as far as the discipline goes. -/

@[simp] theorem held_replicate_use (s : Finset ι) (i : ι) (n : Nat) :
    held s (List.replicate n (.use i)) = s := by
  induction n with
  | zero => rfl
  | succ n ih => rw [List.replicate_succ, held_cons, apply_use, ih]

theorem sound_replicate_use {s : Finset ι} {i : ι} {n : Nat} :
    Sound s (List.replicate n (.use i)) ↔ n = 0 ∨ i ∈ s := by
  induction n with
  | zero => simp
  | succ n ih =>
      rw [List.replicate_succ, sound_cons, apply_use, ih]
      constructor
      · exact fun h => Or.inr h.1
      · intro h
        rcases h with hn | hi
        · cases hn
        · exact ⟨hi, Or.inr hi⟩

/-- A resource a trace never releases is still held at its end. -/
theorem mem_held_of_mem {s : Finset ι} {i : ι} {evs : List (Ev ι)} (hi : i ∈ s)
    (hevs : Ev.release i ∉ evs) : i ∈ held s evs := by
  induction evs generalizing s with
  | nil => exact hi
  | cons e evs ih =>
      rw [List.mem_cons, not_or] at hevs
      refine ih ?_ hevs.2
      cases e with
      | acquire j => exact mem_apply_acquire.mpr (Or.inr hi)
      | use j => exact hi
      | release j =>
          exact mem_apply_release.mpr ⟨fun h => hevs.1 (h ▸ rfl), hi⟩

/-- How many of `i` are held: one or none. -/
def holding (s : Finset ι) (i : ι) : Nat := if i ∈ s then 1 else 0

theorem holding_of_mem {s : Finset ι} {i : ι} (h : i ∈ s) : holding s i = 1 := if_pos h

theorem holding_of_not_mem {s : Finset ι} {i : ι} (h : i ∉ s) : holding s i = 0 :=
  if_neg h

theorem holding_congr {s t : Finset ι} {i : ι} (h : i ∈ s ↔ i ∈ t) :
    holding s i = holding t i := by
  by_cases hi : i ∈ s
  · rw [holding_of_mem hi, holding_of_mem (h.mp hi)]
  · rw [holding_of_not_mem hi, holding_of_not_mem (fun ht => hi (h.mpr ht))]

/-- In a sound trace the acquisitions of `i` are its releases plus the one
still open, if there is one. -/
theorem count_acquire {s : Finset ι} {evs : List (Ev ι)} (h : Sound s evs) (i : ι) :
    evs.count (.acquire i) + holding s i =
      evs.count (.release i) + holding (held s evs) i := by
  induction evs generalizing s with
  | nil => rw [held_nil, List.count_nil, List.count_nil]
  | cons e evs ih =>
      obtain ⟨hallowed, hrest⟩ := h
      have hih := ih hrest
      rw [held_cons]
      cases e with
      | acquire j =>
          have hj : j ∉ s := hallowed
          by_cases hij : i = j
          · subst hij
            rw [holding_of_mem (mem_apply_acquire.mpr (Or.inl rfl))] at hih
            rw [holding_of_not_mem hj, List.count_cons_self,
              List.count_cons_of_ne (by simp)]
            omega
          · rw [holding_congr (t := s) (by simp [hij])] at hih
            rw [List.count_cons_of_ne (by simp [Ne.symm hij]),
              List.count_cons_of_ne (by simp)]
            exact hih
      | use j =>
          rw [apply_use] at hih ⊢
          rw [List.count_cons_of_ne (by simp), List.count_cons_of_ne (by simp)]
          exact hih
      | release j =>
          have hj : j ∈ s := hallowed
          by_cases hij : i = j
          · subst hij
            rw [holding_of_not_mem (by simp)] at hih
            rw [holding_of_mem hj, List.count_cons_self,
              List.count_cons_of_ne (by simp)]
            omega
          · rw [holding_congr (t := s) (by simp [hij])] at hih
            rw [List.count_cons_of_ne (by simp), List.count_cons_of_ne (by simp [Ne.symm hij])]
            exact hih

/-- A sound trace that leaves nothing held releases every acquisition exactly
once. -/
theorem count_release_eq {evs : List (Ev ι)} (h : Sound ∅ evs) (hend : held ∅ evs = ∅)
    (i : ι) : evs.count (.release i) = evs.count (.acquire i) := by
  have hcount := count_acquire h i
  rw [hend, holding_of_not_mem (Finset.notMem_empty i)] at hcount
  exact (Nat.add_right_cancel hcount).symm

end Lifecycle
