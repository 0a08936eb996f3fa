import Mathlib.Data.List.Basic

/-!
# Counting who holds what

A reference count is right when it is the number of those who hold the object.
The holders come in collections of different kinds, and a holder of each kind
has at most one reference, in a field of its own. `pointers` counts the members
of one collection whose field has a reference to an object, and the lemmas say
what adding, changing and removing a member does to that number. They are
stated as sums on both sides, so that the counts of several collections add up
by linear arithmetic.
-/

namespace Refcount

variable {κ ι : Type*} [DecidableEq ι]

/-- What a field with the value `v` adds to the holders of `i`. -/
def one (v : Option ι) (i : ι) : Nat := if v = some i then 1 else 0

/-- How many of `l` have a reference to `i` in the field `f`. -/
def pointers (f : κ → Option ι) (l : List κ) (i : ι) : Nat := l.countP fun k => f k = some i

@[simp] theorem one_none (i : ι) : one none i = 0 := rfl

@[simp] theorem one_self (i : ι) : one (some i) i = 1 := if_pos rfl

theorem one_of_ne {i j : ι} (h : i ≠ j) : one (some i) j = 0 :=
  if_neg fun he => h (Option.some.inj he)

theorem pointers_cons (f : κ → Option ι) (k : κ) (l : List κ) (i : ι) :
    pointers f (k :: l) i = pointers f l i + one (f k) i := by
  unfold pointers one
  rw [List.countP_cons]
  by_cases h : f k = some i
  · simp [h]
  · simp [h]

theorem pointers_concat (f : κ → Option ι) (l : List κ) (k : κ) (i : ι) :
    pointers f (l ++ [k]) i = pointers f l i + one (f k) i := by
  induction l with
  | nil => rw [List.nil_append, pointers_cons]
  | cons m l ih =>
      rw [List.cons_append, pointers_cons, pointers_cons, ih]
      omega

/-- A member is changed: its old reference goes, its new one comes. -/
theorem pointers_modify {f : κ → Option ι} {g : κ → κ} {l : List κ} {n : Nat} {k : κ}
    (h : l[n]? = some k) (i : ι) :
    pointers f (l.modify n g) i + one (f k) i = pointers f l i + one (f (g k)) i := by
  induction l generalizing n with
  | nil => cases h
  | cons m l ih =>
      cases n with
      | zero =>
          rw [List.getElem?_cons_zero, Option.some.injEq] at h
          subst h
          rw [List.modify_zero_cons, pointers_cons, pointers_cons]
          omega
      | succ n =>
          have hmod := ih (by rwa [List.getElem?_cons_succ] at h)
          rw [List.modify_succ_cons, pointers_cons, pointers_cons]
          omega

theorem pointers_erase [DecidableEq κ] {f : κ → Option ι} {l : List κ} {k : κ} (h : k ∈ l)
    (i : ι) : pointers f (l.erase k) i + one (f k) i = pointers f l i := by
  induction l with
  | nil => cases h
  | cons m l ih =>
      by_cases hm : m = k
      · subst hm
        rw [List.erase_cons_head, pointers_cons]
      · have hk : k ∈ l := (List.mem_cons.mp h).resolve_left (Ne.symm hm)
        have herase := ih hk
        rw [List.erase_cons_tail (by simpa using hm), pointers_cons, pointers_cons]
        omega

/-- A member with a reference to `i` is one of those who hold it. -/
theorem one_le_pointers {f : κ → Option ι} {l : List κ} {n : Nat} {k : κ} (h : l[n]? = some k)
    (i : ι) : one (f k) i ≤ pointers f l i := by
  induction l generalizing n with
  | nil => cases h
  | cons m l ih =>
      cases n with
      | zero =>
          rw [List.getElem?_cons_zero, Option.some.injEq] at h
          subst h
          rw [pointers_cons]
          omega
      | succ n =>
          rw [List.getElem?_cons_succ] at h
          have hrest := ih h
          rw [pointers_cons]
          omega

end Refcount
