import Mathlib.Data.List.Basic

/-!
# Linked lists in memory

A pointer is `none` or the place of a node, and `next` is the link each node
has. `Chain` says that following the links from a pointer visits the given
nodes, in that order, and ends at the null pointer. There is no condition that
keeps the nodes apart: a list that comes back to itself has no end, so it is no
chain.

`walk` is the loop that visits one node after the other and may change the
state at each, links included, since it reads the link only after the visit. It
runs on fuel, because on a list without an end it does not stop. On a chain
whose links the visits leave alone, as much fuel as there are nodes is enough,
and the loop is a fold.
-/

namespace LinkedList

variable {π σ : Type*}

inductive Chain (next : π → Option π) : Option π → List π → Prop
  | nil : Chain next none []
  | cons {p : π} {ps : List π} (rest : Chain next (next p) ps) : Chain next (some p) (p :: ps)

/-- Where `n` links from a pointer lead. The null pointer leads nowhere else. -/
def follow (next : π → Option π) : Nat → Option π → Option π
  | 0, p => p
  | n + 1, p => follow next n (p.bind next)

/-- `while (p) { visit (p); p = p->next; }`. -/
def walk (next : σ → π → Option π) (visit : π → σ → σ) : Nat → Option π → σ → Option σ
  | _, none, s => some s
  | 0, some _, _ => none
  | fuel + 1, some p, s => walk next visit fuel (next (visit p s) p) (visit p s)

section
variable {next : π → Option π} {p : Option π} {ps : List π}

theorem Chain.isSome_iff (h : Chain next p ps) : p.isSome = true ↔ ps ≠ [] := by
  cases h with
  | nil => simp
  | cons _ => simp

/-- The null pointer is the end however often it is followed. -/
theorem follow_none (n : Nat) : follow next n none = none := by
  induction n with
  | zero => rfl
  | succ n ih => exact ih

/-- After `n` links comes the node number `n`, and after the last one the null
pointer. -/
theorem Chain.follow_eq (h : Chain next p ps) (n : Nat) : follow next n p = ps[n]? := by
  induction n generalizing p ps with
  | zero =>
      cases h with
      | nil => rfl
      | cons _ => rfl
  | succ n ih =>
      cases h with
      | nil => exact follow_none n
      | cons rest =>
          rw [List.getElem?_cons_succ]
          exact ih rest

end

section
variable {next : σ → π → Option π} {visit : π → σ → σ}

/-- The loop over a chain, when no visit changes a link. -/
theorem walk_chain (hlinks : ∀ p s, next (visit p s) = next s) {s : σ} {p : Option π}
    {ps : List π} (h : Chain (next s) p ps) {fuel : Nat} (hfuel : ps.length ≤ fuel) :
    walk next visit fuel p s = some (ps.foldl (fun s p => visit p s) s) := by
  induction fuel generalizing s p ps with
  | zero =>
      cases h with
      | nil => rfl
      | cons _ => exact absurd hfuel (by simp)
  | succ fuel ih =>
      cases h with
      | nil => rfl
      | @cons p ps rest =>
          rw [walk, hlinks, List.foldl_cons]
          refine ih ?_ (Nat.le_of_succ_le_succ hfuel)
          rw [hlinks]
          exact rest

end

end LinkedList
