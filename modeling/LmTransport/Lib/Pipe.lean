import Mathlib.Data.List.Basic

/-!
# Pipes

What is put into a pipe is held until it is accepted at the other end. `passed`
and `accepted` are everything put in and accepted so far, and a pipe is
`Intact` when the two agree up to what is held. Contents can also get lost:
then the pipe is `Short`, by the lengths alone, and stays it.

`InOrder` is the invariant a user of a pipe can keep up through losses: what
was accepted is a prefix of what was passed, and unless something was lost the
pipe is intact. All that it takes is to accept nothing from a short pipe.
-/

structure Pipe (α : Type*) where
  passed : List α
  accepted : List α
  held : List α

namespace Pipe

variable {α : Type*} {p : Pipe α}

def put (p : Pipe α) (data : List α) : Pipe α :=
  { p with passed := p.passed ++ data, held := p.held ++ data }

/-- The next `n` elements come out, or all that are held. -/
def accept (p : Pipe α) (n : Nat) : Pipe α :=
  { p with accepted := p.accepted ++ p.held.take n, held := p.held.drop n }

def lose (p : Pipe α) : Pipe α := { p with held := [] }

def Intact (p : Pipe α) : Prop := p.passed = p.accepted ++ p.held

def Short (p : Pipe α) : Prop := p.accepted.length + p.held.length < p.passed.length

instance (p : Pipe α) : Decidable p.Short := inferInstanceAs (Decidable (_ < _))

structure InOrder (p : Pipe α) : Prop where
  isPrefix : p.accepted <+: p.passed
  intact : ¬p.Short → p.Intact

theorem Intact.not_short (h : p.Intact) : ¬p.Short := by
  unfold Short
  rw [h, List.length_append]
  exact Nat.lt_irrefl _

theorem Intact.inOrder (h : p.Intact) : p.InOrder where
  isPrefix := ⟨p.held, h.symm⟩
  intact _ := h

theorem Intact.put (h : p.Intact) (data : List α) : (p.put data).Intact := by
  show p.passed ++ data = p.accepted ++ (p.held ++ data)
  rw [h, List.append_assoc]

theorem Intact.accept (h : p.Intact) (n : Nat) : (p.accept n).Intact := by
  show p.passed = p.accepted ++ p.held.take n ++ p.held.drop n
  rw [h, List.append_assoc, List.take_append_drop]

@[simp] theorem accept_zero (p : Pipe α) : p.accept 0 = p := by
  simp [Pipe.accept]

@[simp] theorem short_put {data : List α} : (p.put data).Short ↔ p.Short := by
  simp only [Short, Pipe.put, List.length_append]
  omega

@[simp] theorem short_accept {n : Nat} : (p.accept n).Short ↔ p.Short := by
  simp only [Short, Pipe.accept, List.length_append, List.length_take, List.length_drop]
  omega

/-! ## Staying in order -/

theorem InOrder.put (h : p.InOrder) (data : List α) : (p.put data).InOrder where
  isPrefix := h.isPrefix.trans (List.prefix_append _ _)
  intact hshort := (h.intact (mt short_put.mpr hshort)).put data

theorem InOrder.accept (h : p.InOrder) {n : Nat} (hn : p.Short → n = 0) :
    (p.accept n).InOrder := by
  by_cases hshort : p.Short
  · rw [hn hshort, accept_zero]
    exact h
  · exact ((h.intact hshort).accept n).inOrder

/-- With nothing held, a pipe in order is short or has passed everything on. -/
theorem InOrder.lose (h : p.InOrder) : p.lose.InOrder where
  isPrefix := h.isPrefix
  intact hshort := by
    have hlength : p.passed.length ≤ p.accepted.length := Nat.le_of_not_lt hshort
    show p.passed = p.accepted ++ []
    rw [List.append_nil, h.isPrefix.eq_of_length_le hlength]

end Pipe
