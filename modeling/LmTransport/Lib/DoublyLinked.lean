import LmTransport.Lib.LinkedList
import Mathlib.Data.List.Nodup

/-!
# Doubly linked queues in memory

A list whose nodes carry their links themselves, a pointer each way, and of
which the owner keeps both ends. New nodes go to the end and any node can be
taken out, without a search, by way of its own links.

`Holds` says that the links spell out a given list of distinct nodes, forwards
and backwards. What the links of other nodes are does not matter to it, so a
node that has left the list may be freed. The two operations keep it, the list
growing at the end or losing the one node.
-/

namespace DoublyLinked

variable {π : Type*}

/-- Both ends, and the links of every node. -/
structure Links (π : Type*) where
  head : Option π
  tail : Option π
  next : π → Option π
  prev : π → Option π

/-- The links spell out the list in both directions. -/
structure Links.Holds (l : Links π) (ps : List π) : Prop where
  nodup : ps.Nodup
  head_eq : l.head = ps.head?
  tail_eq : l.tail = ps.getLast?
  next_eq : ∀ front p back, ps = front ++ p :: back → l.next p = back.head?
  prev_eq : ∀ front p back, ps = front ++ p :: back → l.prev p = front.getLast?

/-- The list without a node. -/
def Links.empty : Links π := ⟨none, none, fun _ => none, fun _ => none⟩

variable [DecidableEq π]

/-- Put a node behind the last one. -/
def Links.append (l : Links π) (p : π) : Links π where
  head := if l.tail = none then some p else l.head
  tail := some p
  next q := if q = p then none else if l.tail = some q then some p else l.next q
  prev q := if q = p then l.tail else l.prev q

/-- Take a node out: its neighbours, or the ends, are linked past it. -/
def Links.unlink (l : Links π) (p : π) : Links π where
  head := if l.prev p = none then l.next p else l.head
  tail := if l.next p = none then l.prev p else l.tail
  next q := if l.prev p = some q then l.next p else l.next q
  prev q := if l.next p = some q then l.prev p else l.prev q

variable {l l' : Links π} {ps : List π} {p : π}

omit [DecidableEq π] in
theorem Links.Holds.of_eq_nil (hhead : l.head = none) (htail : l.tail = none) : l.Holds [] where
  nodup := List.nodup_nil
  head_eq := hhead
  tail_eq := htail
  next_eq front p back h := by simp at h
  prev_eq front p back h := by simp at h

omit [DecidableEq π] in
/-- Only the links of the nodes in the list count. -/
theorem Links.Holds.congr (h : l.Holds ps) (hhead : l'.head = l.head) (htail : l'.tail = l.tail)
    (hnext : ∀ p ∈ ps, l'.next p = l.next p) (hprev : ∀ p ∈ ps, l'.prev p = l.prev p) :
    l'.Holds ps where
  nodup := h.nodup
  head_eq := hhead.trans h.head_eq
  tail_eq := htail.trans h.tail_eq
  next_eq front p back hps := by
    rw [hnext p (by simp [hps]), h.next_eq front p back hps]
  prev_eq front p back hps := by
    rw [hprev p (by simp [hps]), h.prev_eq front p back hps]

omit [DecidableEq π] in
/-- Following the links from the head visits the nodes in order. -/
theorem Links.Holds.chain (h : l.Holds ps) : LinkedList.Chain l.next l.head ps := by
  have hsuffix : ∀ front back, ps = front ++ back →
      LinkedList.Chain l.next back.head? back := by
    intro front back
    induction back generalizing front with
    | nil => exact fun _ => .nil
    | cons p back ih =>
        intro hps
        have hrest := ih (front ++ [p]) (by simp [hps])
        rw [← h.next_eq front p back hps] at hrest
        exact .cons hrest
  rw [h.head_eq]
  exact hsuffix [] ps rfl

omit [DecidableEq π] in
/-- Following the links back from the tail visits them in the reverse order. -/
theorem Links.Holds.chain_prev (h : l.Holds ps) :
    LinkedList.Chain l.prev l.tail ps.reverse := by
  have hfront : ∀ front back, ps = front.reverse ++ back →
      LinkedList.Chain l.prev front.head? front := by
    intro front
    induction front with
    | nil => exact fun _ _ => .nil
    | cons p front ih =>
        intro back hps
        have hrest := ih (p :: back) (by simp [hps])
        have hlink := h.prev_eq front.reverse p back (by simp [hps])
        rw [List.getLast?_reverse] at hlink
        rw [← hlink] at hrest
        exact .cons hrest
  rw [h.tail_eq, ← List.head?_reverse]
  exact hfront ps.reverse [] (by simp)

/-! ## Where a node stands

In a list of distinct nodes a node is the last one when nothing is behind it,
and a node of a list in two parts is in one of them. -/

omit [DecidableEq π] in
theorem getLast?_eq_iff {front back : List π} {q : π} (h : (front ++ q :: back).Nodup) :
    (front ++ q :: back).getLast? = some q ↔ back = [] := by
  constructor
  · intro hlast
    rcases List.eq_nil_or_concat back with rfl | ⟨mid, r, rfl⟩
    · rfl
    · rw [List.concat_eq_append, ← List.cons_append, ← List.append_assoc,
        List.getLast?_concat, Option.some.injEq] at hlast
      rw [List.nodup_append, List.nodup_cons] at h
      exact absurd (by simp [hlast]) h.2.1.1
  · rintro rfl
    simp

omit [DecidableEq π] in
theorem head?_eq_iff {front back : List π} {q : π} (h : (front ++ q :: back).Nodup) :
    (front ++ q :: back).head? = some q ↔ front = [] := by
  constructor
  · intro hhead
    cases front with
    | nil => rfl
    | cons r front =>
        have hr : r = q := by simpa using hhead
        rw [List.cons_append, List.nodup_cons] at h
        exact absurd (by simp [hr]) h.1
  · rintro rfl
    rfl

omit [DecidableEq π] in
theorem append_eq_append_cons {as bs front back : List π} {q : π}
    (h : as ++ bs = front ++ q :: back) :
    (∃ mid, as = front ++ q :: mid ∧ back = mid ++ bs) ∨
      (∃ mid, bs = mid ++ q :: back ∧ front = as ++ mid) := by
  rcases List.append_eq_append_iff.mp h with ⟨mid, hfront, hbs⟩ | ⟨mid, has, hcons⟩
  · exact Or.inr ⟨mid, hbs, hfront⟩
  · cases mid with
    | nil => exact Or.inr ⟨[], by simpa using hcons.symm, by simpa using has.symm⟩
    | cons r mid =>
        obtain ⟨rfl, hback⟩ := List.cons.inj hcons
        exact Or.inl ⟨mid, has, hback⟩

/-! ## Appending -/

theorem Links.Holds.append (h : l.Holds ps) (hp : p ∉ ps) : (l.append p).Holds (ps ++ [p]) where
  nodup := by
    rw [List.nodup_append]
    refine ⟨h.nodup, List.nodup_singleton p, fun a ha b hb => ?_⟩
    rw [List.mem_singleton] at hb
    exact fun hab => hp (hb ▸ hab ▸ ha)
  head_eq := by
    rw [Links.append, h.tail_eq, h.head_eq]
    cases ps with
    | nil => rfl
    | cons a ps => simp
  tail_eq := by simp [Links.append]
  next_eq front q back hps := by
    rcases append_eq_append_cons hps with ⟨mid, rfl, rfl⟩ | ⟨mid, hnew, rfl⟩
    · have hq : q ≠ p := fun hqp => hp (by simp [hqp])
      have hlast := getLast?_eq_iff h.nodup
      simp only [Links.append, if_neg hq, h.tail_eq, hlast]
      cases mid with
      | nil => simp
      | cons r mid => simpa using h.next_eq front q (r :: mid) rfl
    · cases mid with
      | nil =>
          obtain ⟨rfl, rfl⟩ := List.cons.inj hnew
          simp [Links.append]
      | cons r mid => simp at hnew
  prev_eq front q back hps := by
    rcases append_eq_append_cons hps with ⟨mid, rfl, rfl⟩ | ⟨mid, hnew, rfl⟩
    · have hq : q ≠ p := fun hqp => hp (by simp [hqp])
      simp only [Links.append, if_neg hq]
      exact h.prev_eq front q mid rfl
    · cases mid with
      | nil =>
          obtain ⟨rfl, rfl⟩ := List.cons.inj hnew
          simp [Links.append, h.tail_eq]
      | cons r mid => simp at hnew

/-! ## Unlinking -/

theorem Links.Holds.unlink {front back : List π} (h : l.Holds (front ++ p :: back)) :
    (l.unlink p).Holds (front ++ back) := by
  have hnext := h.next_eq front p back rfl
  have hprev := h.prev_eq front p back rfl
  have hnodup := h.nodup
  rw [List.nodup_append, List.nodup_cons] at hnodup
  obtain ⟨hfront, ⟨hpback, hback⟩, hdisjoint⟩ := hnodup
  refine ⟨?_, ?_, ?_, ?_, ?_⟩
  · rw [List.nodup_append]
    exact ⟨hfront, hback, fun a ha b hb => hdisjoint a ha b (List.mem_cons_of_mem _ hb)⟩
  · simp only [Links.unlink, hnext, hprev, h.head_eq]
    cases front with
    | nil => simp
    | cons a front => simp
  · simp only [Links.unlink, hnext, hprev, h.tail_eq]
    cases back with
    | nil => simp
    | cons a back => simp [List.getLast?_append]
  · intro as q bs hps
    simp only [Links.unlink, hnext, hprev]
    rcases append_eq_append_cons hps with ⟨mid, rfl, rfl⟩ | ⟨mid, rfl, rfl⟩
    · -- in front of `p`, and linked to it when there is nothing between
      simp only [getLast?_eq_iff hfront]
      have hq := h.next_eq as q (mid ++ p :: back) (by simp)
      cases mid with
      | nil => simp
      | cons r mid => simpa using hq
    · have hq := h.next_eq (front ++ p :: mid) q bs (by simp)
      have hne : front.getLast? ≠ some q := fun hlast =>
        hdisjoint q (List.mem_of_getLast? hlast) q (by simp) rfl
      rw [if_neg hne, hq]
  · intro as q bs hps
    simp only [Links.unlink, hnext, hprev]
    rcases append_eq_append_cons hps with ⟨mid, rfl, rfl⟩ | ⟨mid, rfl, rfl⟩
    · have hq := h.prev_eq as q (mid ++ p :: back) (by simp)
      have hne : back.head? ≠ some q := fun hhead =>
        hdisjoint q (by simp) q (List.mem_cons_of_mem _ (List.mem_of_head? hhead)) rfl
      rw [if_neg hne, hq]
    · -- behind `p`
      simp only [head?_eq_iff hback]
      have hq := h.prev_eq (front ++ p :: mid) q bs (by simp)
      cases mid with
      | nil => simp
      | cons r mid => simpa [List.getLast?_append] using hq

end DoublyLinked
