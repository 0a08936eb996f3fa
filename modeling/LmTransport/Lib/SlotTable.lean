import Mathlib.Data.Finset.Card
import Mathlib.Data.Finset.Range
import Mathlib.Logic.Function.Basic

/-!
# Tables of slots and a cursor that goes round

A table of `m` slots, each empty or not. An allocator looks for an empty slot
from where it stopped the last time and begins again at the front when it gets
to the end. It counts its entries, and looks only when the count says that there is room: the
search ends because the count is right (`card_occupied_lt_iff`), and within one
round (`exists_scan`).

Every step of the cursor also advances an identifier. The identifier is a machine
integer and wraps around too, but when `m` divides its range it still tells the
slot (`add_mod_of_dvd`), so no table from identifiers to slots is needed.
-/

namespace SlotTable

variable {α : Type*}

/-- The slots that are not empty. -/
def occupied (slots : Nat → Option α) (m : Nat) : Finset Nat :=
  (Finset.range m).filter fun i => (slots i).isSome

/-- How many slots the cursor passes before it stands at an empty one. -/
def scan (slots : Nat → Option α) (m : Nat) : Nat → Nat → Option Nat
  | 0, _ => none
  | fuel + 1, i =>
      if (slots i).isSome then (scan slots m fuel ((i + 1) % m)).map (· + 1) else some 0

variable {slots : Nat → Option α} {m i : Nat}

theorem mem_occupied : i ∈ occupied slots m ↔ i < m ∧ (slots i).isSome := by
  rw [occupied, Finset.mem_filter, Finset.mem_range]

theorem notMem_occupied (hnone : slots i = none) : i ∉ occupied slots m := by
  rw [mem_occupied, hnone]
  simp

/-- The count says whether there is an empty slot. -/
theorem card_occupied_lt_iff : (occupied slots m).card < m ↔ ∃ i < m, slots i = none := by
  constructor
  · intro hlt
    by_contra hfull
    have heq : occupied slots m = Finset.range m := by
      ext i
      rw [mem_occupied, Finset.mem_range]
      refine ⟨fun h => h.1, fun hi => ⟨hi, ?_⟩⟩
      rw [Option.isSome_iff_ne_none]
      exact fun hnone => hfull ⟨i, hi, hnone⟩
    rw [heq, Finset.card_range] at hlt
    exact Nat.lt_irrefl m hlt
  · rintro ⟨i, hi, hnone⟩
    have hssub : occupied slots m ⊂ Finset.range m := by
      refine (Finset.ssubset_iff_of_subset (Finset.filter_subset _ _)).mpr ?_
      exact ⟨i, Finset.mem_range.mpr hi, notMem_occupied hnone⟩
    have h := Finset.card_lt_card hssub
    rwa [Finset.card_range] at h

/-- Filling an empty slot. -/
theorem card_occupied_fill (hi : i < m) (hnone : slots i = none) (a : α) :
    (occupied (Function.update slots i (some a)) m).card = (occupied slots m).card + 1 := by
  have heq : occupied (Function.update slots i (some a)) m = insert i (occupied slots m) := by
    ext j
    rw [Finset.mem_insert, mem_occupied, mem_occupied, Function.update_apply]
    by_cases hj : j = i
    · simp [hj, hi]
    · simp [hj]
  rw [heq, Finset.card_insert_of_notMem (notMem_occupied hnone)]

/-- Emptying one that was not. -/
theorem card_occupied_clear (hi : i < m) (hsome : (slots i).isSome) :
    (occupied (Function.update slots i none) m).card + 1 = (occupied slots m).card := by
  have hold : i ∈ occupied slots m := mem_occupied.mpr ⟨hi, hsome⟩
  have heq : occupied (Function.update slots i none) m = (occupied slots m).erase i := by
    ext j
    rw [Finset.mem_erase, mem_occupied, mem_occupied, Function.update_apply]
    by_cases hj : j = i
    · simp [hj]
    · simp [hj]
  rw [heq, Finset.card_erase_add_one hold]

/-! ## The search -/

theorem scan_eq_some {fuel k : Nat} (him : i < m) (h : scan slots m fuel i = some k) :
    slots ((i + k) % m) = none ∧ ∀ j < k, (slots ((i + j) % m)).isSome := by
  induction fuel generalizing i k with
  | zero => cases h
  | succ fuel ih =>
      rw [scan] at h
      split at h
      · next hsome =>
          obtain ⟨l, hl, rfl⟩ := Option.map_eq_some_iff.mp h
          obtain ⟨hfree, hpassed⟩ := ih (Nat.mod_lt _ (by omega)) hl
          have hindex : ∀ j, ((i + 1) % m + j) % m = (i + (j + 1)) % m := fun j => by
            rw [Nat.mod_add_mod, Nat.add_assoc, Nat.add_comm 1 j]
          refine ⟨hindex l ▸ hfree, fun j hj => ?_⟩
          cases j with
          | zero => rwa [Nat.add_zero, Nat.mod_eq_of_lt him]
          | succ j => exact hindex j ▸ hpassed j (by omega)
      · next hnone =>
          rw [Option.some.injEq] at h
          subst h
          rw [Nat.add_zero, Nat.mod_eq_of_lt him]
          exact ⟨by simpa using hnone, fun j hj => absurd hj (Nat.not_lt_zero j)⟩

/-- The search ends at an empty slot at most that many steps away. -/
theorem scan_isSome {fuel k : Nat} (him : i < m) (hk : k < fuel)
    (hfree : slots ((i + k) % m) = none) : ∃ l, scan slots m fuel i = some l := by
  induction fuel generalizing i k with
  | zero => omega
  | succ fuel ih =>
      rw [scan]
      split
      · next hsome =>
          cases k with
          | zero =>
              rw [Nat.add_zero, Nat.mod_eq_of_lt him] at hfree
              simp [hfree] at hsome
          | succ k =>
              obtain ⟨l, hl⟩ := ih (i := (i + 1) % m) (k := k) (Nat.mod_lt _ (by omega))
                (by omega) (by
                  rw [Nat.mod_add_mod, Nat.add_assoc, Nat.add_comm 1 k]
                  exact hfree)
              exact ⟨l + 1, by rw [hl, Option.map_some]⟩
      · exact ⟨0, rfl⟩

/-- With an empty slot somewhere in the table, one round finds one. -/
theorem exists_scan (him : i < m) (h : ∃ j < m, slots j = none) :
    ∃ k, scan slots m m i = some k := by
  obtain ⟨j, hj, hnone⟩ := h
  by_cases hij : i ≤ j
  · refine scan_isSome him (k := j - i) (by omega) ?_
    rw [Nat.add_sub_cancel' hij, Nat.mod_eq_of_lt hj, hnone]
  · refine scan_isSome him (k := m - i + j) (by omega) ?_
    rw [show i + (m - i + j) = m + j by omega, Nat.add_mod_left, Nat.mod_eq_of_lt hj, hnone]

/-! ## Identifiers -/

/-- An identifier modulo `n` and a cursor modulo `m` stay in step when `m`
divides `n`. -/
theorem add_mod_of_dvd {n id k : Nat} (hdvd : m ∣ n) (hid : id % m = i) :
    (id + k) % n % m = (i + k) % m := by
  rw [Nat.mod_mod_of_dvd _ hdvd, Nat.add_mod, hid, ← Nat.add_mod_mod, ← hid]
  simp [Nat.add_mod]

end SlotTable
