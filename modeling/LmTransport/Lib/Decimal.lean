import Mathlib.Data.Nat.Digits.Defs

/-!
# Numbers as text

The decimal digits of a number, most significant first, as the bytes of a text,
and the number such a text spells out.
-/

namespace Decimal

def isDigit (b : UInt8) : Bool := 48 ≤ b.toNat && b.toNat ≤ 57

/-- The number a text of digits spells out. -/
def value (text : List UInt8) : Nat := text.foldl (fun n b => 10 * n + (b.toNat - 48)) 0

/-- The text of a number. -/
def text (n : Nat) : List UInt8 :=
  if n = 0 then [48] else ((Nat.digits 10 n).map fun d => UInt8.ofNat (48 + d)).reverse

theorem text_ne_nil (n : Nat) : text n ≠ [] := by
  unfold text
  split
  · simp
  · next hn =>
      intro h
      rw [List.reverse_eq_nil_iff, List.map_eq_nil_iff, Nat.digits_eq_nil_iff_eq_zero] at h
      exact hn h

theorem toNat_digit {d : Nat} (hd : d < 10) : (UInt8.ofNat (48 + d)).toNat = 48 + d := by
  rw [UInt8.toNat_ofNat']
  omega

theorem isDigit_of_mem_text {n : Nat} {b : UInt8} (hb : b ∈ text n) : isDigit b = true := by
  unfold text at hb
  split at hb
  · obtain rfl := List.mem_singleton.mp hb
    rfl
  · obtain ⟨d, hd, rfl⟩ := List.mem_map.mp (List.mem_reverse.mp hb)
    have hlt : d < 10 := Nat.digits_lt_base (by omega) hd
    simp only [isDigit, toNat_digit hlt, Bool.and_eq_true, decide_eq_true_eq]
    omega

/-- The digits, read from the most significant one. -/
theorem value_reverse_map {digits : List Nat} (hdigits : ∀ d ∈ digits, d < 10) :
    value (digits.map fun d => UInt8.ofNat (48 + d)).reverse = Nat.ofDigits 10 digits := by
  rw [value, List.foldl_reverse]
  induction digits with
  | nil => rfl
  | cons d ds ih =>
      have hd := toNat_digit (hdigits d List.mem_cons_self)
      have hds := ih fun x hx => hdigits x (List.mem_cons_of_mem _ hx)
      rw [List.map_cons, List.foldr_cons, hds, hd, Nat.ofDigits_cons]
      omega

theorem value_text (n : Nat) : value (text n) = n := by
  unfold text
  split
  · next hn =>
      rw [hn]
      rfl
  · rw [value_reverse_map fun d hd => Nat.digits_lt_base (by omega) hd, Nat.ofDigits_digits]

end Decimal
