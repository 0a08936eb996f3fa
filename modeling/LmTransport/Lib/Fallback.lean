import Mathlib.Data.List.Basic

/-!
# Trying a list of targets one after the other

What it means to work through a list in order, moving on only after a failure
and giving up only at the end of the list. The tries are of any type, as long
as one can see the target of each and whether it has failed; what is done with
a try, and when its failure becomes known, is up to the program. The three
rules are the three things that can happen: another try, a report that all of
them failed, and a change to a try already made.
-/

namespace Fallback

variable {α β : Type*}

/-- The tries made so far are for the first targets of `xs`, all but the
latest have failed, and the failure of all is reported once, at the end. -/
structure Sequential (target : β → α) (Failed : β → Prop) (xs : List α) (tries : List β)
    (reports : Nat) : Prop where
  order : tries.map target <+: xs
  oneAtATime : ∀ i b, tries[i]? = some b → i + 1 < tries.length → Failed b
  once : reports ≤ 1
  complete : reports ≠ 0 → tries.map target = xs ∧ ∀ b ∈ tries, Failed b

variable {target : β → α} {Failed Failed' : β → Prop} {xs : List α} {tries : List β}
  {reports : Nat}

theorem Sequential.nil (xs : List α) : Sequential target Failed xs [] 0 where
  order := List.nil_prefix
  oneAtATime := fun i b hb => by simp at hb
  once := Nat.zero_le 1
  complete := fun h => absurd rfl h

theorem Sequential.mono (h : Sequential target Failed xs tries reports)
    (hmono : ∀ b, Failed b → Failed' b) : Sequential target Failed' xs tries reports where
  order := h.order
  oneAtATime := fun i b hb hi => hmono b (h.oneAtATime i b hb hi)
  once := h.once
  complete := fun hr => ⟨(h.complete hr).1, fun b hb => hmono b ((h.complete hr).2 b hb)⟩

/-- A try that has not failed is the latest, and nothing has been reported. -/
theorem Sequential.latest {i : Nat} {b : β} (h : Sequential target Failed xs tries reports)
    (hb : tries[i]? = some b) (hup : ¬ Failed b) : i + 1 = tries.length ∧ reports = 0 := by
  have hi : i < tries.length := (List.getElem?_eq_some_iff.mp hb).1
  constructor
  · by_contra hne
    exact hup (h.oneAtATime i b hb (by omega))
  · by_contra hr
    exact hup ((h.complete hr).2 b (List.mem_of_getElem? hb))

/-- Once the latest has failed, all have. -/
theorem Sequential.all_failed {i : Nat} {b : β}
    (h : Sequential target Failed xs tries reports) (hb : tries[i]? = some b)
    (hlast : i + 1 = tries.length) (hfailed : Failed b) : ∀ b ∈ tries, Failed b := by
  intro b' hb'
  obtain ⟨j, hj⟩ := List.mem_iff_getElem?.mp hb'
  have hjlt : j < tries.length := (List.getElem?_eq_some_iff.mp hj).1
  by_cases hji : j = i
  · rw [hji, hb, Option.some.injEq] at hj
    exact hj ▸ hfailed
  · exact h.oneAtATime j b' hj (by omega)

/-- Moving on to the next target, when every try has failed. -/
theorem Sequential.attempt {b : β} {rest : List α} (hfailed : ∀ b ∈ tries, Failed b)
    (hnext : tries.map target ++ target b :: rest = xs) :
    Sequential target Failed xs (tries ++ [b]) 0 where
  order := by
    rw [List.map_append, List.map_singleton]
    exact ⟨rest, by rw [List.append_assoc]; exact hnext⟩
  oneAtATime := by
    intro i b' hb' hi
    rw [List.length_append, List.length_singleton] at hi
    rw [List.getElem?_append_left (by omega)] at hb'
    exact hfailed b' (List.mem_of_getElem? hb')
  once := Nat.zero_le 1
  complete := fun h => absurd rfl h

/-- Giving up, when there is no next target. -/
theorem Sequential.report (hfailed : ∀ b ∈ tries, Failed b) (hall : tries.map target = xs) :
    Sequential target Failed xs tries 1 where
  order := hall ▸ List.prefix_refl _
  oneAtATime := fun _ b hb _ => hfailed b (List.mem_of_getElem? hb)
  once := Nat.le_refl 1
  complete := fun _ => ⟨hall, hfailed⟩

/-! ## Changing a try -/

theorem map_modify_of_eq {i : Nat} {f : β → β} (htarget : ∀ b, target (f b) = target b) :
    (tries.modify i f).map target = tries.map target := by
  refine List.ext_getElem? fun j => ?_
  rw [List.getElem?_map, List.getElem?_map, List.getElem?_modify]
  by_cases hij : i = j
  · cases tries[j]? <;> simp [hij, htarget]
  · simp [hij]

/-- An element of the changed list is an old one or the changed one. -/
theorem getElem?_modify_some {i j : Nat} {f : β → β} {b : β}
    (h : (tries.modify i f)[j]? = some b) :
    tries[j]? = some b ∨ (i = j ∧ ∃ b', tries[j]? = some b' ∧ b = f b') := by
  rw [List.getElem?_modify] at h
  by_cases hij : i = j
  · obtain ⟨b', hb', hfb⟩ := Option.map_eq_some_iff.mp h
    rw [if_pos hij] at hfb
    exact Or.inr ⟨hij, b', hb', hfb.symm⟩
  · exact Or.inl (by simpa [hij] using h)

theorem failed_modify {i j : Nat} {f : β → β} {b : β}
    (hf : ∀ b, tries[i]? = some b → Failed b → Failed (f b))
    (hfailed : ∀ b, tries[j]? = some b → Failed b) (hb : (tries.modify i f)[j]? = some b) :
    Failed b := by
  rcases getElem?_modify_some hb with hold | ⟨rfl, b', hb', rfl⟩
  · exact hfailed b hold
  · exact hf b' hb' (hfailed b' hb')

/-- A try changes, in a way that undoes no failure. -/
theorem Sequential.modify {i : Nat} {f : β → β} (h : Sequential target Failed xs tries reports)
    (htarget : ∀ b, target (f b) = target b)
    (hf : ∀ b, tries[i]? = some b → Failed b → Failed (f b)) :
    Sequential target Failed xs (tries.modify i f) reports where
  order := by
    rw [map_modify_of_eq htarget]
    exact h.order
  oneAtATime := by
    intro j b hb hj
    rw [List.length_modify] at hj
    exact failed_modify hf (fun b' hb' => h.oneAtATime j b' hb' hj) hb
  once := h.once
  complete := by
    intro hr
    obtain ⟨hall, hfailed⟩ := h.complete hr
    rw [map_modify_of_eq htarget]
    refine ⟨hall, fun b hb => ?_⟩
    obtain ⟨j, hj⟩ := List.mem_iff_getElem?.mp hb
    exact failed_modify hf (fun b' hb' => hfailed b' (List.mem_of_getElem? hb')) hj

end Fallback
