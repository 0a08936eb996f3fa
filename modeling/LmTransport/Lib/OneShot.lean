import LmTransport.Lib.Run

/-!
# An activity that may run once

Some activity of a machine begins, is under way for a while, and ends. While it
is under way the machine goes on, and may even begin the activity again inside
itself. `Tally` counts the beginnings, the endings and what is under way, and
`Tally.Once` is what a one-shot activity owes: it has begun at most once, and
has ended just when it has begun and is not under way any more.

`along_once_iff` reduces this to the steps that begin: if they are balanced by
endings, the machine is one-shot along a run just when every step of the run
meets a condition that tells whether a beginning is the first.
-/

namespace OneShot

structure Tally where
  begun : Nat
  ended : Nat
  underWay : Nat

/-- Every beginning has ended or is under way. -/
def Tally.Balanced (c : Tally) : Prop := c.ended + c.underWay = c.begun

def Tally.Once (c : Tally) : Prop :=
  c.begun ≤ 1 ∧ c.ended = if c.underWay = 0 then c.begun else 0

instance (c : Tally) : Decidable c.Once := inferInstanceAs (Decidable (_ ∧ _))

theorem Tally.once_iff {c : Tally} (h : c.Balanced) : c.Once ↔ c.begun ≤ 1 := by
  constructor
  · exact fun hc => hc.1
  · intro hle
    refine ⟨hle, ?_⟩
    have hsum : c.ended + c.underWay = c.begun := h
    split
    · omega
    · omega

/-- What one step does to the tally. The condition of the step tells whether a
beginning is the first; a step that does not begin meets it anyway. -/
inductive Tally.Moves (cond : Prop) (c : Tally) : Tally → Prop
  | stays (h : cond) : Moves cond c c
  | begins (h : cond ↔ c.begun = 0) :
      Moves cond c ⟨c.begun + 1, c.ended, c.underWay + 1⟩
  | ends (h : cond) {underWay : Nat} (hu : c.underWay = underWay + 1) :
      Moves cond c ⟨c.begun, c.ended + 1, underWay⟩

theorem Tally.Moves.balanced {cond : Prop} {c d : Tally} (h : Moves cond c d)
    (hc : c.Balanced) : d.Balanced := by
  have hsum : c.ended + c.underWay = c.begun := hc
  cases h with
  | stays _ => exact hc
  | begins _ =>
      show c.ended + (c.underWay + 1) = c.begun + 1
      omega
  | @ends hcond underWay hu =>
      show c.ended + 1 + underWay = c.begun
      omega

theorem Tally.Moves.begun_le_iff {cond : Prop} {c d : Tally} (h : Moves cond c d)
    (hc : c.begun ≤ 1) : d.begun ≤ 1 ↔ cond := by
  cases h with
  | stays hcond => exact ⟨fun _ => hcond, fun _ => hc⟩
  | begins hcond =>
      show c.begun + 1 ≤ 1 ↔ cond
      rw [hcond]
      omega
  | ends hcond _ => exact ⟨fun _ => hcond, fun _ => hc⟩

section
variable {σ α : Type*} {step : σ → α → Option σ} {view : σ → Tally} {cond : σ → α → Prop}
  {I J : σ → Prop}

/-- `I` is what the machine maintains by itself, whatever the environment does,
and `J` what it promises beside being one-shot. -/
theorem along_once_iff (hIJ : ∀ s, I s → J s)
    (hstep : ∀ s a t, I s → step s a = some t →
      I t ∧ Tally.Moves (cond s a) (view s) (view t))
    {s : σ} {as : List α} (hI : I s) (hb : (view s).Balanced) (hs : (view s).begun ≤ 1) :
    Lts.Along step (fun _ _ t => J t ∧ (view t).Once) s as ↔ Lts.Meets step cond s as := by
  refine Lts.along_iff_meets (I := fun s => I s ∧ (view s).Balanced ∧ (view s).begun ≤ 1)
    (fun s a t ⟨hI, hb, hle⟩ ht => ?_) ⟨hI, hb, hs⟩
  obtain ⟨hIt, hmove⟩ := hstep s a t hI ht
  have hbt := hmove.balanced hb
  have hiff := hmove.begun_le_iff hle
  rw [Tally.once_iff hbt]
  constructor
  · rw [hiff]
    exact ⟨fun h => h.2, fun h => ⟨hIJ t hIt, h⟩⟩
  · exact fun hcond => ⟨hIt, hbt, hiff.mpr hcond⟩

end

end OneShot
