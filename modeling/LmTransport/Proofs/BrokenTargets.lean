import LmTransport.Proofs.AnswerBounds

/-!
# Records with a target that does not decode

Whether the target was decoded is not asked. A record with a broken target is
compared like any other, the text it leaves behind when it wins is whatever the
buffer held, and the cursor goes back by one, to the low byte of the port.

That is harmless as long as it does not win and nothing comes after it. It
cannot win when an earlier record, broken or not, was at least as good, or when
it does not get below the 9999 the loop starts with. And what comes after it is
found in the right place only if the record happens to have five bytes of data.
-/

namespace LmTransport.Ref

/-- What the loop has chosen so far. -/
def SrvLocals.choice (l : SrvLocals) : List UInt8 × Nat × Nat :=
  (l.prefName, l.prefPort, l.prefPrio)

section
variable (dnExpand : DnExpand) (srv : Memory) (eom : Int)

/-- No record with a broken target has a priority below 9999 and below those of
all records before it, and none is followed by another turn unless it has five
bytes of data. -/
def BrokenHarmless (ts : List Turn) : Prop :=
  ∀ (seen rest : List Turn) (t : Turn), ts = seen ++ t :: rest → t.Broken dnExpand srv eom →
    (9999 ≤ t.pref srv ∨ ∃ u ∈ seen, u.pref srv ≤ t.pref srv) ∧
      (rest = [] ∨ t.rdlength srv = 5)

end

section
variable {dnExpand : DnExpand} {srv : Memory} {eom : Int} {n : Nat} {l : SrvLocals}
  {t u : Turn} {seen rest : List Turn}

/-! ## Along the turns -/

/-- A turn leaves the choice alone exactly if its priority is no lower. -/
theorem Turn.after_choice_eq_iff (t : Turn) :
    (t.after dnExpand srv eom).choice = t.l.choice ↔ t.l.prefPrio ≤ t.pref srv := by
  rw [t.after_eq]
  unfold SrvLocals.choice
  constructor
  · intro h
    simp only [Prod.mk.injEq] at h
    have hprio := h.2.2
    split at hprio
    · omega
    · omega
  · intro h
    have hnot : ¬ t.pref srv < t.l.prefPrio := by omega
    simp only [if_neg hnot]

/-- The priority a turn is compared with is the lowest before it. -/
theorem prefPrio_le_iff (h : turns dnExpand srv eom n l = seen ++ t :: rest) (p : Nat) :
    t.l.prefPrio ≤ p ↔ l.prefPrio ≤ p ∨ ∃ u ∈ seen, u.pref srv ≤ p := by
  induction n generalizing l seen with
  | zero => exact absurd h (by simp [turns])
  | succ n ih =>
      rw [turns_succ] at h
      split at h
      · cases seen with
        | nil =>
            obtain ⟨rfl, -⟩ := List.cons.inj h
            simp only [List.not_mem_nil, false_and, exists_false, or_false]
            rfl
        | cons u seen =>
            obtain ⟨rfl, hrest⟩ := List.cons.inj h
            have hfirst : (Turn.first dnExpand srv eom l).l.prefPrio = l.prefPrio := rfl
            rw [ih hrest, Turn.after_prefPrio, hfirst]
            simp only [List.mem_cons, or_and_right, exists_or, exists_eq_left]
            rw [← or_assoc]
            refine or_congr_left ?_
            split <;> omega
      · exact absurd h (by simp)

theorem answersStart_choice (dnExpand : DnExpand) (srv : Memory) (eom : Int)
    (name : List UInt8) : (answersStart dnExpand srv eom name).choice = ([], 0, 9999) := by
  obtain ⟨hname, hport, hprio, -⟩ :=
    @skipQuestions_frame dnExpand srv eom (getShort srv 4) (.start name)
  simp only [SrvLocals.choice, answersStart, hname, hport, hprio]
  rfl

/-! ## The answer as a whole -/

/-- A turn of the whole answer is compared with 9999 and with all turns before
it. -/
theorem answerTurns_prio_le_iff {srvLen : Int} {name : List UInt8}
    (h : answerTurns dnExpand srv srvLen name = seen ++ t :: rest) :
    t.l.prefPrio ≤ t.pref srv ↔ 9999 ≤ t.pref srv ∨ ∃ u ∈ seen, u.pref srv ≤ t.pref srv := by
  have hstart : (answersStart dnExpand srv srvLen name).prefPrio = 9999 :=
    congrArg (fun c => c.2.2) (answersStart_choice dnExpand srv srvLen name)
  rw [prefPrio_le_iff h, hstart]

theorem BrokenHarmless.choice {srvLen : Int} {name : List UInt8}
    (h : BrokenHarmless dnExpand srv srvLen (answerTurns dnExpand srv srvLen name)) :
    ∀ t ∈ answerTurns dnExpand srv srvLen name, t.Broken dnExpand srv srvLen →
      (t.after dnExpand srv srvLen).choice = t.l.choice := by
  intro t ht hbad
  obtain ⟨seen, rest, hts⟩ := List.append_of_mem ht
  exact t.after_choice_eq_iff.mpr ((answerTurns_prio_le_iff hts).mpr (h seen rest t hts hbad).1)

end

/-! ## An answer that ends before its target -/

/-- Two records of `a`: one with the target `b`, and a worse one that has none. -/
def harmlessAnswer : List UInt8 :=
  [0, 1, 0x81, 0x80, 0, 0, 0, 2, 0, 0, 0, 0] ++
  [1, 0x61, 0, 0, 33, 0, 1, 0, 0, 0, 60, 0, 9, 0, 10, 0, 5, 0x14, 0x67, 1, 0x62, 0] ++
  [1, 0x61, 0, 0, 33, 0, 1, 0, 0, 0, 60, 0, 6, 0, 20, 0, 5, 0x14, 0x66]

theorem harmlessAnswer_harmless :
    BrokenHarmless dnExpandOf (memoryOf harmlessAnswer) 53
      (answerTurns dnExpandOf (memoryOf harmlessAnswer) 53 []) := by
  intro seen rest t hts hbad
  have hturns : (answerTurns dnExpandOf (memoryOf harmlessAnswer) 53 []).map (fun t =>
      (t.pref (memoryOf harmlessAnswer),
        decide (t.Broken dnExpandOf (memoryOf harmlessAnswer) 53))) =
      [(10, false), (20, true)] := by decide +kernel
  rw [hts, List.map_append, List.map_cons, decide_eq_true hbad] at hturns
  match seen with
  | [] => simp at hturns
  | [u] =>
      simp only [List.map_cons, List.map_nil, List.cons_append, List.nil_append,
        List.cons.injEq, Prod.mk.injEq, List.map_eq_nil_iff] at hturns
      obtain ⟨⟨hfirst, -⟩, ⟨hsecond, -⟩, hlast⟩ := hturns
      refine ⟨Or.inr ⟨u, List.mem_cons_self, ?_⟩, Or.inl hlast⟩
      omega
  | u :: v :: seen => simp at hturns

end LmTransport.Ref
