import LmTransport.Proofs.AnswerWalk
import LmTransport.Proofs.SrvChoice

/-!
# Which bytes of an answer are read

The parser checks `srv_len` in one place only, which is `dn_expand`. The counts
are read before the first call, and the three fields of a record are read
between two calls, so that an answer can end before any of them does.

For the fields it is enough to look at the last record whose owner's name
decodes. A turn that is followed by another one has moved the cursor to at
least its fifteenth byte behind the owner, and `dn_expand` has found that byte
inside.
-/

namespace LmTransport.Ref

section
variable {dnExpand : DnExpand} {srv : Memory} {eom : Int}

/-- Where a turn is made, the cursor is inside. -/
theorem turns_inside (hdn : ReadsWithin dnExpand) {n : Nat} {l : SrvLocals}
    (h : turns dnExpand srv eom n l ≠ []) : 0 ≤ l.pos ∧ l.pos < eom := by
  cases n with
  | zero => exact absurd rfl h
  | succ n =>
      rw [turns_succ] at h
      split at h
      · next hlen => exact hdn.inside hlen
      · exact absurd rfl h

theorem fields_inBounds {t : Turn} (hstart : 0 ≤ t.ownerEnd) :
    (∀ i ∈ t.fields, 0 ≤ i ∧ i < eom) ↔ t.ownerEnd + 16 ≤ eom := by
  constructor
  · intro h
    have hlast := h (t.ownerEnd + 15) (by simp [Turn.fields])
    omega
  · intro h i hi
    simp only [Turn.fields, List.mem_cons, List.not_mem_nil, or_false] at hi
    omega

/-- All turns stay inside if the last one does. -/
theorem turns_inBounds (hdn : ReadsWithin dnExpand) (n : Nat) (l : SrvLocals) :
    (∀ i ∈ (turns dnExpand srv eom n l).flatMap Turn.fields, 0 ≤ i ∧ i < eom) ↔
      ∀ t, (turns dnExpand srv eom n l).getLast? = some t → t.ownerEnd + 16 ≤ eom := by
  induction n generalizing l with
  | zero => simp [turns]
  | succ n ih =>
      rw [turns_succ]
      split
      · next hlen =>
          generalize hturn : Turn.first dnExpand srv eom l = t at hlen
          have hstart : 0 ≤ t.ownerEnd := by
            subst hturn
            have hpos := (@ReadsWithin.inside _ srv eom hdn _ _ _ hlen).1
            exact Int.add_nonneg hpos hlen
          have hrest := ih (t.after dnExpand srv eom)
          rw [List.flatMap_cons, List.forall_mem_append, fields_inBounds hstart, hrest]
          cases hturns : turns dnExpand srv eom n (t.after dnExpand srv eom) with
          | nil => simp
          | cons u us =>
              have hnext := (turns_inside hdn (by rw [hturns]; simp)).2
              have hback := @FailsWithOne.ge _ srv eom hdn.fails (t.ownerEnd + 16) 255 t.l.name
              rw [t.after_pos] at hnext
              rw [List.getLast?_cons_cons]
              refine ⟨fun h => h.2, fun h => ⟨?_, h⟩⟩
              -- the cursor went back by one byte at most and is inside
              simp only [Turn.target] at hnext
              omega
      · simp

theorem srvLocals_reads (srv : Memory) (srvLen : Int) (name : List UInt8) :
    (srvLocals dnExpand srv srvLen name).reads =
      [4, 5, 6, 7] ++ (answerTurns dnExpand srv srvLen name).flatMap Turn.fields := by
  unfold srvLocals answerTurns answersStart
  rw [parseAnswers_reads, (skipQuestions_frame _ _).2.2.2]
  rfl

/-- Nothing outside the answer is read exactly when the answer has both counts
and the last owner's name that decodes is not cut off from the sixteen bytes
that come before a target. -/
theorem srv_reads_inBounds_iff (hdn : ReadsWithin dnExpand) (srv : Memory) (srvLen : Int)
    (name : List UInt8) :
    (∀ i ∈ (srvLocals dnExpand srv srvLen name).reads, 0 ≤ i ∧ i < srvLen) ↔
      8 ≤ srvLen ∧
        ∀ t, (answerTurns dnExpand srv srvLen name).getLast? = some t →
          t.ownerEnd + 16 ≤ srvLen := by
  have hturns := @turns_inBounds _ srv srvLen hdn (getShort srv 6)
    (answersStart dnExpand srv srvLen name)
  rw [srvLocals_reads, List.forall_mem_append]
  refine and_congr ⟨fun h => ?_, fun h i hi => ?_⟩ hturns
  · have hlast := h 7 (by simp)
    omega
  · simp only [List.mem_cons, List.not_mem_nil, or_false] at hi
    omega

end

/-! ## Answers that are cut off -/

theorem dnExpandOf_readsWithin : ReadsWithin dnExpandOf where
  outside := by
    intro srv eom pos n old hout
    unfold dnExpandOf
    split
    · rfl
    · next hpos =>
        have hlen : (contents srv eom).length ≤ pos.toNat := by
          rw [contents, List.length_map, List.length_range]
          omega
        rw [Dns.decode_outside hlen]
  fails := by
    intro srv eom pos n old hfail
    unfold dnExpandOf at hfail ⊢
    split
    · rfl
    · next hpos =>
        rw [if_neg hpos] at hfail
        split
        · rfl
        · next labels m hdec =>
            simp only [hdec] at hfail
            split
            · next hroom =>
                rw [if_pos hroom] at hfail
                exact absurd hfail (by simp)
            · rfl

/-- A header that promises one answer, and the root as its owner. -/
def cutOffAnswer : List UInt8 := [0, 1, 0x81, 0x80, 0, 0, 0, 1, 0, 0, 0, 0, 0]

/-- Of the record nothing is there but the owner, and with a length of 4 not
even the counts are: both times the parser reads behind the end. -/
theorem srv_reads_outside :
    ReadsWithin dnExpandOf ∧
      (∃ i ∈ (srvLocals dnExpandOf (memoryOf cutOffAnswer) 13 []).reads, 13 ≤ i) ∧
      ∃ i ∈ (srvLocals dnExpandOf (memoryOf cutOffAnswer) 4 []).reads, 4 ≤ i := by
  refine ⟨dnExpandOf_readsWithin, ⟨23, ?_, by decide⟩, 4, ?_, by decide⟩
  · decide +kernel
  · decide +kernel

/-- On the answer with two records the parser stays inside. -/
theorem srv_reads_inBounds_sample :
    sampleResponse.length = 66 ∧
      ∀ i ∈ (srvLocals dnExpandOf (memoryOf sampleResponse) 66 []).reads, 0 ≤ i ∧ i < 66 := by
  refine ⟨by decide, (srv_reads_inBounds_iff dnExpandOf_readsWithin _ _ _).mpr
    ⟨by decide, fun t ht => ?_⟩⟩
  have hend : (answerTurns dnExpandOf (memoryOf sampleResponse) 66 []).getLast?.map Turn.ownerEnd =
      some 45 := by decide +kernel
  rw [ht] at hend
  have ht45 := Option.some.inj hend
  omega

end LmTransport.Ref
