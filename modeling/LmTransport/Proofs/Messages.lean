import LmTransport.Proofs.SrvChoice

/-!
# Answer sections with records of several types

A message whose answers need not all be SRV records, and how it is written
without compression. Of a record of another type nothing is known but that its
data have the length it says.

A section of SRV records alone is the one of `AnswersAt`, and so is the first
part of a section as far as it has only those.
-/

namespace LmTransport.Ref

open Dns

/-- A record that is not SRV. -/
structure OtherRecord where
  owner : Name
  rtype : UInt16
  rclass : UInt16
  ttl : UInt32
  rdata : List UInt8
  foreign : rtype.toNat ≠ tSrv
  short : rdata.length < 65536

/-- What comes behind the owner. -/
def OtherRecord.body (r : OtherRecord) : List UInt8 :=
  (be16 r.rtype.toNat ++ be16 r.rclass.toNat ++ be32 r.ttl.toNat ++ be16 r.rdata.length) ++
    r.rdata

inductive ResourceRecord
  | srv (r : SrvRecord)
  | other (r : OtherRecord)

def ResourceRecord.owner : ResourceRecord → Name
  | .srv r => r.owner
  | .other r => r.owner

/-- The records are encoded from `pos` to `last`. -/
inductive RecordsAt (msg : List UInt8) : Nat → List ResourceRecord → Nat → Prop
  | nil {pos : Nat} : RecordsAt msg pos [] pos
  | srv {pos n m last : Nat} {r : SrvRecord} {rs : List ResourceRecord}
      (howner : Encoded msg pos r.owner n)
      (hfixed : BytesAt msg (pos + n) (r.fixed m))
      (htarget : Encoded msg (pos + n + 16) r.target m)
      (hrest : RecordsAt msg (pos + n + 16 + m) rs last) :
      RecordsAt msg pos (.srv r :: rs) last
  | other {pos n last : Nat} {r : OtherRecord} {rs : List ResourceRecord}
      (howner : Encoded msg pos r.owner n)
      (hbody : BytesAt msg (pos + n) r.body)
      (hrest : RecordsAt msg (pos + n + r.body.length) rs last) :
      RecordsAt msg pos (.other r :: rs) last

/-- A message with these questions and these answers. -/
structure Message (msg : List UInt8) (qs : List Question) (rs : List ResourceRecord) : Prop where
  qdcount : qs.length < 65536
  ancount : rs.length < 65536
  counts : BytesAt msg 4 (be16 qs.length ++ be16 rs.length)
  sections : ∃ mid last, QuestionsAt msg 12 qs mid ∧ RecordsAt msg mid rs last

section
variable {msg : List UInt8} {pos last : Nat}

theorem RecordsAt.owner {r : ResourceRecord} {rs : List ResourceRecord}
    (h : RecordsAt msg pos (r :: rs) last) : ∃ n, Encoded msg pos r.owner n := by
  cases h with
  | srv howner hfixed htarget hrest => exact ⟨_, howner⟩
  | other howner hbody hrest => exact ⟨_, howner⟩

/-- The SRV records that a section begins with, and the rest. -/
theorem recordsAt_append {pre : List SrvRecord} {rest : List ResourceRecord}
    (h : RecordsAt msg pos (pre.map .srv ++ rest) last) :
    ∃ mid, AnswersAt msg pos pre mid ∧ RecordsAt msg mid rest last := by
  induction pre generalizing pos with
  | nil => exact ⟨pos, .nil, h⟩
  | cons r pre ih =>
      cases h with
      | srv howner hfixed htarget hrest =>
          obtain ⟨mid, hpre, hmore⟩ := ih hrest
          exact ⟨mid, .cons howner hfixed htarget hpre, hmore⟩

theorem recordsAt_answersAt {rs : List SrvRecord} (h : AnswersAt msg pos rs last) :
    RecordsAt msg pos (rs.map .srv) last := by
  induction h with
  | nil => exact .nil
  | cons howner hfixed htarget _ ih => exact .srv howner hfixed htarget ih

/-- With SRV records alone it is a response as before. -/
theorem message_srv_iff {qs : List Question} {rs : List SrvRecord} :
    Message msg qs (rs.map .srv) ↔ Response msg qs rs := by
  constructor
  · intro h
    have hcount := h.ancount
    have hcounts := h.counts
    obtain ⟨mid, last, hqs, hrs⟩ := h.sections
    rw [List.length_map] at hcount hcounts
    rw [← List.append_nil (rs.map ResourceRecord.srv)] at hrs
    obtain ⟨mid', hanswers, -⟩ := recordsAt_append hrs
    exact ⟨h.qdcount, hcount, hcounts, mid, mid', hqs, hanswers⟩
  · intro h
    obtain ⟨mid, last, hqs, hrs⟩ := h.sections
    refine ⟨h.qdcount, ?_, ?_, mid, last, hqs, recordsAt_answersAt hrs⟩
    · rw [List.length_map]
      exact h.ancount
    · rw [List.length_map]
      exact h.counts

end

/-! ## Writing a message -/

def Question.encode (q : Question) : List UInt8 :=
  wire q.qname.labels ++ (be16 q.qtype.toNat ++ be16 q.qclass.toNat)

def ResourceRecord.encode : ResourceRecord → List UInt8
  | .srv r =>
      wire r.owner.labels ++ (r.fixed (wire r.target.labels).length ++ wire r.target.labels)
  | .other r => wire r.owner.labels ++ r.body

/-- A message without compression, with an empty identifier, no flags and
nothing after the answers. -/
def encodeMessage (qs : List Question) (rs : List ResourceRecord) : List UInt8 :=
  [0, 0, 0, 0] ++ ((be16 qs.length ++ be16 rs.length) ++ ([0, 0, 0, 0] ++
    (qs.flatMap Question.encode ++ rs.flatMap ResourceRecord.encode)))

section
variable {msg : List UInt8} {pos : Nat}

theorem QuestionsAt.of_encode {qs : List Question}
    (h : BytesAt msg pos (qs.flatMap Question.encode)) :
    QuestionsAt msg pos qs (pos + (qs.flatMap Question.encode).length) := by
  induction qs generalizing pos with
  | nil => exact .nil
  | cons q qs ih =>
      rw [List.flatMap_cons] at h ⊢
      have hlen : q.encode.length = (wire q.qname.labels).length + 4 := by
        rw [Question.encode, List.length_append]
        rfl
      have hrest := ih h.right
      rw [hlen, ← Nat.add_assoc] at hrest
      rw [List.length_append, hlen, ← Nat.add_assoc, ← Nat.add_assoc]
      exact .cons (NameAt.of_wire h.left.left) h.left.right hrest

theorem RecordsAt.of_encode {rs : List ResourceRecord}
    (h : BytesAt msg pos (rs.flatMap ResourceRecord.encode)) :
    RecordsAt msg pos rs (pos + (rs.flatMap ResourceRecord.encode).length) := by
  induction rs generalizing pos with
  | nil => exact .nil
  | cons r rs ih =>
      rw [List.flatMap_cons] at h ⊢
      have hrest := ih h.right
      rw [List.length_append, ← Nat.add_assoc]
      cases r with
      | srv r =>
          have hlen : (ResourceRecord.srv r).encode.length =
              (wire r.owner.labels).length + 16 + (wire r.target.labels).length := by
            rw [ResourceRecord.encode, List.length_append, List.length_append, ← Nat.add_assoc]
            rfl
          rw [hlen, ← Nat.add_assoc, ← Nat.add_assoc] at hrest ⊢
          exact .srv (NameAt.of_wire h.left.left) h.left.right.left
            (NameAt.of_wire h.left.right.right) hrest
      | other r =>
          have hlen : (ResourceRecord.other r).encode.length =
              (wire r.owner.labels).length + r.body.length := by
            rw [ResourceRecord.encode, List.length_append]
          rw [hlen, ← Nat.add_assoc] at hrest ⊢
          exact .other (NameAt.of_wire h.left.left) h.left.right hrest

/-- Whatever fits into the counts can be written. -/
theorem encodeMessage_message {qs : List Question} {rs : List ResourceRecord}
    (hqs : qs.length < 65536) (hrs : rs.length < 65536) :
    Message (encodeMessage qs rs) qs rs := by
  have hall : BytesAt (encodeMessage qs rs) 0 (encodeMessage qs rs) := List.prefix_refl _
  have hcounts := hall.right
  have hsections := hcounts.right.right
  exact ⟨hqs, hrs, hcounts.left, _, _, QuestionsAt.of_encode hsections.left,
    RecordsAt.of_encode hsections.right⟩

end

end LmTransport.Ref
