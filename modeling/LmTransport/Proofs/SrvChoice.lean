import LmTransport.Lib.Dns
import LmTransport.Ref.Resolver
import Mathlib.Data.List.MinMax

/-!
# The SRV record that is chosen

What a well-formed answer is, and what the parser takes from it. A message is
described by what stands where in it and not by a function that writes it, so
every way of compressing the names is covered, and so is anything that comes
after the answer section.

The two loops are followed over the message by the position alone: `dn_expand`
returns the length of a name that is encoded where it looks, so each turn ends
where the next record begins. What the answer loop has chosen is the minimum
of the priorities of the records behind it, as `List.argmin` finds it, as long
as that is below the 9999 the loop starts with.
-/

namespace LmTransport.Ref

open Dns

/-! ## Well-formed answers -/

structure Question where
  qname : Name
  qtype : UInt16
  qclass : UInt16

structure SrvRecord where
  owner : Name
  rclass : UInt16
  ttl : UInt32
  priority : UInt16
  weight : UInt16
  port : UInt16
  target : Name

/-- `T_SRV`. -/
def tSrv : Nat := 33

/-- What stands between the two names of a record whose target takes `m`
bytes: type, class, ttl and the length of the rest, and then the rest up to the
target. -/
def SrvRecord.fixed (r : SrvRecord) (m : Nat) : List UInt8 :=
  (be16 tSrv ++ be16 r.rclass.toNat ++ be32 r.ttl.toNat ++ be16 (6 + m)) ++
    (be16 r.priority.toNat ++ (be16 r.weight.toNat ++ be16 r.port.toNat))

/-- The questions are encoded from `pos` to `last`. -/
inductive QuestionsAt (msg : List UInt8) : Nat → List Question → Nat → Prop
  | nil {pos : Nat} : QuestionsAt msg pos [] pos
  | cons {pos n last : Nat} {q : Question} {qs : List Question}
      (hname : Encoded msg pos q.qname n)
      (hfixed : BytesAt msg (pos + n) (be16 q.qtype.toNat ++ be16 q.qclass.toNat))
      (hrest : QuestionsAt msg (pos + n + 4) qs last) :
      QuestionsAt msg pos (q :: qs) last

/-- The answers are encoded from `pos` to `last`. -/
inductive AnswersAt (msg : List UInt8) : Nat → List SrvRecord → Nat → Prop
  | nil {pos : Nat} : AnswersAt msg pos [] pos
  | cons {pos n m last : Nat} {r : SrvRecord} {rs : List SrvRecord}
      (howner : Encoded msg pos r.owner n)
      (hfixed : BytesAt msg (pos + n) (r.fixed m))
      (htarget : Encoded msg (pos + n + 16) r.target m)
      (hrest : AnswersAt msg (pos + n + 16 + m) rs last) :
      AnswersAt msg pos (r :: rs) last

/-- A message with these questions and these answers. Nothing is said about the
rest of the header and about what follows the answers. -/
structure Response (msg : List UInt8) (qs : List Question) (rs : List SrvRecord) : Prop where
  qdcount : qs.length < 65536
  ancount : rs.length < 65536
  counts : BytesAt msg 4 (be16 qs.length ++ be16 rs.length)
  sections : ∃ mid last, QuestionsAt msg 12 qs mid ∧ AnswersAt msg mid rs last

/-- The message lies in memory at `srv`. -/
def Holds (srv : Memory) (msg : List UInt8) : Prop :=
  ∀ (i : Nat) (b : UInt8), msg[i]? = some b → srv i = b

/-- The name and its terminating zero fit into the 255 bytes that `dn_expand`
is given. -/
def Fits (name : Name) : Prop := name.presentation.length < 255

instance (name : Name) : Decidable (Fits name) := inferInstanceAs (Decidable (_ < _))

/-- What is expected of `dn_expand`, in the calls that are made here: a name
that is encoded at the cursor is written out and its length returned, if there
is room for it, and else the call fails. -/
structure ExpandsNames (dnExpand : DnExpand) : Prop where
  expands : ∀ (srv : Memory) (msg : List UInt8) (pos : Nat) (name : Name) (n : Nat)
    (old : List UInt8), Holds srv msg → Encoded msg pos name n → Fits name →
      ∃ rest, dnExpand srv msg.length pos 255 old = ((n : Int), name.presentation ++ 0 :: rest)
  refuses : ∀ (srv : Memory) (msg : List UInt8) (pos : Nat) (name : Name) (n : Nat)
    (old : List UInt8), Holds srv msg → Encoded msg pos name n → ¬ Fits name →
      (dnExpand srv msg.length pos 255 old).1 < 0

/-! ## Reading fields and names -/

theorem getShort_holds {srv : Memory} {msg : List UInt8} {pos n : Nat} (hmem : Holds srv msg)
    (hbytes : BytesAt msg pos (be16 n)) (hn : n < 65536) : getShort srv pos = n := by
  have hfst := hmem pos _ (hbytes.getElem? (i := 0) (by simp))
  have hsnd : srv ((pos : Int) + 1) = UInt8.ofNat (n % 256) :=
    hmem (pos + 1) _ (hbytes.getElem? (i := 1) (by simp))
  rw [getShort, hfst, hsnd]
  exact be16_toNat hn

section
variable {dnExpand : DnExpand} {srv : Memory} {msg : List UInt8}

/-! ## The loop over the questions -/

/-- The questions change the cursor and the buffer for names, and nothing else.
The cursor ends up behind them, or at a name that there is no room for. -/
theorem skipQuestions_questionsAt (hdn : ExpandsNames dnExpand) (hmem : Holds srv msg)
    {pos last : Nat} {qs : List Question} (h : QuestionsAt msg pos qs last) (l : SrvLocals)
    (hl : l.pos = pos) :
    ∃ (p : Nat) (name : List UInt8),
      skipQuestions dnExpand srv msg.length qs.length l = { l with pos := p, name } ∧
        ((p = last ∧ ∀ q ∈ qs, Fits q.qname) ∨
          (∃ q ∈ qs, ¬ Fits q.qname) ∧ ∃ name' n, Encoded msg p name' n ∧ ¬ Fits name') := by
  induction h generalizing l with
  | nil => exact ⟨_, l.name, by rw [← hl]; rfl, Or.inl ⟨rfl, by simp⟩⟩
  | @cons pos n last q qs hname hfixed hrest ih =>
      by_cases hfits : Fits q.qname
      · obtain ⟨rest, hcall⟩ := hdn.expands srv msg pos q.qname n l.name hmem hname hfits
        have hpos : l.pos + (n : Int) + qfixedsz = ((pos + n + 4 : Nat) : Int) := by
          rw [hl, qfixedsz]
          omega
        obtain ⟨p, name, hskip, hend⟩ := ih
          { l with name := q.qname.presentation ++ 0 :: rest, pos := l.pos + n + qfixedsz } hpos
        refine ⟨p, name, ?_, ?_⟩
        · rw [List.length_cons, skipQuestions, hl, hcall]
          simp only [ge_iff_le, Int.natCast_nonneg, if_true]
          rw [← hl, hskip]
        · exact hend.imp (fun h => ⟨h.1, List.forall_mem_cons.mpr ⟨hfits, h.2⟩⟩)
            fun ⟨⟨q', hq', hlong⟩, hstuck⟩ => ⟨⟨q', List.mem_cons_of_mem q hq', hlong⟩, hstuck⟩
      · have hcall := hdn.refuses srv msg pos q.qname n l.name hmem hname hfits
        refine ⟨pos, (dnExpand srv msg.length pos 255 l.name).2, ?_,
          Or.inr ⟨⟨q, List.mem_cons_self, hfits⟩, q.qname, n, hname, hfits⟩⟩
        rw [List.length_cons, skipQuestions, hl]
        simp only [ge_iff_le]
        rw [if_neg (by omega), ← hl]

/-! ## The loop over the answers -/

/-- The record the parser would return after `seen`: the first with the lowest
priority, if that is below 9999. -/
def chosen (seen : List SrvRecord) : Option SrvRecord :=
  (seen.argmin fun r => r.priority.toNat).filter fun r => r.priority.toNat < 9999

theorem chosen_concat (seen : List SrvRecord) (r : SrvRecord) :
    chosen (seen ++ [r]) =
      if r.priority.toNat < (chosen seen).elim 9999 fun r => r.priority.toNat then some r
      else chosen seen := by
  rw [chosen, chosen, List.argmin_concat]
  cases seen.argmin fun r => r.priority.toNat with
  | none => by_cases hr : r.priority.toNat < 9999 <;> simp [Option.filter, hr]
  | some c =>
      by_cases hc : c.priority.toNat < 9999 <;> by_cases hr : r.priority.toNat < c.priority.toNat
      · have : r.priority.toNat < 9999 := by omega
        simp [Option.filter, hc, hr, this]
      · simp [Option.filter, hc, hr]
      · simp [Option.filter, hc, hr]
      · have : ¬ r.priority.toNat < 9999 := by omega
        simp [Option.filter, hc, hr, this]

theorem mem_of_chosen {seen : List SrvRecord} {r : SrvRecord} (h : chosen seen = some r) :
    r ∈ seen ∧ r.priority.toNat < 9999 := by
  obtain ⟨hmin, hlt⟩ := Option.filter_eq_some_iff.mp h
  exact ⟨List.argmin_mem hmin, by simpa using hlt⟩

/-- Where there is a record to choose, none is better than the one chosen. -/
theorem chosen_le {seen : List SrvRecord} {r : SrvRecord} (hr : r ∈ seen)
    (hlt : r.priority.toNat < 9999) :
    ∃ m, chosen seen = some m ∧ m.priority.toNat ≤ r.priority.toNat := by
  cases hmin : seen.argmin fun r => r.priority.toNat with
  | none => exact absurd (List.argmin_eq_none.mp hmin) (List.ne_nil_of_mem hr)
  | some m =>
      have hle : m.priority.toNat ≤ r.priority.toNat :=
        @List.le_of_mem_argmin _ _ _ (fun r : SrvRecord => r.priority.toNat) seen r m hr hmin
      refine ⟨m, ?_, hle⟩
      rw [chosen, hmin, Option.filter_some, if_pos (by simp; omega)]

/-- Name, port and priority are those of the record chosen among `seen`. -/
structure Choice (seen : List SrvRecord) (l : SrvLocals) : Prop where
  name : l.prefName = (chosen seen).elim [] fun r => r.target.presentation
  port : l.prefPort = (chosen seen).elim 0 fun r => r.port.toNat
  prio : l.prefPrio = (chosen seen).elim 9999 fun r => r.priority.toNat

/-- A record is read from where its owner name ends. What it is, is not asked:
the ten bytes before its data may be any. -/
theorem parseAnswer_record (hdn : ExpandsNames dnExpand) (hmem : Holds srv msg) {pos n m : Nat}
    {r : SrvRecord} (hrdata : BytesAt msg (pos + n + 10)
      (be16 r.priority.toNat ++ (be16 r.weight.toNat ++ be16 r.port.toNat)))
    (htarget : Encoded msg (pos + n + 16) r.target m) (hfits : Fits r.target) {l : SrvLocals}
    (hl : l.pos = pos) {seen : List SrvRecord} (hc : Choice seen l) :
    (parseAnswer dnExpand srv msg.length n l).pos = ((pos + n + 16 + m : Nat) : Int) ∧
      Choice (seen ++ [r]) (parseAnswer dnExpand srv msg.length n l) := by
  have hpref : getShort srv ((pos + n + 10 : Nat) : Int) = r.priority.toNat :=
    getShort_holds hmem hrdata.left r.priority.toNat_lt
  have hport : getShort srv ((pos + n + 14 : Nat) : Int) = r.port.toNat :=
    getShort_holds hmem hrdata.right.right r.port.toNat_lt
  obtain ⟨rest, hcall⟩ := hdn.expands srv msg (pos + n + 16) r.target m l.name hmem htarget hfits
  have hpos₁ : l.pos + (n : Int) + 10 = ((pos + n + 10 : Nat) : Int) := by omega
  have hpos₂ : ((pos + n + 10 : Nat) : Int) + 2 + 2 = ((pos + n + 14 : Nat) : Int) := by omega
  have hpos₃ : ((pos + n + 14 : Nat) : Int) + 2 = ((pos + n + 16 : Nat) : Int) := by omega
  simp only [parseAnswer, SrvLocals.getshort, hpos₁, hpos₂, hpos₃, hpref, hport, hcall,
    cString_append_zero r.target.presentation_ne_zero]
  have hconcat := chosen_concat seen r
  rw [← hc.prio] at hconcat
  by_cases hlt : r.priority.toNat < l.prefPrio
  · rw [if_pos hlt] at hconcat ⊢
    exact ⟨rfl, by simp [hconcat], by simp [hconcat], by simp [hconcat]⟩
  · rw [if_neg hlt] at hconcat ⊢
    exact ⟨rfl, by rw [hconcat, hc.name], by rw [hconcat, hc.port], by rw [hconcat, hc.prio]⟩

/-- After the answers the cursor is behind them, and of all records seen the
right one has been chosen. More records may follow. -/
theorem parseAnswers_answersAt (hdn : ExpandsNames dnExpand) (hmem : Holds srv msg)
    {pos last : Nat} {rs : List SrvRecord} (h : AnswersAt msg pos rs last)
    (hfits : ∀ r ∈ rs, Fits r.owner ∧ Fits r.target) (l : SrvLocals) (hl : l.pos = pos)
    (seen : List SrvRecord) (hc : Choice seen l) (more : Nat) :
    ∃ l', parseAnswers dnExpand srv msg.length (rs.length + more) l =
        parseAnswers dnExpand srv msg.length more l' ∧
      l'.pos = last ∧ Choice (seen ++ rs) l' := by
  induction h generalizing l seen with
  | nil =>
      rw [List.length_nil, Nat.zero_add, List.append_nil]
      exact ⟨l, rfl, hl, hc⟩
  | @cons pos n m last r rs howner hfixed htarget hrest ih =>
      obtain ⟨hr, hrs⟩ := List.forall_mem_cons.mp hfits
      obtain ⟨rest, hcall⟩ := hdn.expands srv msg pos r.owner n l.name hmem howner hr.1
      obtain ⟨hpos, hchoice⟩ := @parseAnswer_record _ _ _ hdn hmem _ _ _ _ hfixed.right htarget
        hr.2 { l with name := r.owner.presentation ++ 0 :: rest } hl seen
        ⟨hc.name, hc.port, hc.prio⟩
      obtain ⟨l', hrun, hlast, hend⟩ := ih hrs _ hpos _ hchoice
      rw [List.append_assoc, List.singleton_append] at hend
      refine ⟨l', ?_, hlast, hend⟩
      rw [List.length_cons, Nat.add_right_comm, parseAnswers, hl, hcall]
      simp only [ge_iff_le, Int.natCast_nonneg, if_true]
      rw [← hl]
      exact hrun

/-- At a name that cannot be expanded the loop over the answers ends. -/
theorem parseAnswers_stuck {ancount : Nat} {l : SrvLocals}
    (h : (dnExpand srv msg.length l.pos 255 l.name).1 < 0) :
    ∃ name, parseAnswers dnExpand srv msg.length ancount l = { l with name } := by
  cases ancount with
  | zero => exact ⟨l.name, rfl⟩
  | succ ancount =>
      refine ⟨(dnExpand srv msg.length l.pos 255 l.name).2, ?_⟩
      rw [parseAnswers]
      simp only [ge_iff_le]
      rw [if_neg (by omega)]

end

/-! ## A decoder -/

/-- The bytes from `srv` to the end. -/
def contents (srv : Memory) (eom : Int) : List UInt8 :=
  (List.range eom.toNat).map fun i : Nat => srv i

/-- What `dn_expand` does with a name it can read: the text and a zero, and the
buffer as it was after that. -/
def dnExpandOf : DnExpand := fun srv eom src length old =>
  if src < 0 then (-1, old)
  else match decode (contents srv eom) eom.toNat src.toNat with
    | none => (-1, old)
    | some (labels, n) =>
        if (present labels).length < length then
          (n, present labels ++ 0 :: old.drop ((present labels).length + 1))
        else (-1, old)

theorem contents_holds {srv : Memory} {msg : List UInt8} (hmem : Holds srv msg) :
    contents srv msg.length = msg := by
  refine List.ext_getElem? fun i => ?_
  rw [contents, List.getElem?_map, Int.toNat_natCast]
  by_cases hi : i < msg.length
  · rw [List.getElem?_range hi, List.getElem?_eq_getElem hi, Option.map_some,
      hmem i _ (List.getElem?_eq_getElem hi)]
  · rw [List.getElem?_eq_none (by simpa using hi), List.getElem?_eq_none (by omega)]
    rfl

/-- On an encoded name the outcome depends on the room alone. -/
theorem dnExpandOf_encoded {srv : Memory} {msg : List UInt8} {pos n : Nat} {name : Name}
    (hmem : Holds srv msg) (hname : Encoded msg pos name n) (length : Nat) (old : List UInt8) :
    dnExpandOf srv msg.length pos length old =
      if name.presentation.length < length then
        ((n : Int), name.presentation ++ 0 :: old.drop (name.presentation.length + 1))
      else (-1, old) := by
  have hpos : ¬ (pos : Int) < 0 := by omega
  simp only [dnExpandOf, if_neg hpos, contents_holds hmem, Int.toNat_natCast,
    decode_encoded hname]
  rfl

theorem dnExpandOf_expands : ExpandsNames dnExpandOf where
  expands := by
    intro srv msg pos name n old hmem hname hfits
    rw [dnExpandOf_encoded hmem hname, if_pos (show name.presentation.length < 255 from hfits)]
    exact ⟨_, rfl⟩
  refuses := by
    intro srv msg pos name n old hmem hname hfits
    rw [dnExpandOf_encoded hmem hname, if_neg (show ¬ name.presentation.length < 255 from hfits)]
    show (-1 : Int) < 0
    decide

/-! ## An answer with two records -/

section
variable (msg : List UInt8)

/-- The memory that holds a message and is zero around it. -/
def memoryOf : Memory := fun i => if i < 0 then 0 else (msg[i.toNat]?).getD 0

theorem memoryOf_holds : Holds (memoryOf msg) msg := by
  intro i b hb
  rw [memoryOf, if_neg (by omega), Int.toNat_natCast, hb]
  rfl

end

/-- A label of one character. -/
def sampleLabel (c : UInt8) : Label := ⟨[c], by simp, by simp⟩

/-- `_.a`, the service that is asked for. -/
def sampleService : Name := ⟨[sampleLabel 0x5f, sampleLabel 0x61], by decide⟩

def sampleRecord (c : UInt8) (priority port : UInt16) : SrvRecord where
  owner := sampleService
  rclass := 1
  ttl := 60
  priority
  weight := 5
  port
  target := ⟨[sampleLabel c, sampleLabel 0x61], by simp [wireLength, sampleLabel]⟩

/-- One question, and two answers whose names all point back at it. The second
answer is the better one. Something else follows. -/
def sampleResponse : List UInt8 :=
  [0, 1, 0x81, 0x80, 0, 1, 0, 2, 0, 0, 0, 0] ++
  [1, 0x5f, 1, 0x61, 0, 0, 33, 0, 1] ++
  [0xc0, 12, 0, 33, 0, 1, 0, 0, 0, 60, 0, 10, 0, 20, 0, 5, 0x14, 0x66, 1, 0x62, 0xc0, 14] ++
  [0xc0, 12, 0, 33, 0, 1, 0, 0, 0, 60, 0, 10, 0, 10, 0, 5, 0x14, 0x67, 1, 0x63, 0xc0, 14] ++
  [0xff]

theorem sampleResponse_response :
    Response sampleResponse [⟨sampleService, 33, 1⟩]
      [sampleRecord 0x62 20 5222, sampleRecord 0x63 10 5223] where
  qdcount := by decide
  ancount := by decide
  counts := by decide
  sections := by
    have hdomain : NameAt sampleResponse 14 14 [sampleLabel 0x61] 3 :=
      .label (by decide) (.root (by decide))
    have hservice : NameAt sampleResponse 12 12 sampleService.labels 5 :=
      .label (by decide) (.label (by decide) (.root (by decide)))
    have howner : ∀ pos, 17 ≤ pos → BytesAt sampleResponse pos (be16 (49152 + 12)) →
        Encoded sampleResponse pos sampleService 2 := fun pos hpos hbytes =>
      .pointer (by decide) hbytes hservice hpos
    have htarget : ∀ pos c, 17 ≤ pos → BytesAt sampleResponse pos [1, c] →
        BytesAt sampleResponse (pos + 2) (be16 (49152 + 14)) →
        NameAt sampleResponse pos pos [sampleLabel c, sampleLabel 0x61] 4 :=
      fun pos c hpos hlabel hbytes => .label hlabel (.pointer (by decide) hbytes hdomain hpos)
    refine ⟨21, 65, .cons hservice (by decide) .nil,
      .cons (howner 21 (by decide) (by decide)) (by decide)
        (htarget 39 0x62 (by decide) (by decide) (by decide))
        (.cons (howner 43 (by decide) (by decide)) (by decide)
          (htarget 61 0x63 (by decide) (by decide) (by decide)) .nil)⟩

/-! ## The answer as a whole -/

section
variable {dnExpand : DnExpand} {srv : Memory} {msg : List UInt8}

/-- The loop over the answers begins behind the questions, or does nothing
because a question had a name that there was no room for. -/
theorem srvLocals_questions (hdn : ExpandsNames dnExpand) (hmem : Holds srv msg)
    {qs : List Question} {mid : Nat} (hqs : QuestionsAt msg 12 qs mid)
    (hqdcount : getShort srv 4 = qs.length) (name : List UInt8) :
    (∀ q ∈ qs, Fits q.qname) ∧ (∃ l : SrvLocals, l.pos = mid ∧ Choice [] l ∧
        srvLocals dnExpand srv msg.length name =
          parseAnswers dnExpand srv msg.length (getShort srv 6) l) ∨
      (∃ q ∈ qs, ¬ Fits q.qname) ∧ (srvLocals dnExpand srv msg.length name).prefName = [] := by
  obtain ⟨p, name', hskip, hend⟩ := skipQuestions_questionsAt hdn hmem hqs (.start name) rfl
  rw [srvLocals, hqdcount, hskip]
  rcases hend with ⟨rfl, hall⟩ | ⟨hsome, qname, n, hqname, hlong⟩
  · exact Or.inl ⟨hall, _, rfl, ⟨rfl, rfl, rfl⟩, rfl⟩
  · refine Or.inr ⟨hsome, ?_⟩
    obtain ⟨name'', hend⟩ := @parseAnswers_stuck dnExpand srv msg (getShort srv 6)
      { SrvLocals.start name with pos := (p : Int), name := name' }
      (hdn.refuses srv msg p qname n name' hmem hqname hlong)
    rw [hend]
    rfl

/-- What is returned for a well-formed answer: the record chosen, or nothing at
all when a question had a name that there was no room for. -/
theorem srvLocals_response (hdn : ExpandsNames dnExpand) (hmem : Holds srv msg)
    {qs : List Question} {rs : List SrvRecord} (h : Response msg qs rs)
    (hfits : ∀ r ∈ rs, Fits r.owner ∧ Fits r.target) (name : List UInt8) :
    Choice rs (srvLocals dnExpand srv msg.length name) ∨
      (srvLocals dnExpand srv msg.length name).prefName = [] := by
  obtain ⟨mid, last, hqs, hrs⟩ := h.sections
  have hqdcount : getShort srv 4 = qs.length := getShort_holds hmem h.counts.left h.qdcount
  have hancount : getShort srv 6 = rs.length := getShort_holds hmem h.counts.right h.ancount
  rcases srvLocals_questions hdn hmem hqs hqdcount name with ⟨-, l, hl, hc, hrun⟩ | ⟨-, hempty⟩
  · left
    obtain ⟨l', hend, -, hchoice⟩ := parseAnswers_answersAt hdn hmem hrs hfits l hl [] hc 0
    rw [hrun, hancount]
    exact hend ▸ hchoice
  · exact Or.inr hempty

/-- If an answer is taken, it is the target and the port of the first record
whose priority is the lowest of all. -/
theorem srv_choice_sound {name : List UInt8} {qs : List Question} {rs : List SrvRecord}
    (hdn : ExpandsNames dnExpand) (hmem : Holds srv msg) (h : Response msg qs rs)
    (hfits : ∀ r ∈ rs, Fits r.owner ∧ Fits r.target) {server : List UInt8} {port : Nat}
    (htrue : lmResolverParseSrvResponse dnExpand srv msg.length name = some (server, port)) :
    ∃ r, (rs.argmin fun r => r.priority.toNat) = some r ∧
      server = r.target.presentation ∧ port = r.port.toNat := by
  simp only [lmResolverParseSrvResponse] at htrue
  split at htrue
  · next hname =>
      rcases srvLocals_response hdn hmem h hfits name with hc | hempty
      · cases hr : chosen rs with
        | none =>
            rw [hc.name, hr] at hname
            exact absurd rfl hname
        | some r =>
            rw [hc.name, hc.port, hr] at htrue
            obtain ⟨rfl, rfl⟩ := Prod.mk.inj (Option.some.inj htrue)
            exact ⟨r, (Option.filter_eq_some_iff.mp hr).1, rfl, rfl⟩
      · exact absurd hempty hname
  · cases htrue

end

/-- The second record is returned: `c.a`, port 5223. -/
theorem srv_choice_sound_second :
    lmResolverParseSrvResponse dnExpandOf (memoryOf sampleResponse) sampleResponse.length [] =
        some ([0x63, 0x2e, 0x61], 5223) ∧
      ∃ r, ([sampleRecord 0x62 20 5222, sampleRecord 0x63 10 5223].argmin
          fun r => r.priority.toNat) = some r ∧
        ([0x63, 0x2e, 0x61] : List UInt8) = r.target.presentation ∧ 5223 = r.port.toNat := by
  have hparse : lmResolverParseSrvResponse dnExpandOf (memoryOf sampleResponse)
      sampleResponse.length [] = some ([0x63, 0x2e, 0x61], 5223) := by decide +kernel
  have hfits : ∀ r ∈ [sampleRecord 0x62 20 5222, sampleRecord 0x63 10 5223],
      Fits r.owner ∧ Fits r.target := by decide
  exact ⟨hparse, srv_choice_sound dnExpandOf_expands (memoryOf_holds _)
    sampleResponse_response hfits hparse⟩

end LmTransport.Ref
