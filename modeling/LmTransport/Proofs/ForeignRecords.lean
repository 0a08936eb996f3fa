import LmTransport.Proofs.AnswerWalk
import LmTransport.Proofs.SrvComplete

/-!
# Records of other types among the answers

The type of a record is not looked at, nor is the length of its data. A record
of another type is read as if it were SRV: whatever its data begin with is
compared as a priority, and the next record is looked for where a target would
have ended.

So records of other types can do anything, unless the loop has already ended
where they are inserted or has a record of priority 0, which nothing beats. A
record that is made to look like SRV and has priority 0 itself shows that there
is no other way out as long as the records before are SRV and have targets that
there is room for.
-/

namespace LmTransport.Ref

open Dns

/-- What these records leave to those behind them is nothing: they begin with
SRV records that there is room for, and among these is one of priority 0, or the
owner behind them is one that there is no room for. -/
def ScanSettled (rs : List ResourceRecord) : Prop :=
  ∃ (pre : List SrvRecord) (rest : List ResourceRecord), rs = pre.map .srv ++ rest ∧
    (∀ r ∈ pre, Fits r.owner ∧ Fits r.target) ∧
      ((∃ r ∈ pre, r.priority = 0) ∨ ∃ r, rest.head? = some r ∧ ¬ Fits r.owner)

/-- Whatever records of other types are inserted between these two parts of the
answer section, and however the two messages are written, the same is
returned. -/
def ForeignInert (dnExpand : DnExpand) (qs : List Question)
    (before after : List ResourceRecord) : Prop :=
  ∀ (foreign : List OtherRecord) (msg msg' : List UInt8) (srv srv' : Memory)
    (name : List UInt8),
    Message msg qs (before ++ after) → Message msg' qs (before ++ foreign.map .other ++ after) →
    Holds srv msg → Holds srv' msg' →
      lmResolverParseSrvResponse dnExpand srv msg.length name =
        lmResolverParseSrvResponse dnExpand srv' msg'.length name

section
variable {dnExpand : DnExpand} {srv : Memory} {msg : List UInt8} {eom : Int}

/-- Nothing beats priority 0, whatever is read. -/
theorem parseAnswers_frozen (n : Nat) {l : SrvLocals} (hprio : l.prefPrio = 0) :
    (parseAnswers dnExpand srv eom n l).prefName = l.prefName ∧
      (parseAnswers dnExpand srv eom n l).prefPort = l.prefPort := by
  induction n generalizing l with
  | zero => exact ⟨rfl, rfl⟩
  | succ n ih =>
      rw [parseAnswers_succ]
      split
      · generalize hturn : Turn.first dnExpand srv eom l = t
        have hzero : t.l.prefPrio = 0 := by
          rw [← hturn]
          exact hprio
        have hafter := @Turn.after_eq dnExpand srv eom t
        rw [if_neg (by omega), if_neg (by omega), if_neg (by omega)] at hafter
        obtain ⟨hname, hport⟩ := @ih (t.after dnExpand srv eom) (by rw [hafter]; exact hzero)
        rw [hname, hport, hafter, ← hturn]
        exact ⟨rfl, rfl⟩
      · exact ⟨rfl, rfl⟩

theorem chosen_zero {rs : List SrvRecord} (h : ∃ r ∈ rs, r.priority = 0) {l : SrvLocals}
    (hc : Choice rs l) : l.prefPrio = 0 := by
  obtain ⟨r, hr, hzero⟩ := h
  obtain ⟨m, hm, hle⟩ := chosen_le hr (by rw [hzero]; decide)
  rw [hzero] at hle
  rw [hc.prio, hm]
  exact Nat.le_zero.mp hle

/-! ## When nothing is left to choose -/

/-- After settled records, the server and the port are those chosen among the
first of them. -/
theorem settled_result {before : List ResourceRecord} (hs : ScanSettled before) :
    ∃ pre : List SrvRecord, ∀ (dnExpand : DnExpand) (srv : Memory) (msg : List UInt8)
      (pos last : Nat) (more : List ResourceRecord) (l : SrvLocals),
      ExpandsNames dnExpand → Holds srv msg → RecordsAt msg pos (before ++ more) last →
      l.pos = pos → Choice [] l →
        (parseAnswers dnExpand srv msg.length (before ++ more).length l).prefName =
            ((chosen pre).elim [] fun r => r.target.presentation) ∧
          (parseAnswers dnExpand srv msg.length (before ++ more).length l).prefPort =
            ((chosen pre).elim 0 fun r => r.port.toNat) := by
  obtain ⟨pre, rest, rfl, hfits, hend⟩ := hs
  refine ⟨pre, fun dnExpand srv msg pos last more l hdn hmem hat hl hc => ?_⟩
  rw [List.append_assoc] at hat ⊢
  rw [List.length_append, List.length_map]
  rcases hend with hzero | ⟨r, hr, hlong⟩
  · obtain ⟨mid, hpre, -⟩ := recordsAt_append hat
    obtain ⟨l', hrun, -, hc'⟩ :=
      parseAnswers_answersAt hdn hmem hpre hfits l hl [] hc (rest ++ more).length
    rw [List.nil_append] at hc'
    obtain ⟨hname, hport⟩ := @parseAnswers_frozen dnExpand srv msg.length (rest ++ more).length l'
      (chosen_zero hzero hc')
    rw [hrun, hname, hport]
    exact ⟨hc'.name, hc'.port⟩
  · have hfirst : ∀ r', (rest ++ more).head? = some r' → ¬ Fits r'.owner := by
      intro r' hr'
      rw [List.head?_append, hr] at hr'
      exact Option.some.inj hr' ▸ hlong
    have hc' := parseAnswers_ends hdn hmem hat hfits hfirst hl hc
    exact ⟨hc'.name, hc'.port⟩

theorem settled_inert (hdn : ExpandsNames dnExpand) {qs : List Question}
    {before : List ResourceRecord} (after : List ResourceRecord)
    (h : (∃ q ∈ qs, ¬ Fits q.qname) ∨ ScanSettled before) : ForeignInert dnExpand qs before after := by
  intro foreign msg msg' srv srv' name hmsg hmsg' hmem hmem'
  rw [List.append_assoc] at hmsg'
  unfold lmResolverParseSrvResponse
  rcases srvLocals_message hdn hmem hmsg name with
    ⟨hall, mid, last, l, hrs, hl, hc, hrun⟩ | ⟨⟨q, hq, hlong⟩, hempty⟩
  · rcases srvLocals_message hdn hmem' hmsg' name with
      ⟨-, mid', last', l', hrs', hl', hc', hrun'⟩ | ⟨⟨q, hq, hlong⟩, -⟩
    · have hs := h.resolve_left fun ⟨q, hq, hlong⟩ => hlong (hall q hq)
      obtain ⟨pre, hresult⟩ := settled_result hs
      obtain ⟨hname, hport⟩ := hresult dnExpand srv msg mid last _ l hdn hmem hrs hl hc
      obtain ⟨hname', hport'⟩ := hresult dnExpand srv' msg' mid' last' _ l' hdn hmem' hrs' hl' hc'
      simp only [hrun, hrun', hname, hport, hname', hport']
    · exact absurd (hall q hq) hlong
  · rcases srvLocals_message hdn hmem' hmsg' name with ⟨hall, -⟩ | ⟨-, hempty'⟩
    · exact absurd (hall q hq) hlong
    · simp only [hempty, hempty']
      rfl

end

/-! ## When something is left to choose -/

/-- A text record. Its data are laid out like those of an SRV record of
priority 0, with target `a`. -/
def textRecord (port : UInt16) : OtherRecord where
  owner := ⟨[], by decide⟩
  rtype := 16
  rclass := 1
  ttl := 60
  rdata := (be16 0 ++ (be16 0 ++ be16 port.toNat)) ++ wire [sampleLabel 0x61]
  foreign := by decide
  short := by simp [wire, sampleLabel]

/-- The SRV record that the loop takes it for. -/
def textAsSrv (port : UInt16) : SrvRecord where
  owner := ⟨[], by decide⟩
  rclass := 1
  ttl := 60
  priority := 0
  weight := 0
  port
  target := ⟨[sampleLabel 0x61], by simp [wireLength, sampleLabel]⟩

theorem chosen_textAsSrv (pre : List SrvRecord) (hpre : ∀ r ∈ pre, r.priority ≠ 0)
    (port : UInt16) : chosen (pre ++ [textAsSrv port]) = some (textAsSrv port) := by
  have hpos : 0 < (chosen pre).elim 9999 fun r => r.priority.toNat := by
    cases hr : chosen pre with
    | none => decide
    | some r =>
        refine Nat.pos_of_ne_zero fun hzero => hpre r (mem_of_chosen hr).1 ?_
        exact UInt16.toNat_inj.mp hzero
  rw [chosen_concat, if_pos]
  exact hpos

section
variable {dnExpand : DnExpand} {srv : Memory} {msg : List UInt8}

/-- Behind records that leave something to choose, the text record is chosen. -/
theorem textRecord_result (hdn : ExpandsNames dnExpand) (hmem : Holds srv msg)
    {qs : List Question} {pre : List SrvRecord} {after : List ResourceRecord} {port : UInt16}
    (h : Message msg qs (pre.map .srv ++ .other (textRecord port) :: after))
    (hqs : ∀ q ∈ qs, Fits q.qname) (hpre : ∀ r ∈ pre, Fits r.owner ∧ Fits r.target)
    (hprio : ∀ r ∈ pre, r.priority ≠ 0) (name : List UInt8) :
    lmResolverParseSrvResponse dnExpand srv msg.length name = some ([0x61], port.toNat) := by
  rcases srvLocals_message hdn hmem h name with
    ⟨-, mid, last, l, hrs, hl, hc, hrun⟩ | ⟨⟨q, hq, hlong⟩, -⟩
  · obtain ⟨mid', hanswers, hrest⟩ := recordsAt_append hrs
    obtain ⟨l', hskip, hl', hc'⟩ :=
      parseAnswers_answersAt hdn hmem hanswers hpre l hl [] hc (after.length + 1)
    rw [List.length_append, List.length_map, List.length_cons, hskip] at hrun
    cases hrest with
    | @other _ n _ _ _ howner hbody hmore =>
        obtain ⟨rest, hcall⟩ := hdn.expands srv msg mid' (textRecord port).owner n l'.name hmem
          howner (show Fits ⟨[], _⟩ by decide)
        have htarget : Encoded msg (mid' + n + 16) (textAsSrv port).target 3 :=
          @NameAt.of_wire _ _ _ [sampleLabel 0x61] hbody.right.right
        obtain ⟨-, hchoice⟩ := @parseAnswer_record _ _ _ hdn hmem _ _ _ (textAsSrv port)
          hbody.right.left htarget
          (show Fits ⟨[sampleLabel 0x61], _⟩ by decide)
          { l' with name := (textRecord port).owner.presentation ++ 0 :: rest } hl' _
          ⟨hc'.name, hc'.port, hc'.prio⟩
        rw [parseAnswers, hl', hcall] at hrun
        simp only [ge_iff_le, Int.natCast_nonneg, if_true] at hrun
        rw [← hl'] at hrun
        obtain ⟨hname, hport⟩ := @parseAnswers_frozen dnExpand srv msg.length after.length _
          (chosen_zero ⟨textAsSrv port, by simp, rfl⟩ hchoice)
        rw [← hrun, hchoice.name, List.nil_append, chosen_textAsSrv pre hprio] at hname
        rw [← hrun, hchoice.port, List.nil_append, chosen_textAsSrv pre hprio] at hport
        have htext : (textAsSrv port).target.presentation = [0x61] := by
          show present [[0x61]] = [0x61]
          decide
        simp only [Option.elim_some, htext] at hname hport
        unfold lmResolverParseSrvResponse
        simp only [hname, hport]
        rfl
  · exact absurd (hqs q hq) hlong

theorem exists_srvRecords {before : List ResourceRecord}
    (h : ∀ r ∈ before, ∃ s, r = .srv s ∧ Fits s.target) :
    ∃ pre : List SrvRecord, before = pre.map .srv ∧ ∀ s ∈ pre, Fits s.target := by
  induction before with
  | nil => exact ⟨[], rfl, by simp⟩
  | cons r before ih =>
      obtain ⟨⟨s, rfl, hs⟩, hrest⟩ := List.forall_mem_cons.mp h
      obtain ⟨pre, rfl, hpre⟩ := ih hrest
      exact ⟨s :: pre, rfl, List.forall_mem_cons.mpr ⟨hs, hpre⟩⟩

/-- SRV records whose targets fit are not settled only if there is room for
every name in them and every priority can be beaten. -/
theorem not_settled {pre : List SrvRecord} (hs : ¬ ScanSettled (pre.map .srv))
    (htargets : ∀ r ∈ pre, Fits r.target) :
    (∀ r ∈ pre, Fits r.owner ∧ Fits r.target) ∧ ∀ r ∈ pre, r.priority ≠ 0 := by
  have howners : ∀ r ∈ pre, Fits r.owner := by
    by_contra hsome
    push Not at hsome
    -- the first owner that there is no room for ends the loop
    cases hfirst : pre.find? fun r => ¬ Fits r.owner with
    | none =>
        obtain ⟨r, hr, hlong⟩ := hsome
        exact hlong (by simpa using List.find?_eq_none.mp hfirst r hr)
    | some r =>
        obtain ⟨hlong, first, rest, rfl, hbefore⟩ := List.find?_eq_some_iff_append.mp hfirst
        refine hs ⟨first, (r :: rest).map .srv, by simp, fun r' hr' => ?_,
          Or.inr ⟨_, rfl, of_decide_eq_true hlong⟩⟩
        exact ⟨by simpa using hbefore r' hr', htargets r' (List.mem_append_left _ hr')⟩
  have hfits : ∀ r ∈ pre, Fits r.owner ∧ Fits r.target := fun r hr =>
    ⟨howners r hr, htargets r hr⟩
  exact ⟨hfits, fun r hr hzero => hs ⟨pre, [], by simp, hfits, Or.inl ⟨r, hr, hzero⟩⟩⟩

/-- Records of other types are inert behind settled records, and behind a
question that there is no room for. As long as the records before them are SRV
with targets that fit, they are inert in no other place where one more record
can be written. -/
theorem foreign_inert_iff (hdn : ExpandsNames dnExpand) (qs : List Question)
    (before after : List ResourceRecord) :
    ((∃ q ∈ qs, ¬ Fits q.qname) ∨ ScanSettled before → ForeignInert dnExpand qs before after) ∧
      (qs.length < 65536 → (before ++ after).length + 1 < 65536 →
        (∀ r ∈ before, ∃ s, r = .srv s ∧ Fits s.target) →
        ForeignInert dnExpand qs before after →
          (∃ q ∈ qs, ¬ Fits q.qname) ∨ ScanSettled before) := by
  refine ⟨settled_inert hdn after, fun hqdcount hancount hbefore hinert => ?_⟩
  by_contra hnot
  push Not at hnot
  obtain ⟨hqs, hs⟩ := hnot
  obtain ⟨pre, rfl, htargets⟩ := exists_srvRecords hbefore
  obtain ⟨hpre, hprio⟩ := not_settled hs htargets
  have hresult : ∀ port : UInt16, lmResolverParseSrvResponse dnExpand
      (memoryOf (encodeMessage qs (pre.map .srv ++ after)))
      (encodeMessage qs (pre.map .srv ++ after)).length [] = some ([0x61], port.toNat) := by
    intro port
    have hlen : (pre.map ResourceRecord.srv ++
        [textRecord port].map ResourceRecord.other ++ after).length < 65536 := by
      simp only [List.length_append, List.length_map, List.length_singleton] at hancount ⊢
      omega
    have hmsg' := encodeMessage_message hqdcount hlen
    rw [hinert [textRecord port] _ _ _ _ [] (encodeMessage_message hqdcount (by omega)) hmsg'
      (memoryOf_holds _) (memoryOf_holds _)]
    rw [List.append_assoc] at hmsg' ⊢
    exact textRecord_result hdn (memoryOf_holds _) hmsg' hqs hpre hprio []
  have htwo := (hresult 1).symm.trans (hresult 2)
  exact absurd htwo (by decide)

end

/-! ## An address before the record -/

/-- The address of `_.a`. -/
def addressRecord : OtherRecord where
  owner := sampleService
  rtype := 1
  rclass := 1
  ttl := 60
  rdata := [192, 0, 2, 1]
  foreign := by decide
  short := by decide

/-- One SRV record is found, and no longer when an address comes before it. -/
theorem foreign_not_inert :
    lmResolverParseSrvResponse dnExpandOf (memoryOf (priorityAnswer 10))
        (priorityAnswer 10).length [] = some ([0x63, 0x2e, 0x61], 5222) ∧
      ¬ ForeignInert dnExpandOf [⟨sampleService, 33, 1⟩] []
        [.srv (sampleRecord 0x63 10 5222)] := by
  have hfound : lmResolverParseSrvResponse dnExpandOf (memoryOf (priorityAnswer 10))
      (priorityAnswer 10).length [] = some ([0x63, 0x2e, 0x61], 5222) := by decide +kernel
  refine ⟨hfound, fun hinert => ?_⟩
  have hsame := hinert [addressRecord] _ _ _ _ []
    (encodeMessage_message (by decide) (by simp)) (encodeMessage_message (by decide) (by simp))
    (memoryOf_holds _) (memoryOf_holds _)
  rw [show encodeMessage [⟨sampleService, 33, 1⟩] ([] ++ [.srv (sampleRecord 0x63 10 5222)]) =
    priorityAnswer 10 from rfl, hfound] at hsame
  revert hsame
  decide +kernel

/-- Behind a record of priority 0 the address does nothing. -/
theorem foreign_inert_sample :
    ForeignInert dnExpandOf [⟨sampleService, 33, 1⟩] [.srv (sampleRecord 0x63 0 5222)] [] := by
  refine (foreign_inert_iff dnExpandOf_expands _ _ _).1 (Or.inr ?_)
  refine ⟨[sampleRecord 0x63 0 5222], [], rfl, ?_, Or.inl ⟨_, List.mem_singleton_self _, rfl⟩⟩
  decide

end LmTransport.Ref
