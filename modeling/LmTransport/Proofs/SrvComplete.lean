import LmTransport.Proofs.Messages

/-!
# When an SRV answer yields a server

The scan for the best record starts from priority 9999 and not from having no
record, so a record has to be better than that to be found. There are priorities
up to 65535, and an answer with nothing but the worse ones is refused as if it
were empty.

Names that there is no room for end a loop. If one of the questions has such a
name, no answer is looked at, and if an owner does, neither is anything from
that record on.
-/

namespace LmTransport.Ref

open Dns

section
variable {dnExpand : DnExpand} {srv : Memory} {msg : List UInt8}

/-- The loop over the answers of a message, unless one of its questions keeps
it from being reached. -/
theorem srvLocals_message (hdn : ExpandsNames dnExpand) (hmem : Holds srv msg)
    {qs : List Question} {rs : List ResourceRecord} (h : Message msg qs rs) (name : List UInt8) :
    (∀ q ∈ qs, Fits q.qname) ∧ (∃ (mid last : Nat) (l : SrvLocals), RecordsAt msg mid rs last ∧
        l.pos = mid ∧ Choice [] l ∧ srvLocals dnExpand srv msg.length name =
          parseAnswers dnExpand srv msg.length rs.length l) ∨
      (∃ q ∈ qs, ¬ Fits q.qname) ∧ (srvLocals dnExpand srv msg.length name).prefName = [] := by
  obtain ⟨mid, last, hqs, hrs⟩ := h.sections
  have hqdcount : getShort srv 4 = qs.length := getShort_holds hmem h.counts.left h.qdcount
  have hancount : getShort srv 6 = rs.length := getShort_holds hmem h.counts.right h.ancount
  rcases srvLocals_questions hdn hmem hqs hqdcount name with ⟨hall, l, hl, hc, hrun⟩ | hempty
  · exact Or.inl ⟨hall, mid, last, l, hrs, hl, hc, hancount ▸ hrun⟩
  · exact Or.inr hempty

/-- The SRV records that a section begins with have been looked at when the
loop ends, if it ends there: behind the last record or at an owner that there
is no room for. -/
theorem parseAnswers_ends (hdn : ExpandsNames dnExpand) (hmem : Holds srv msg) {pos last : Nat}
    {pre : List SrvRecord} {rest : List ResourceRecord}
    (h : RecordsAt msg pos (pre.map .srv ++ rest) last)
    (hfits : ∀ r ∈ pre, Fits r.owner ∧ Fits r.target)
    (hlong : ∀ r, rest.head? = some r → ¬ Fits r.owner) {l : SrvLocals} (hl : l.pos = pos)
    (hc : Choice [] l) :
    Choice pre (parseAnswers dnExpand srv msg.length (pre.length + rest.length) l) := by
  obtain ⟨mid, hpre, hrest⟩ := recordsAt_append h
  obtain ⟨l', hrun, hl', hc'⟩ := parseAnswers_answersAt hdn hmem hpre hfits l hl [] hc rest.length
  rw [hrun]
  cases rest with
  | nil => exact hc'
  | cons r rest =>
      obtain ⟨n, howner⟩ := hrest.owner
      have hfail : (dnExpand srv msg.length l'.pos 255 l'.name).1 < 0 := by
        rw [hl']
        exact hdn.refuses srv msg mid r.owner n l'.name hmem howner (hlong r rfl)
      obtain ⟨name, hend⟩ := @parseAnswers_stuck dnExpand srv msg (r :: rest).length l' hfail
      rw [hend]
      exact ⟨hc'.name, hc'.port, hc'.prio⟩

theorem chosen_ne_none_iff (rs : List SrvRecord) :
    chosen rs ≠ none ↔ ∃ r ∈ rs, r.priority.toNat < 9999 := by
  constructor
  · intro h
    obtain ⟨r, hr⟩ := Option.ne_none_iff_exists'.mp h
    exact ⟨r, mem_of_chosen hr⟩
  · rintro ⟨r, hr, hlt⟩ hnone
    obtain ⟨m, hm, -⟩ := chosen_le hr hlt
    rw [hnone] at hm
    cases hm

/-- What is chosen is returned, unless its target is the root. -/
theorem parse_isSome_iff {name : List UInt8} {rs : List SrvRecord}
    (hc : Choice rs (srvLocals dnExpand srv msg.length name))
    (hroot : ∀ r ∈ rs, r.target.labels ≠ []) :
    (∃ server port, lmResolverParseSrvResponse dnExpand srv msg.length name =
        some (server, port)) ↔ ∃ r ∈ rs, r.priority.toNat < 9999 := by
  rw [← chosen_ne_none_iff]
  have hname := hc.name
  unfold lmResolverParseSrvResponse
  cases hr : chosen rs with
  | none =>
      rw [hr] at hname
      simp [hname]
  | some r =>
      rw [hr] at hname
      have hmem : r ∈ rs := (mem_of_chosen hr).1
      have htext : r.target.presentation ≠ [] := fun hnil =>
        hroot r hmem (List.map_eq_nil_iff.mp ((present_eq_nil_iff (by
          intro label hlabel
          obtain ⟨label', -, rfl⟩ := List.mem_map.mp hlabel
          exact label'.nonempty)).mp hnil))
      simp only [Option.elim_some] at hname
      simp [hname, htext]

/-- A response with SRV records, none of them for the root and all with targets
that there is room for, yields a server exactly when the names of all questions
fit, and one of the records before the first whose owner does not fit has a
priority below 9999. -/
theorem srv_lookup_complete_iff (hdn : ExpandsNames dnExpand) (hmem : Holds srv msg)
    {qs : List Question} {rs : List SrvRecord} (h : Response msg qs rs)
    (htargets : ∀ r ∈ rs, Fits r.target ∧ r.target.labels ≠ []) (name : List UInt8) :
    (∃ server port, lmResolverParseSrvResponse dnExpand srv msg.length name =
        some (server, port)) ↔
      (∀ q ∈ qs, Fits q.qname) ∧
        ∃ r ∈ rs.takeWhile (fun r => Fits r.owner), r.priority.toNat < 9999 := by
  rcases srvLocals_message hdn hmem (message_srv_iff.mpr h) name with
    ⟨hall, mid, last, l, hrs, hl, hc, hrun⟩ | ⟨⟨q, hq, hlong⟩, hempty⟩
  · have hsplit := List.takeWhile_append_dropWhile (p := fun r : SrvRecord => Fits r.owner) (l := rs)
    generalize hpre : rs.takeWhile (fun r => Fits r.owner) = pre at hsplit
    generalize hrest : rs.dropWhile (fun r => Fits r.owner) = rest at hsplit
    have hsub : ∀ r ∈ pre, r ∈ rs := fun r hr => hsplit ▸ List.mem_append_left rest hr
    have hfits : ∀ r ∈ pre, Fits r.owner ∧ Fits r.target := fun r hr =>
      ⟨of_decide_eq_true (List.all_eq_true.mp List.all_takeWhile r (hpre ▸ hr)), (htargets r (hsub r hr)).1⟩
    have hfirst : ∀ r, (rest.map ResourceRecord.srv).head? = some r → ¬ Fits r.owner := by
      intro r hr
      obtain ⟨r', hr', rfl⟩ := Option.map_eq_some_iff.mp (List.head?_map ▸ hr)
      have hdrop := List.head?_dropWhile_not (fun r : SrvRecord => decide (Fits r.owner)) rs
      rw [hrest, hr'] at hdrop
      show ¬ Fits r'.owner
      simpa using hdrop
    have hat : RecordsAt msg mid (pre.map .srv ++ rest.map .srv) last := by
      rw [← List.map_append, hsplit]
      exact hrs
    have hend := parseAnswers_ends hdn hmem hat hfits hfirst hl hc
    rw [List.length_map] at hrun
    rw [List.length_map, ← List.length_append, hsplit, ← hrun] at hend
    rw [parse_isSome_iff hend fun r hr => (htargets r (hsub r hr)).2]
    exact ⟨fun hsome => ⟨hall, hsome⟩, And.right⟩
  · constructor
    · rintro ⟨server, port, hsome⟩
      rw [lmResolverParseSrvResponse, hempty] at hsome
      cases hsome
    · intro hboth
      exact absurd (hboth.1 q hq) hlong

end

/-! ## A record with a high priority -/

/-- An answer to the question for `_.a`, in which `c.a` has this priority. -/
def priorityAnswer (priority : UInt16) : List UInt8 :=
  encodeMessage [⟨sampleService, 33, 1⟩] [.srv (sampleRecord 0x63 priority 5222)]

theorem priorityAnswer_response (priority : UInt16) :
    Response (priorityAnswer priority) [⟨sampleService, 33, 1⟩]
      [sampleRecord 0x63 priority 5222] :=
  message_srv_iff.mp (encodeMessage_message (by decide) (by simp))

/-- With priority 9999 the only record is not found. -/
theorem srv_lookup_incomplete :
    ExpandsNames dnExpandOf ∧
      Response (priorityAnswer 9999) [⟨sampleService, 33, 1⟩] [sampleRecord 0x63 9999 5222] ∧
      Fits (sampleRecord 0x63 9999 5222).target ∧
      (sampleRecord 0x63 9999 5222).target.labels ≠ [] ∧
      lmResolverParseSrvResponse dnExpandOf (memoryOf (priorityAnswer 9999))
        (priorityAnswer 9999).length [] = none :=
  ⟨dnExpandOf_expands, priorityAnswer_response _, by decide, by simp [sampleRecord],
    by decide +kernel⟩

/-- With priority 9998 it is. -/
theorem srv_lookup_complete_sample :
    ∃ server port, lmResolverParseSrvResponse dnExpandOf (memoryOf (priorityAnswer 9998))
      (priorityAnswer 9998).length [] = some (server, port) := by
  have htargets : ∀ r ∈ [sampleRecord 0x63 9998 5222], Fits r.target ∧ r.target.labels ≠ [] := by
    intro r hr
    obtain rfl := List.mem_singleton.mp hr
    exact ⟨by decide, by simp [sampleRecord]⟩
  refine (srv_lookup_complete_iff dnExpandOf_expands (memoryOf_holds _)
    (priorityAnswer_response 9998) htargets []).mpr ⟨by decide, ?_⟩
  exact ⟨sampleRecord 0x63 9998 5222, by simp [show Fits (sampleRecord 0x63 9998 5222).owner from
    by decide], by decide⟩

end LmTransport.Ref
