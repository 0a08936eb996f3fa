import LmTransport.Proofs.AsyncnsRequests
import LmTransport.Proofs.AsyncnsTable

/-!
# The functions of the interface, one at a time

What a call of the client does to the queries of a context that is well formed.
No assertion fails as long as the caller keeps to the interface. A submission either adds a
query or changes nothing that can be seen, a response completes the query it is
for and no other, and fetching an answer takes the query away.
-/

namespace LmTransport.Ref.Libasyncns

variable {a : Asyncns} {p : Ptr} {q : Query} {done : List Ptr}

/-! ## Submitting -/

/-- Why a submission is refused. -/
def Refused (a : Asyncns) (call : Call) (malloc : Option Ptr) (send : Bool) : Prop :=
  a.dead = true ∨ maxQueries ≤ a.nQueries ∨ malloc = none ∨ bufsize < call.length ∨ send = false

instance (a : Asyncns) (call : Call) (malloc : Option Ptr) (send : Bool) :
    Decidable (Refused a call malloc send) :=
  inferInstanceAs (Decidable (_ ∨ _ ∨ _ ∨ _ ∨ _))

theorem Asyncns.Wf.submit (h : a.Wf done) {call : Call} {malloc : Option Ptr} (send : Bool)
    (hvalid : call.valid = true) (hfresh : ∀ p, malloc = some p → a.bare p = none) :
    (Refused a call malloc send ∧ ∃ b, asyncnsSubmit call malloc send a = some (none, none, b) ∧
        b.bare = a.bare ∧ b.dead = a.dead ∧ b.Wf done) ∨
      ¬Refused a call malloc send ∧ ∃ p k, malloc = some p ∧
        skipQueries maxQueries a = some (a.advance k) ∧
        a.queries (a.advance k).currentIndex = none ∧
        asyncnsSubmit call malloc send a =
          some (some p, some (call.bytes (a.advance k).currentId),
            (a.advance k).insert p call.type) := by
  rw [asyncnsSubmit, hvalid]
  cases hdead : a.dead with
  | true => exact Or.inl ⟨Or.inl hdead, a, rfl, rfl, hdead, h⟩
  | false =>
      simp only [Bool.not_true, Bool.false_eq_true, if_false]
      rcases h.allocQuery malloc call.type with ⟨hfull, halloc⟩ |
        ⟨hroom, k, hskip, hfree, ⟨hnone, halloc⟩ | ⟨p, hsome, halloc⟩⟩
      · exact Or.inl ⟨Or.inr (Or.inl hfull), a, by rw [halloc], rfl, hdead, h⟩
      · exact Or.inl ⟨Or.inr (Or.inr (Or.inl hnone)), a.advance k, by rw [halloc], rfl, hdead,
          h.advance k⟩
      · have hfresh' : a.bare p = none := hfresh p hsome
        have hwf := (h.advance k).insert call.type hfree hfresh'
        by_cases hsent : bufsize < call.length ∨ (!send) = true
        · -- the query is there for a moment, and is cancelled again
          obtain ⟨hcancel, hwf'⟩ := hwf.cancel
            (p := p) (q := { id := (a.advance k).currentId, type := call.type })
            (Function.update_self ..)
          have hout : p ∉ done := fun hmem => by
            obtain ⟨q, hq, -⟩ := (h.mem_done p).mp hmem
            simp [hq] at hfresh'
          refine Or.inl ⟨?_, _, by rw [halloc]; simp only [hsent, if_true, hcancel]; rfl, ?_, ?_,
            List.erase_of_not_mem hout ▸ hwf'⟩
          · rcases hsent with hlong | hfailed
            · exact Or.inr (Or.inr (Or.inr (Or.inl hlong)))
            · exact Or.inr (Or.inr (Or.inr (Or.inr (by simpa using hfailed))))
          · rw [Asyncns.bare_remove, Asyncns.bare_insert, Function.update_idem]
            exact Function.update_eq_self_iff.mpr hfresh'.symm
          · rw [Asyncns.remove_dead]
            exact hdead
        · refine Or.inr ⟨?_, p, k, hsome, hskip, hfree,
            by rw [halloc]; simp only [hsent, if_false]; rfl⟩
          rintro (hd | hfull | hnone | hlong | hfailed)
          · rw [hdead] at hd
            cases hd
          · omega
          · rw [hsome] at hnone
            cases hnone
          · exact hsent (Or.inl hlong)
          · exact hsent (Or.inr (by rw [hfailed]; rfl))

/-! ## Receiving -/

/-- `lookup_query` finds the query with that id and no other. -/
theorem Asyncns.Wf.lookupQuery_eq_some (h : a.Wf done) (hp : a.heap p = some q) :
    lookupQuery a q.id = some (p, q) := by
  have hslot := h.heap_some p q.bare (Asyncns.bare_of_heap hp)
  rw [Query.bare_id] at hslot
  simp only [lookupQuery, hslot, hp, if_true]

theorem Asyncns.Wf.lookupQuery_eq_none (h : a.Wf done) {id : UInt32}
    (hid : ∀ p q, a.bare p = some q → q.id ≠ id) : lookupQuery a id = none := by
  unfold lookupQuery
  split
  · rfl
  · next r hr =>
      obtain ⟨b, hb, -⟩ := h.slot_some _ r hr
      obtain ⟨s, hs, rfl⟩ := Asyncns.exists_heap_of_bare hb
      simp only [hs]
      exact if_neg (hid r _ hb)

theorem handleResponse_died (malloc : Nat → Bool) {d : List UInt8} (hheader : headerOk d = true)
    (hdied : QueryType.ofCode (rheader.read d).type = some .responseDied) :
    handleResponse malloc d a = some { a with dead := true } := by
  rw [handleResponse, hheader, if_neg (by simp), if_pos hdied]

/-- A response to a query that is not there any more is dropped. -/
theorem Asyncns.Wf.handleResponse_unknown (h : a.Wf done) (malloc : Nat → Bool) {d : List UInt8}
    (hheader : headerOk d = true)
    (hdied : QueryType.ofCode (rheader.read d).type ≠ some .responseDied)
    (hid : ∀ p q, a.bare p = some q → q.id ≠ (rheader.read d).id) :
    handleResponse malloc d a = some a := by
  rw [handleResponse, hheader, if_neg (by simp), if_neg hdied, h.lookupQuery_eq_none hid]

/-- Store the outcome of a query. -/
def Asyncns.store (a : Asyncns) (p : Ptr) (outcome : Outcome) : Asyncns :=
  a.modify p fun q => { q with outcome }

theorem Asyncns.store_heap (hp : a.heap p = some q) (outcome : Outcome) :
    (a.store p outcome).heap p = some { q with outcome } := by
  rw [store, modify, hp]
  exact Function.update_self ..

theorem Asyncns.store_heap_of_ne {r : Ptr} (hr : r ≠ p) (outcome : Outcome) :
    (a.store p outcome).heap r = a.heap r := Function.update_of_ne hr ..

theorem Asyncns.bare_store (hp : a.heap p = some q) (outcome : Outcome) :
    (a.store p outcome).bare = Function.update a.bare p (some { q.bare with outcome }) := by
  funext r
  by_cases hr : r = p
  · subst hr
    rw [bare, store_heap hp, Function.update_self]
    rfl
  · rw [Function.update_of_ne hr, bare, store_heap_of_ne hr, bare]

theorem Asyncns.Wf.store (h : a.Wf done) (hp : a.heap p = some q) (outcome : Outcome) :
    (a.store p outcome).Wf done where
  cursor := h.cursor
  slot_some i r hr := by
    obtain ⟨b, hb, hslot⟩ := h.slot_some i r hr
    rw [Asyncns.bare_store hp, Function.update_apply]
    split
    · next hrp =>
        rw [hrp, Asyncns.bare_of_heap hp, Option.some.injEq] at hb
        exact ⟨_, rfl, by rw [← hslot, ← hb]⟩
    · exact ⟨b, hb, hslot⟩
  heap_some r b hb := by
    rw [Asyncns.bare_store hp, Function.update_apply] at hb
    split at hb
    · next hrp =>
        obtain rfl := Option.some.inj hb
        rw [hrp]
        exact h.heap_some p q.bare (Asyncns.bare_of_heap hp)
    · exact h.heap_some r b hb
  count := h.count
  links := by
    refine h.links.congr rfl rfl (fun r _ => ?_) (fun r _ => ?_)
    · by_cases hr : r = p
      · subst hr
        simp only [Asyncns.links, Asyncns.store_heap hp, hp, Option.bind_some]
      · simp only [Asyncns.links, Asyncns.store_heap_of_ne hr]
    · by_cases hr : r = p
      · subst hr
        simp only [Asyncns.links, Asyncns.store_heap hp, hp, Option.bind_some]
      · simp only [Asyncns.links, Asyncns.store_heap_of_ne hr]
  mem_done r := by
    rw [h.mem_done, Asyncns.bare_store hp, Function.update_apply]
    by_cases hr : r = p
    · subst hr
      rw [if_pos rfl, Asyncns.bare_of_heap hp]
      simp
    · rw [if_neg hr]

/-- The response to a query that waits for it. -/
theorem Asyncns.Wf.handleResponse_completes (h : a.Wf done) (malloc : Nat → Bool) {d : List UInt8}
    (hheader : headerOk d = true)
    (hdied : QueryType.ofCode (rheader.read d).type ≠ some .responseDied)
    (hp : a.heap p = some q) (hid : q.id = (rheader.read d).id) (hdone : q.done = false)
    {outcome : Outcome}
    (hreceive : receiveResponse malloc d q.type q.outcome = some (true, outcome)) :
    handleResponse malloc d a = some ((a.store p outcome).complete p) ∧
      ((a.store p outcome).complete p).Wf (done ++ [p]) ∧
      ((a.store p outcome).complete p).bare =
        Function.update a.bare p (some { q.bare with outcome, done := true }) := by
  have hstored := Asyncns.store_heap hp outcome
  obtain ⟨hcomplete, hwf⟩ := (h.store hp outcome).completeQuery hstored hdone
  refine ⟨?_, hwf, ?_⟩
  · rw [handleResponse, hheader, if_neg (by simp), if_neg hdied, ← hid,
      h.lookupQuery_eq_some hp]
    simp only [hreceive, if_true]
    exact hcomplete
  · rw [Asyncns.bare_complete hstored, Asyncns.bare_store hp, Function.update_idem]
    rfl

/-! ## Fetching -/

/-- A `*_done` function of the right kind. -/
theorem Asyncns.Wf.fetch (h : a.Wf done) {f : Fetch} (hp : a.heap p = some q)
    (haccepts : f.accepts q.type = true) :
    asyncnsDone f p a =
      if a.dead then some (f.childGone, a)
      else if q.done then some (f.answer q.outcome, a.remove p q)
      else some (f.tryAgain, a) := by
  obtain ⟨hcancel, -⟩ := h.cancel hp
  simp only [asyncnsDone, hp, haccepts, Bool.not_true, Bool.false_eq_true, if_false]
  by_cases hdead : a.dead = true
  · rw [if_pos hdead, if_pos hdead]
  · rw [if_neg hdead, if_neg hdead]
    cases hdone : q.done with
    | true => simp [hcancel]
    | false => simp

end LmTransport.Ref.Libasyncns
