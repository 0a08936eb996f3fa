import LmTransport.Lib.DoublyLinked
import LmTransport.Lib.SlotTable
import LmTransport.Ref.AsyncnsQueries

/-!
# The table and the list agree with the queries

`Asyncns.Wf a done` is what holds of a context between two calls: a slot has the
query whose id it is the slot of, every query is in its slot, the count is the
number of slots in use, the cursor is the slot of the next id, and the list
spells out `done`, the queries that are done in the order in which they were
completed.

Every operation on the table is described once, by what it does to the queries.
The links are left out of that description: `Query.bare` is a query without
them, and the links are what the list `done` is about. That each operation keeps
`Wf` then follows from its description.
-/

namespace LmTransport.Ref.Libasyncns

/-! ## Queries without their links -/

def Query.bare (q : Query) : Query := { q with doneNext := none, donePrev := none }

/-- The queries of a context, without their links. -/
def Asyncns.bare (a : Asyncns) (p : Ptr) : Option Query := (a.heap p).map Query.bare

/-- The list of queries that are done, as the links have it. -/
def Asyncns.links (a : Asyncns) : DoublyLinked.Links Ptr where
  head := a.doneHead
  tail := a.doneTail
  next p := (a.heap p).bind (·.doneNext)
  prev p := (a.heap p).bind (·.donePrev)

variable {a a' : Asyncns} {p r : Ptr} {q : Query} {done : List Ptr}

@[simp] theorem Query.bare_id (q : Query) : q.bare.id = q.id := rfl
@[simp] theorem Query.bare_type (q : Query) : q.bare.type = q.type := rfl
@[simp] theorem Query.bare_done (q : Query) : q.bare.done = q.done := rfl
@[simp] theorem Query.bare_outcome (q : Query) : q.bare.outcome = q.outcome := rfl

theorem Asyncns.bare_of_heap (h : a.heap p = some q) : a.bare p = some q.bare := by
  rw [bare, h, Option.map_some]

theorem Asyncns.exists_heap_of_bare {b : Query} (h : a.bare p = some b) :
    ∃ q, a.heap p = some q ∧ q.bare = b := Option.map_eq_some_iff.mp h

theorem Asyncns.bare_eq_none : a.bare p = none ↔ a.heap p = none := Option.map_eq_none_iff

/-! ## The invariant -/

structure Asyncns.Wf (a : Asyncns) (done : List Ptr) : Prop where
  cursor : a.currentIndex = slotOf a.currentId
  slot_some : ∀ i p, a.queries i = some p → ∃ q, a.bare p = some q ∧ slotOf q.id = i
  heap_some : ∀ p q, a.bare p = some q → a.queries (slotOf q.id) = some p
  count : a.nQueries = (SlotTable.occupied a.queries maxQueries).card
  links : a.links.Holds done
  mem_done : ∀ p, p ∈ done ↔ ∃ q, a.bare p = some q ∧ q.done = true

theorem slotOf_lt (id : UInt32) : slotOf id < maxQueries := Nat.mod_lt _ (by decide)

/-- Two queries do not share a slot. -/
theorem Asyncns.Wf.eq_of_slotOf {q' : Query} (h : a.Wf done) (hp : a.bare p = some q)
    (hr : a.bare r = some q') (hslot : slotOf q.id = slotOf q'.id) : p = r := by
  have hpslot := h.heap_some p q hp
  rw [hslot, h.heap_some r q' hr, Option.some.injEq] at hpslot
  exact hpslot.symm

theorem Asyncns.Wf.nQueries_pos (h : a.Wf done) (hp : a.bare p = some q) : 0 < a.nQueries := by
  rw [h.count, Finset.card_pos]
  exact ⟨slotOf q.id, SlotTable.mem_occupied.mpr ⟨slotOf_lt _, by rw [h.heap_some p q hp]; rfl⟩⟩

/-- A new context has no query. -/
theorem Asyncns.Wf.empty : ({} : Asyncns).Wf [] where
  cursor := rfl
  slot_some _ _ h := nomatch h
  heap_some _ _ h := nomatch h
  count := by decide
  links := DoublyLinked.Links.Holds.of_eq_nil rfl rfl
  mem_done p := ⟨fun h => absurd h List.not_mem_nil, fun ⟨_, h, _⟩ => nomatch h⟩

/-! ## The cursor -/

/-- The cursor has moved on by so many slots. -/
def Asyncns.advance (a : Asyncns) (k : Nat) : Asyncns :=
  { a with
    currentIndex := (a.currentIndex + k) % maxQueries
    currentId := a.currentId + .ofNat k }

theorem slotOf_add (id : UInt32) (k : Nat) :
    slotOf (id + .ofNat k) = (slotOf id + k) % maxQueries := by
  rw [slotOf, UInt32.toNat_add, UInt32.toNat_ofNat', Nat.add_mod_mod]
  exact SlotTable.add_mod_of_dvd (by decide) rfl

theorem Asyncns.advance_zero (h : a.currentIndex < maxQueries) : a.advance 0 = a := by
  have hindex : (a.currentIndex + 0) % maxQueries = a.currentIndex := Nat.mod_eq_of_lt h
  have hid : a.currentId + UInt32.ofNat 0 = a.currentId := UInt32.add_zero ..
  rw [advance, hindex, hid]

theorem Asyncns.advance_advance (a : Asyncns) (k : Nat) :
    (a.advance 1).advance k = a.advance (k + 1) := by
  have hindex : ((a.currentIndex + 1) % maxQueries + k) % maxQueries =
      (a.currentIndex + (k + 1)) % maxQueries := by
    rw [Nat.mod_add_mod, Nat.add_assoc, Nat.add_comm 1 k]
  have hid : a.currentId + UInt32.ofNat 1 + UInt32.ofNat k =
      a.currentId + UInt32.ofNat (k + 1) := by
    rw [UInt32.add_assoc, ← UInt32.ofNat_add, Nat.add_comm 1 k]
  rw [advance, advance, advance, hindex, hid]

/-- The loop of `alloc_query` is a search for a free slot. -/
theorem skipQueries_eq (fuel : Nat) (h : a.currentIndex < maxQueries) :
    skipQueries fuel a =
      (SlotTable.scan a.queries maxQueries fuel a.currentIndex).map a.advance := by
  induction fuel generalizing a with
  | zero => rfl
  | succ fuel ih =>
      rw [skipQueries, SlotTable.scan]
      split
      · have hrest := ih (a := a.advance 1) (Nat.mod_lt _ (by decide))
        rw [Option.map_map]
        calc skipQueries fuel (a.advance 1)
            = (SlotTable.scan a.queries maxQueries fuel ((a.currentIndex + 1) % maxQueries)).map
                (a.advance 1).advance := hrest
          _ = _ := Option.map_congr fun k _ => a.advance_advance k
      · rw [Option.map_some, Asyncns.advance_zero h]

theorem Asyncns.Wf.currentIndex_lt (h : a.Wf done) : a.currentIndex < maxQueries :=
  h.cursor ▸ slotOf_lt _

theorem Asyncns.Wf.advance (h : a.Wf done) (k : Nat) : (a.advance k).Wf done where
  cursor := by
    simp only [Asyncns.advance]
    rw [slotOf_add, h.cursor]
  slot_some := h.slot_some
  heap_some := h.heap_some
  count := h.count
  links := h.links
  mem_done := h.mem_done

/-- As long as the count leaves room the search ends, at a free slot. -/
theorem Asyncns.Wf.exists_skip (h : a.Wf done) (hroom : a.nQueries < maxQueries) :
    ∃ k, skipQueries maxQueries a = some (a.advance k) ∧
      a.queries (a.advance k).currentIndex = none := by
  rw [h.count, SlotTable.card_occupied_lt_iff] at hroom
  obtain ⟨k, hk⟩ := SlotTable.exists_scan h.currentIndex_lt hroom
  refine ⟨k, ?_, (SlotTable.scan_eq_some h.currentIndex_lt hk).1⟩
  rw [skipQueries_eq _ h.currentIndex_lt, hk, Option.map_some]

/-! ## A new query -/

/-- `alloc_query` puts a new query into the slot under the cursor. -/
def Asyncns.insert (a : Asyncns) (p : Ptr) (type : QueryType) : Asyncns :=
  { a with
    queries := Function.update a.queries a.currentIndex (some p)
    heap := Function.update a.heap p (some { id := a.currentId, type })
    nQueries := a.nQueries + 1 }

theorem Asyncns.insert_queries (type : QueryType) :
    (a.insert p type).queries = Function.update a.queries a.currentIndex (some p) := rfl

theorem Asyncns.insert_heap (type : QueryType) :
    (a.insert p type).heap =
      Function.update a.heap p (some { id := a.currentId, type }) := rfl

theorem Asyncns.bare_insert (type : QueryType) :
    (a.insert p type).bare =
      Function.update a.bare p (some { id := a.currentId, type }) := by
  funext r
  rw [bare, insert_heap, Function.update_apply, Function.update_apply]
  split
  · rfl
  · rfl

theorem Asyncns.Wf.insert (h : a.Wf done) (type : QueryType)
    (hfree : a.queries a.currentIndex = none) (hfresh : a.bare p = none) :
    (a.insert p type).Wf done where
  cursor := h.cursor
  slot_some i r hr := by
    rw [Asyncns.insert_queries, Function.update_apply] at hr
    rw [Asyncns.bare_insert]
    split at hr
    · next hi =>
        obtain rfl := Option.some.inj hr
        exact ⟨_, Function.update_self .., by rw [hi, h.cursor]⟩
    · obtain ⟨q, hq, hslot⟩ := h.slot_some i r hr
      have hne : r ≠ p := fun hrp => by simp [← hrp, hq] at hfresh
      exact ⟨q, by rw [Function.update_of_ne hne, hq], hslot⟩
  heap_some r q hr := by
    rw [Asyncns.bare_insert, Function.update_apply] at hr
    rw [Asyncns.insert_queries, Function.update_apply]
    split at hr
    · next hrp =>
        obtain rfl := Option.some.inj hr
        rw [if_pos h.cursor.symm, hrp]
    · have hslot := h.heap_some r q hr
      have hne : slotOf q.id ≠ a.currentIndex := fun heq => by simp [heq, hfree] at hslot
      rw [if_neg hne, hslot]
  count := by
    have hfill := SlotTable.card_occupied_fill h.currentIndex_lt hfree p
    rw [Asyncns.insert, hfill, h.count]
  links := by
    have hout : p ∉ done := fun hp => by
      obtain ⟨q, hq, -⟩ := (h.mem_done p).mp hp
      simp [hq] at hfresh
    refine h.links.congr rfl rfl (fun r hr => ?_) (fun r hr => ?_)
    · have hne : r ≠ p := fun hrp => hout (hrp ▸ hr)
      simp only [Asyncns.links, Asyncns.insert_heap, Function.update_of_ne hne]
    · have hne : r ≠ p := fun hrp => hout (hrp ▸ hr)
      simp only [Asyncns.links, Asyncns.insert_heap, Function.update_of_ne hne]
  mem_done r := by
    rw [h.mem_done, Asyncns.bare_insert, Function.update_apply]
    by_cases hrp : r = p
    · subst hrp
      rw [if_pos rfl, hfresh]
      simp
    · rw [if_neg hrp]

/-- `alloc_query` fails when the table is full or there is no memory, and puts
the query into the next free slot otherwise. -/
theorem Asyncns.Wf.allocQuery (h : a.Wf done) (malloc : Option Ptr) (type : QueryType) :
    (maxQueries ≤ a.nQueries ∧ allocQuery malloc type a = some (none, a)) ∨
      (a.nQueries < maxQueries ∧ ∃ k, skipQueries maxQueries a = some (a.advance k) ∧
        a.queries (a.advance k).currentIndex = none ∧
        ((malloc = none ∧ allocQuery malloc type a = some (none, a.advance k)) ∨
          ∃ p, malloc = some p ∧
            allocQuery malloc type a = some (some p, (a.advance k).insert p type))) := by
  rcases Nat.lt_or_ge a.nQueries maxQueries with hroom | hfull
  · obtain ⟨k, hk, hfree⟩ := h.exists_skip hroom
    refine Or.inr ⟨hroom, k, hk, hfree, ?_⟩
    rw [Libasyncns.allocQuery, if_neg (by omega), hk, Option.map_some]
    cases malloc with
    | none => exact Or.inl ⟨rfl, rfl⟩
    | some p => exact Or.inr ⟨p, rfl, rfl⟩
  · exact Or.inl ⟨hfull, if_pos hfull⟩

/-- No query has the id a new one gets. -/
theorem Asyncns.Wf.id_ne (h : a.Wf done) (hfree : a.queries a.currentIndex = none)
    (hr : a.bare r = some q) : slotOf q.id ≠ slotOf a.currentId := fun heq => by
  have hslot := h.heap_some r q hr
  rw [heq, ← h.cursor, hfree] at hslot
  cases hslot

/-! ## Completing a query -/

/-- What `complete_query` makes of a query that is not done. -/
def Asyncns.complete (a : Asyncns) (p : Ptr) : Asyncns :=
  { a with
    doneHead := if a.doneTail = none then some p else a.doneHead
    doneTail := some p
    heap := fun r =>
      if r = p then
        (a.heap p).map fun q => { q with done := true, donePrev := a.doneTail, doneNext := none }
      else if a.doneTail = some r then (a.heap r).map fun q => { q with doneNext := some p }
      else a.heap r }

theorem completeQuery_eq (hp : a.heap p = some q) (hdone : q.done = false)
    (htail : a.doneTail ≠ some p) : completeQuery p a = some (a.complete p) := by
  rw [completeQuery, hp]
  simp only [hdone, Bool.false_eq_true, if_false, Option.some.injEq]
  cases ht : a.doneTail with
  | none =>
      simp only [Asyncns.complete, Asyncns.modify, ht, Asyncns.mk.injEq, true_and]
      refine ⟨rfl, ?_⟩
      funext r
      by_cases hr : r = p
      · subst hr
        simp [hp]
      · simp [hr]
  | some t =>
      have htp : t ≠ p := fun h => htail (ht.trans (congrArg some h))
      simp only [Asyncns.complete, Asyncns.modify, ht, Asyncns.mk.injEq, true_and]
      refine ⟨rfl, ?_⟩
      funext r
      by_cases hr : r = p
      · subst hr
        simp [hp, Ne.symm htp]
      · by_cases hrt : r = t
        · subst hrt
          simp [hr]
        · simp [hr, hrt, Ne.symm hrt]

theorem Asyncns.bare_complete (hp : a.heap p = some q) :
    (a.complete p).bare = Function.update a.bare p (some { q.bare with done := true }) := by
  funext r
  rw [bare, Function.update_apply]
  by_cases hr : r = p
  · subst hr
    simp only [complete, if_pos, hp, Option.map_some]
    rfl
  · simp only [complete, if_neg hr]
    split
    · rw [Option.map_map]
      rfl
    · rfl

/-- Completing a query puts it at the end of the list. -/
theorem Asyncns.Wf.links_complete (h : a.Wf done) (hp : a.heap p = some q)
    (hout : p ∉ done) : (a.complete p).links.Holds (done ++ [p]) := by
  refine (h.links.append hout).congr rfl rfl (fun r hr => ?_) (fun r hr => ?_)
  · show ((a.complete p).heap r).bind (·.doneNext) = (a.links.append p).next r
    simp only [Asyncns.complete, DoublyLinked.Links.append]
    by_cases hrp : r = p
    · subst hrp
      simp [hp]
    · rw [if_neg hrp, if_neg hrp]
      by_cases hlast : a.doneTail = some r
      · have hmem : r ∈ done := by simpa [hrp] using hr
        obtain ⟨b, hb, -⟩ := (h.mem_done r).mp hmem
        obtain ⟨s, hs, -⟩ := Asyncns.exists_heap_of_bare hb
        have hlast' : a.links.tail = some r := hlast
        rw [if_pos hlast, if_pos hlast', hs]
        rfl
      · have hlast' : ¬a.links.tail = some r := hlast
        rw [if_neg hlast, if_neg hlast']
        rfl
  · show ((a.complete p).heap r).bind (·.donePrev) = (a.links.append p).prev r
    simp only [Asyncns.complete, DoublyLinked.Links.append]
    by_cases hrp : r = p
    · subst hrp
      simp [hp, Asyncns.links]
    · rw [if_neg hrp, if_neg hrp]
      split
      · rw [Option.bind_map]
        rfl
      · rfl

theorem Asyncns.Wf.notMem_done (h : a.Wf done) (hp : a.heap p = some q)
    (hdone : q.done = false) : p ∉ done := fun hmem => by
  obtain ⟨b, hb, hbdone⟩ := (h.mem_done p).mp hmem
  rw [Asyncns.bare_of_heap hp, Option.some.injEq] at hb
  rw [← hb, Query.bare_done, hdone] at hbdone
  cases hbdone

/-- `complete_query` on a query that is not done. -/
theorem Asyncns.Wf.completeQuery (h : a.Wf done) (hp : a.heap p = some q)
    (hdone : q.done = false) :
    completeQuery p a = some (a.complete p) ∧ (a.complete p).Wf (done ++ [p]) := by
  have hout := h.notMem_done hp hdone
  have hbare := Asyncns.bare_of_heap hp
  refine ⟨completeQuery_eq hp hdone fun htail => ?_, ?_⟩
  · have hlast : done.getLast? = some p := h.links.tail_eq ▸ htail
    exact hout (List.mem_of_getLast? hlast)
  · refine ⟨h.cursor, fun i r hr => ?_, fun r b hb => ?_, h.count,
      h.links_complete hp hout, fun r => ?_⟩
    · obtain ⟨b, hb, hslot⟩ := h.slot_some i r hr
      rw [Asyncns.bare_complete hp, Function.update_apply]
      split
      · next hrp =>
          rw [hrp, hbare, Option.some.injEq] at hb
          exact ⟨_, rfl, by rw [← hslot, ← hb]⟩
      · exact ⟨b, hb, hslot⟩
    · rw [Asyncns.bare_complete hp, Function.update_apply] at hb
      split at hb
      · next hrp =>
          obtain rfl := Option.some.inj hb
          rw [hrp]
          exact h.heap_some p q.bare hbare
      · exact h.heap_some r b hb
    · rw [Asyncns.bare_complete hp, Function.update_apply, List.mem_append, List.mem_singleton,
        h.mem_done]
      by_cases hrp : r = p
      · simp [hrp]
      · simp [hrp]

/-! ## Cancelling a query -/

/-- Taking a query out of the list changes links only. -/
theorem unlinkQuery_heap (q : Query) (a : Asyncns) (r : Ptr) :
    (unlinkQuery q a).heap r = (a.heap r).map fun x =>
      { x with
        doneNext := if q.donePrev = some r then q.doneNext else x.doneNext
        donePrev := if q.doneNext = some r then q.donePrev else x.donePrev } := by
  cases hprev : q.donePrev with
  | none =>
      cases hnext : q.doneNext with
      | none => simp [unlinkQuery, hprev, hnext]
      | some n =>
          by_cases hr : n = r
          · subst hr
            simp [unlinkQuery, hprev, hnext, Asyncns.modify]
          · simp [unlinkQuery, hprev, hnext, Asyncns.modify, hr, Ne.symm hr]
  | some m =>
      cases hnext : q.doneNext with
      | none =>
          by_cases hr : m = r
          · subst hr
            simp [unlinkQuery, hprev, hnext, Asyncns.modify]
          · simp [unlinkQuery, hprev, hnext, Asyncns.modify, hr, Ne.symm hr]
      | some n =>
          simp only [unlinkQuery, hprev, hnext, Asyncns.modify, Function.update_apply,
            Option.some.injEq]
          by_cases hn : r = n
          · subst hn
            by_cases hm : r = m
            · subst hm
              simp [Function.comp_def]
            · simp [hm, Ne.symm hm]
          · by_cases hm : r = m
            · subst hm
              simp [hn, Ne.symm hn]
            · simp [hn, hm, Ne.symm hn, Ne.symm hm]

theorem unlinkQuery_fields (q : Query) (a : Asyncns) :
    (unlinkQuery q a).currentIndex = a.currentIndex ∧
      (unlinkQuery q a).currentId = a.currentId ∧ (unlinkQuery q a).queries = a.queries ∧
      (unlinkQuery q a).nQueries = a.nQueries ∧ (unlinkQuery q a).dead = a.dead ∧
      (unlinkQuery q a).doneHead = (if q.donePrev = none then q.doneNext else a.doneHead) ∧
      (unlinkQuery q a).doneTail = (if q.doneNext = none then q.donePrev else a.doneTail) := by
  unfold unlinkQuery
  cases q.donePrev <;> cases q.doneNext <;> exact ⟨rfl, rfl, rfl, rfl, rfl, rfl, rfl⟩

/-- The context once the query is out of the list, if it was in it. -/
def Asyncns.unlinked (a : Asyncns) (q : Query) : Asyncns :=
  if q.done then unlinkQuery q a else a

/-- What `asyncns_cancel` leaves of the context. -/
def Asyncns.remove (a : Asyncns) (p : Ptr) (q : Query) : Asyncns :=
  { a.unlinked q with
    queries := Function.update (a.unlinked q).queries (slotOf q.id) none
    heap := Function.update (a.unlinked q).heap p none
    nQueries := (a.unlinked q).nQueries - 1 }

theorem Asyncns.unlinked_fields (a : Asyncns) (q : Query) :
    (a.unlinked q).currentIndex = a.currentIndex ∧ (a.unlinked q).currentId = a.currentId ∧
      (a.unlinked q).queries = a.queries ∧ (a.unlinked q).nQueries = a.nQueries ∧
      (a.unlinked q).dead = a.dead ∧ (a.unlinked q).bare = a.bare := by
  unfold unlinked
  split
  · obtain ⟨hindex, hid, hqueries, hn, hdead, -, -⟩ := unlinkQuery_fields q a
    refine ⟨hindex, hid, hqueries, hn, hdead, ?_⟩
    funext r
    rw [bare, unlinkQuery_heap, Option.map_map]
    rfl
  · exact ⟨rfl, rfl, rfl, rfl, rfl, rfl⟩

theorem Asyncns.bare_remove (a : Asyncns) (p : Ptr) (q : Query) :
    (a.remove p q).bare = Function.update a.bare p none := by
  obtain ⟨-, -, -, -, -, hbare⟩ := a.unlinked_fields q
  funext r
  rw [← hbare]
  by_cases hr : r = p
  · subst hr
    simp [bare, remove]
  · simp [bare, remove, hr]

theorem Asyncns.remove_dead (a : Asyncns) (p : Ptr) (q : Query) :
    (a.remove p q).dead = a.dead := (a.unlinked_fields q).2.2.2.2.1

theorem asyncnsCancel_eq (hp : a.heap p = some q) (hn : a.nQueries ≠ 0)
    (hslot : a.queries (slotOf q.id) = some p) : asyncnsCancel p a = some (a.remove p q) := by
  obtain ⟨-, -, hqueries, -, -, -⟩ := a.unlinked_fields q
  have hslot' : (a.unlinked q).queries (slotOf q.id) = some p := hqueries ▸ hslot
  simp only [asyncnsCancel, hp, if_neg hn]
  exact if_neg (not_not_intro hslot')

/-- The list loses the query, if it had it. -/
theorem Asyncns.Wf.links_remove (h : a.Wf done) (hp : a.heap p = some q) :
    (a.remove p q).links.Holds (done.erase p) := by
  by_cases hdone : q.done = true
  · have hmem : p ∈ done := (h.mem_done p).mpr ⟨_, Asyncns.bare_of_heap hp, hdone⟩
    obtain ⟨front, back, -, hsplit, herase⟩ := List.exists_erase_eq hmem
    have hlinks := h.links
    rw [hsplit] at hlinks
    have hprev : a.links.prev p = q.donePrev := by simp [Asyncns.links, hp]
    have hnext : a.links.next p = q.doneNext := by simp [Asyncns.links, hp]
    obtain ⟨-, -, -, -, -, hhead, htail⟩ := unlinkQuery_fields q a
    have hnodup := hlinks.nodup
    rw [List.nodup_append, List.nodup_cons] at hnodup
    -- the links of the others are in the queries that stay
    have hstays : ∀ r ∈ front ++ back, r ≠ p ∧ ∃ s, a.heap r = some s := fun r hr => by
      have hr' : r ∈ done := by
        rw [hsplit]
        simp only [List.mem_append, List.mem_cons] at hr ⊢
        tauto
      obtain ⟨b, hb, -⟩ := (h.mem_done r).mp hr'
      obtain ⟨s, hs, -⟩ := Asyncns.exists_heap_of_bare hb
      refine ⟨fun hrp => ?_, s, hs⟩
      rcases List.mem_append.mp hr with hfront | hback
      · exact hnodup.2.2 r hfront p (List.mem_cons_self ..) hrp
      · exact hnodup.2.1.1 (hrp ▸ hback)
    rw [herase]
    refine hlinks.unlink.congr ?_ ?_ (fun r hr => ?_) (fun r hr => ?_)
    · simp only [Asyncns.links, Asyncns.remove, Asyncns.unlinked, if_pos hdone, hhead,
        DoublyLinked.Links.unlink]
      rw [← hprev, ← hnext]
      rfl
    · simp only [Asyncns.links, Asyncns.remove, Asyncns.unlinked, if_pos hdone, htail,
        DoublyLinked.Links.unlink]
      rw [← hprev, ← hnext]
      rfl
    · obtain ⟨hne, s, hs⟩ := hstays r hr
      simp only [Asyncns.links, Asyncns.remove, Asyncns.unlinked, if_pos hdone,
        DoublyLinked.Links.unlink, Function.update_of_ne hne, unlinkQuery_heap, hs, hp,
        Option.map_some, Option.bind_some]
    · obtain ⟨hne, s, hs⟩ := hstays r hr
      simp only [Asyncns.links, Asyncns.remove, Asyncns.unlinked, if_pos hdone,
        DoublyLinked.Links.unlink, Function.update_of_ne hne, unlinkQuery_heap, hs, hp,
        Option.map_some, Option.bind_some]
  · rw [Bool.not_eq_true] at hdone
    have hout := h.notMem_done hp hdone
    rw [List.erase_of_not_mem hout]
    have hunlinked : a.unlinked q = a := by simp [Asyncns.unlinked, hdone]
    have hne : ∀ r ∈ done, r ≠ p := fun r hr hrp => hout (hrp ▸ hr)
    refine h.links.congr ?_ ?_ (fun r hr => ?_) (fun r hr => ?_)
    · simp [Asyncns.links, Asyncns.remove, hunlinked]
    · simp [Asyncns.links, Asyncns.remove, hunlinked]
    · simp [Asyncns.links, Asyncns.remove, hunlinked, hne r hr]
    · simp [Asyncns.links, Asyncns.remove, hunlinked, hne r hr]

/-- `asyncns_cancel` never fails an assertion on a query of the context. -/
theorem Asyncns.Wf.cancel (h : a.Wf done) (hp : a.heap p = some q) :
    asyncnsCancel p a = some (a.remove p q) ∧ (a.remove p q).Wf (done.erase p) := by
  have hbare := Asyncns.bare_of_heap hp
  have hslot := h.heap_some p q.bare hbare
  obtain ⟨hindex, hid, hqueries, hcount, -, -⟩ := a.unlinked_fields q
  refine ⟨asyncnsCancel_eq hp (Nat.ne_of_gt (h.nQueries_pos hbare)) hslot, ?_⟩
  refine ⟨?_, fun i r hr => ?_, fun r b hb => ?_, ?_, h.links_remove hp, fun r => ?_⟩
  · exact hindex.trans (h.cursor.trans (congrArg slotOf hid.symm))
  · have hr' : Function.update (a.unlinked q).queries (slotOf q.id) none i = some r := hr
    rw [hqueries, Function.update_apply] at hr'
    split at hr'
    · cases hr'
    · next hi =>
        obtain ⟨b, hb, hb'⟩ := h.slot_some i r hr'
        have hne : r ≠ p := fun hrp => by
          rw [hrp, hbare, Option.some.injEq] at hb
          exact hi (hb'.symm.trans (congrArg (slotOf ·.id) hb.symm))
        exact ⟨b, by rw [Asyncns.bare_remove, Function.update_of_ne hne, hb], hb'⟩
  · rw [Asyncns.bare_remove, Function.update_apply] at hb
    split at hb
    · cases hb
    · next hrp =>
        have hne : slotOf b.id ≠ slotOf q.id := fun heq => hrp (h.eq_of_slotOf hb hbare heq)
        show Function.update (a.unlinked q).queries (slotOf q.id) none (slotOf b.id) = some r
        rw [hqueries, Function.update_of_ne hne, h.heap_some r b hb]
  · have hsome : (a.queries (slotOf q.id)).isSome := by
      rw [show a.queries (slotOf q.id) = some p from hslot]
      rfl
    have hclear := SlotTable.card_occupied_clear (slotOf_lt q.id) hsome
    show (a.unlinked q).nQueries - 1 =
      (SlotTable.occupied (Function.update (a.unlinked q).queries (slotOf q.id) none)
        maxQueries).card
    rw [hqueries, hcount, h.count]
    omega
  · rw [Asyncns.bare_remove, Function.update_apply, h.links.nodup.mem_erase_iff, h.mem_done]
    by_cases hrp : r = p
    · simp [hrp]
    · simp [hrp]

end LmTransport.Ref.Libasyncns
