import LmTransport.Proofs.AsyncnsFlight
import Mathlib.Data.Set.Card

/-!
# The context in every run

Whatever the user asks for, whatever the workers reply and in whatever order, the
table, the count, the list and the queries agree with each other, up to the moment
in which an assertion ends the client. A response to a query that was cancelled is
dropped, and one that is too long, or whose id belongs to another query by now,
either trips an assertion or completes the query with that id.

With that the search for a free slot always ends, a submission is refused for
one of five reasons only, and `asyncns_free` cancels what is left without failing
an assertion. Whatever a query that is not done is sent finds it as it was allocated,
which is what the outcome of a lookup depends on (`Sound`).
-/

namespace LmTransport.Ref.Libasyncns

variable {a b : Asyncns} {done : List Ptr} {p : Ptr} {q : Query}

/-- A query that is not done has no outcome. -/
def Asyncns.Blank (a : Asyncns) : Prop := ∀ p q, a.bare p = some q → q.done = false → q.outcome = {}

theorem Asyncns.Blank.of_bare (h : a.Blank) (hbare : b.bare = a.bare) : b.Blank := by
  rw [Blank, hbare]
  exact h

/-- A query is replaced by another one, or by none. -/
theorem Asyncns.Blank.update (h : a.Blank) {x : Option Query}
    (hbare : b.bare = Function.update a.bare p x)
    (hx : ∀ q, x = some q → q.done = false → q.outcome = {}) : b.Blank := by
  intro r s hr hdone
  rw [hbare, Function.update_apply] at hr
  split at hr
  · exact hx s hr hdone
  · exact h r s hr hdone

theorem Asyncns.Blank.insert (h : a.Blank) (type : QueryType) : (a.insert p type).Blank :=
  h.update (Asyncns.bare_insert type) fun q hq _ => by
    obtain rfl := Option.some.inj hq
    rfl

theorem Asyncns.Blank.remove (h : a.Blank) : (a.remove p q).Blank :=
  h.update (a.bare_remove p q) fun _ hq => nomatch hq

/-- What holds of a context between two calls. -/
def Asyncns.InOrder (a : Asyncns) : Prop := ∃ done, a.Wf done ∧ a.Blank

/-! ## One call -/

theorem lookupQuery_heap {id : UInt32} (h : lookupQuery a id = some (p, q)) :
    a.heap p = some q ∧ q.id = id := by
  unfold lookupQuery at h
  split at h
  · cases h
  · split at h
    · cases h
    · next r hr =>
        split at h
        · next hid =>
            obtain ⟨rfl, rfl⟩ := Prod.mk.inj (Option.some.inj h)
            exact ⟨hr, hid⟩
        · cases h

/-- A response that does not complete a query stores nothing either. -/
theorem receiveResponse_false {malloc : Nat → Bool} {d : List UInt8} {type : QueryType}
    {old new : Outcome} (h : receiveResponse malloc d type old = some (false, new)) :
    new = old := by
  unfold receiveResponse at h
  split at h
  · split at h
    · cases h
    · cases h
  · split at h
    · cases h
    · cases h
  · split at h
    · cases h
    · cases h
  · exact (Prod.mk.inj (Option.some.inj h)).2.symm

theorem Asyncns.Wf.handleResponse (h : a.Wf done) (hblank : a.Blank) {malloc : Nat → Bool}
    {d : List UInt8} (hb : handleResponse malloc d a = some b) : b.InOrder := by
  unfold Libasyncns.handleResponse at hb
  split at hb
  · cases hb
  · split at hb
    · obtain rfl := Option.some.inj hb
      exact ⟨done, ⟨h.cursor, h.slot_some, h.heap_some, h.count, h.links, h.mem_done⟩, hblank⟩
    · split at hb
      · obtain rfl := Option.some.inj hb
        exact ⟨done, h, hblank⟩
      · next p q hlookup =>
          obtain ⟨hp, -⟩ := lookupQuery_heap hlookup
          split at hb
          · cases hb
          · next complete outcome hreceive =>
              have hstored := Asyncns.store_heap hp outcome
              have hbare := Asyncns.bare_store hp outcome
              have hwf := h.store hp outcome
              cases complete with
              | false =>
                  obtain rfl := Option.some.inj hb
                  refine ⟨done, hwf, hblank.update hbare fun r hr hdone => ?_⟩
                  obtain rfl := Option.some.inj hr
                  rw [receiveResponse_false hreceive]
                  exact hblank p q.bare (Asyncns.bare_of_heap hp) hdone
              | true =>
                  cases hdone : q.done with
                  | false =>
                      obtain ⟨heq, hwf'⟩ := hwf.completeQuery hstored hdone
                      rw [if_pos rfl] at hb
                      obtain rfl := Option.some.inj (hb.symm.trans heq)
                      have hcompleted := Asyncns.bare_complete hstored
                      rw [hbare, Function.update_idem] at hcompleted
                      refine ⟨_, hwf', hblank.update hcompleted fun r hr hr' => ?_⟩
                      obtain rfl := Option.some.inj hr
                      cases hr'
                  | true =>
                      have hnone : Libasyncns.completeQuery p (a.store p outcome) = none := by
                        simp only [Libasyncns.completeQuery, hstored, hdone, if_true]
                      rw [if_pos rfl] at hb
                      cases hb.symm.trans hnone

theorem Asyncns.Wf.asyncnsDone (h : a.Wf done) (hblank : a.Blank) {f : Fetch} {answer : Answer}
    (hb : asyncnsDone f p a = some (answer, b)) : b.InOrder := by
  unfold Libasyncns.asyncnsDone at hb
  split at hb
  · cases hb
  · next q hp =>
      split at hb
      · cases hb
      · split at hb
        · obtain ⟨-, rfl⟩ := Prod.mk.inj (Option.some.inj hb)
          exact ⟨done, h, hblank⟩
        · split at hb
          · obtain ⟨-, rfl⟩ := Prod.mk.inj (Option.some.inj hb)
            exact ⟨done, h, hblank⟩
          · obtain ⟨hcancel, hwf⟩ := h.cancel hp
            rw [hcancel] at hb
            obtain ⟨-, rfl⟩ := Prod.mk.inj (Option.some.inj hb)
            exact ⟨_, hwf, hblank.remove⟩

theorem Asyncns.Wf.asyncnsSubmit (h : a.Wf done) (hblank : a.Blank) {call : Call}
    {malloc : Option Ptr} {send : Bool} (hfresh : ∀ p, malloc = some p → a.bare p = none)
    {r : Option Ptr × Option (List UInt8)}
    (hb : asyncnsSubmit call malloc send a = some (r.1, r.2, b)) : b.InOrder := by
  by_cases hvalid : call.valid = true
  · rcases h.submit send hvalid hfresh with
      ⟨-, c, hc, hbare, -, hwf⟩ | ⟨-, p, k, hp, -, hfree, hc⟩
    · rw [hc] at hb
      simp only [Option.some.injEq, Prod.mk.injEq] at hb
      exact hb.2.2 ▸ ⟨done, hwf, hblank.of_bare hbare⟩
    · rw [hc] at hb
      simp only [Option.some.injEq, Prod.mk.injEq] at hb
      have hblank' : (a.advance k).Blank := hblank
      exact hb.2.2 ▸
        ⟨done, (h.advance k).insert call.type hfree (hfresh p hp), hblank'.insert call.type⟩
  · rw [Bool.not_eq_true] at hvalid
    rw [Libasyncns.asyncnsSubmit, hvalid] at hb
    cases hb

/-! ## Freeing the context

The loop of `asyncns_free` goes through the table once. The slots it has passed
are empty, and those it has not are as they were. -/

theorem Asyncns.Wf.free_loop (h : a.Wf done) {n : Nat} (hn : n ≤ maxQueries) :
    ∃ b done', (List.range n).foldlM freeSlot a = some b ∧ b.Wf done' ∧
      (∀ i < n, b.queries i = none) ∧ ∀ i, n ≤ i → b.queries i = a.queries i := by
  induction n with
  | zero => exact ⟨a, done, rfl, h, fun i hi => absurd hi (Nat.not_lt_zero i), fun _ _ => rfl⟩
  | succ n ih =>
      obtain ⟨b, done', hb, hwf, hpassed, hrest⟩ := ih (by omega)
      have hlast : (List.range (n + 1)).foldlM freeSlot a = freeSlot b n := by
        rw [List.range_succ, List.foldlM_append, hb]
        exact bind_pure (freeSlot b n)
      rw [hlast, freeSlot]
      cases hslot : b.queries n with
      | none =>
          refine ⟨b, done', rfl, hwf, fun i hi => ?_, fun i hi => hrest i (by omega)⟩
          rcases Nat.lt_succ_iff_lt_or_eq.mp hi with hi | rfl
          · exact hpassed i hi
          · exact hslot
      | some p =>
          obtain ⟨s, hs, hid⟩ := hwf.slot_some n p hslot
          obtain ⟨q, hq, rfl⟩ := Asyncns.exists_heap_of_bare hs
          obtain ⟨hcancel, hwf'⟩ := hwf.cancel hq
          have hqueries : (b.remove p q).queries = Function.update b.queries n none := by
            rw [← hid, Asyncns.remove, (b.unlinked_fields q).2.2.1]
            rfl
          refine ⟨b.remove p q, _, hcancel, hwf', fun i hi => ?_,
            fun i hi => ?_⟩
          · rw [hqueries, Function.update_apply]
            split
            · rfl
            · exact hpassed i (by omega)
          · rw [hqueries, Function.update_of_ne (by omega)]
            exact hrest i (by omega)

/-- `asyncns_free` cancels every query there is, each of them once. -/
theorem Asyncns.Wf.asyncnsFree (h : a.Wf done) :
    ∃ b, asyncnsFree a = some b ∧ b.Wf [] ∧ (∀ p, b.heap p = none) ∧ b.nQueries = 0 := by
  obtain ⟨b, done', hb, hwf, hempty, -⟩ := h.free_loop (Nat.le_refl maxQueries)
  have hnone : ∀ p, b.bare p = none := fun p => by
    by_contra hp
    obtain ⟨q, hq⟩ := Option.ne_none_iff_exists'.mp hp
    have hslot := hwf.heap_some p q hq
    rw [hempty _ (slotOf_lt q.id)] at hslot
    cases hslot
  have hdone : done' = [] := by
    rw [List.eq_nil_iff_forall_not_mem]
    intro p hp
    obtain ⟨q, hq, -⟩ := (hwf.mem_done p).mp hp
    rw [hnone p] at hq
    cases hq
  subst hdone
  refine ⟨b, hb, hwf, fun p => Asyncns.bare_eq_none.mp (hnone p), ?_⟩
  rw [hwf.count, Finset.card_eq_zero, Finset.eq_empty_iff_forall_notMem]
  intro i hi
  obtain ⟨hlt, hsome⟩ := SlotTable.mem_occupied.mp hi
  rw [hempty i hlt] at hsome
  cases hsome

/-- The count is the number of queries in memory. -/
theorem Asyncns.Wf.ncard_heap (h : a.Wf done) :
    {p | (a.heap p).isSome}.ncard = a.nQueries := by
  have hslots : ∀ i ∈ SlotTable.occupied a.queries maxQueries, ∃ p q,
      a.queries i = some p ∧ a.bare p = some q ∧ slotOf q.id = i := fun i hi => by
    obtain ⟨-, hsome⟩ := SlotTable.mem_occupied.mp hi
    obtain ⟨p, hp⟩ := Option.isSome_iff_exists.mp hsome
    obtain ⟨q, hq, hslot⟩ := h.slot_some i p hp
    exact ⟨p, q, hp, hq, hslot⟩
  have himage : {p | (a.heap p).isSome} =
      (fun i => (a.queries i).getD 0) '' SlotTable.occupied a.queries maxQueries := by
    ext p
    simp only [Set.mem_ofPred_eq, Set.mem_image, Finset.mem_coe]
    constructor
    · intro hp
      obtain ⟨q, hq⟩ := Option.isSome_iff_exists.mp hp
      have hslot := h.heap_some p q.bare (Asyncns.bare_of_heap hq)
      refine ⟨slotOf q.bare.id, SlotTable.mem_occupied.mpr ⟨slotOf_lt _, ?_⟩, ?_⟩
      · rw [hslot]
        rfl
      · rw [hslot]
        rfl
    · rintro ⟨i, hi, rfl⟩
      obtain ⟨p, b, hp, hb, -⟩ := hslots i hi
      obtain ⟨q, hq, -⟩ := Asyncns.exists_heap_of_bare hb
      rw [hp, Option.getD_some, hq]
      rfl
  have hinj : Set.InjOn (fun i => (a.queries i).getD 0)
      (SlotTable.occupied a.queries maxQueries) := by
    intro i hi j hj hij
    obtain ⟨p, b, hp, hb, hbi⟩ := hslots i hi
    obtain ⟨r, c, hr, hc, hcj⟩ := hslots j hj
    simp only [hp, hr, Option.getD_some] at hij
    rw [hij, hc, Option.some.injEq] at hb
    rw [← hbi, ← hcj, hb]
  rw [himage, hinj.ncard_image, Set.ncard_coe_finset, h.count]

/-! ## Runs -/

variable {s s' : Net} {capacity : Nat} {label : Label}

/-- The client has ended, or its context is in order. -/
def Sound (s : Net) : Prop := s.aborted = true ∨ s.client.InOrder

theorem Sound.setClient {c : Option Asyncns} (h : ∀ b, c = some b → b.InOrder) :
    Sound (s.setClient c) := by
  cases c with
  | none => exact Or.inl rfl
  | some b => exact Or.inr (h b rfl)

theorem Sound.of_client (h : Sound s) (hclient : s'.client = s.client)
    (haborted : s'.aborted = s.aborted) : Sound s' := by
  rw [Sound, hclient, haborted]
  exact h

theorem sound_clientStep (h : s.client.InOrder) (hstep : s.clientStep capacity label = some s') :
    Sound s' := by
  obtain ⟨done, hwf, hblank⟩ := h
  cases label with
  | submit call malloc send =>
      simp only [Net.clientStep, Option.ite_none_right_eq_some] at hstep
      obtain ⟨halloc, hstep⟩ := hstep
      have hfresh : ∀ p, malloc = some p → s.client.bare p = none := by
        rintro p rfl
        exact Asyncns.bare_eq_none.mpr (by simpa [Net.canAlloc] using halloc)
      unfold Net.submit at hstep
      split at hstep
      · exact Or.inl (Option.some.inj hstep ▸ rfl)
      · next q b hsubmit =>
          obtain rfl := Option.some.inj hstep
          exact Or.inr (hwf.asyncnsSubmit hblank hfresh (r := (q, none)) hsubmit)
      · next q request b hsubmit =>
          simp only [Option.ite_none_right_eq_some, Option.some.injEq] at hstep
          obtain ⟨-, rfl⟩ := hstep
          exact Or.inr (hwf.asyncnsSubmit hblank hfresh (r := (q, some request)) hsubmit)
  | receive malloc =>
      simp only [Net.clientStep, Net.receive, Option.ite_none_left_eq_some] at hstep
      obtain ⟨-, hstep⟩ := hstep
      split at hstep
      · cases hstep
      · obtain rfl := Option.some.inj hstep
        exact Sound.of_client (Sound.setClient fun b hb => hwf.handleResponse hblank hb) rfl rfl
  | fetch f p =>
      simp only [Net.clientStep, Option.ite_none_left_eq_some, Option.some.injEq] at hstep
      obtain ⟨-, rfl⟩ := hstep
      refine Sound.setClient fun b hb => ?_
      obtain ⟨⟨answer, c⟩, hc, rfl⟩ := Option.map_eq_some_iff.mp hb
      exact hwf.asyncnsDone hblank hc
  | cancel p =>
      simp only [Net.clientStep, Option.ite_none_left_eq_some, Option.some.injEq] at hstep
      obtain ⟨hlive, rfl⟩ := hstep
      obtain ⟨q, hp⟩ := Option.ne_none_iff_exists'.mp (by simpa using hlive)
      refine Sound.setClient fun b hb => ?_
      rw [(hwf.cancel hp).1] at hb
      exact Option.some.inj hb ▸ ⟨_, (hwf.cancel hp).2, hblank.remove⟩
  | getnext => exact Or.inr (Option.some.inj hstep ▸ ⟨done, hwf, hblank⟩)
  | isdone p =>
      simp only [Net.clientStep, Option.ite_none_left_eq_some, Option.some.injEq] at hstep
      exact Or.inr (hstep.2 ▸ ⟨done, hwf, hblank⟩)
  | take w => cases hstep
  | reply w result send => cases hstep
  | leave w => cases hstep
  | announce w send => cases hstep
  | kill w => cases hstep

theorem sound_step (h : Sound s) (hstep : netStep capacity s label = some s') : Sound s' := by
  rcases netStep_frame hstep with ⟨halive, hclient⟩ | ⟨-, hclient, haborted, -⟩
  · rcases h with hdead | horder
    · rw [halive] at hdead
      cases hdead
    · exact sound_clientStep horder hclient
  · exact h.of_client hclient haborted

theorem sound_run {nProc : Nat} {labels : List Label}
    (hrun : Lts.exec (netStep capacity) (asyncnsNew nProc) labels = some s) : Sound s :=
  Lts.exec_preserves (fun _ _ _ h hstep => sound_step h hstep)
    (Or.inr ⟨[], Asyncns.Wf.empty, fun _ _ h => nomatch h⟩ : Sound (asyncnsNew nProc)) hrun

theorem inOrder_of_run {nProc : Nat} {labels : List Label}
    (hrun : Lts.exec (netStep capacity) (asyncnsNew nProc) labels = some s)
    (halive : s.aborted = false) : s.client.InOrder := by
  rcases sound_run hrun with haborted | horder
  · rw [halive] at haborted
    cases haborted
  · exact horder

/-! ## What holds of every run -/

/-- Following the links from either end of the list visits the queries that are
done, each of them once, and the count is the number of queries in memory. -/
theorem context_of_run {nProc : Nat} {labels : List Label}
    (hrun : Lts.exec (netStep capacity) (asyncnsNew nProc) labels = some s)
    (halive : s.aborted = false) :
    ∃ done, s.client.Wf done ∧ {p | (s.client.heap p).isSome}.ncard = asyncnsGetnqueries s.client ∧
      LinkedList.Chain s.client.links.next s.client.doneHead done ∧
      LinkedList.Chain s.client.links.prev s.client.doneTail done.reverse := by
  obtain ⟨done, hwf, -⟩ := inOrder_of_run hrun halive
  exact ⟨done, hwf, hwf.ncard_heap, hwf.links.chain, hwf.links.chain_prev⟩

/-- Three queries, the second of which is answered before the first. -/
def threeLookups : List Label :=
  [.submit (.resQuery (strndup [97] 1) 1 33) (some 7) true,
    .submit (.resSearch (strndup [98] 1) 1 33) (some 3) true,
    .submit (.getaddrinfo (some (strndup [99] 1)) none none) (some 5) true, .take 1, .take 0,
    .reply 0 (.res ⟨-1, 0, 1⟩ []) true, .reply 1 (.res ⟨2, 0, 0⟩ [1, 2]) true,
    .receive fun _ => true, .receive fun _ => true]

theorem context_of_run_threeLookups :
    ∃ s, Lts.exec (netStep 4) (asyncnsNew 2) threeLookups = some s ∧
      ∃ done, s.client.Wf done ∧
        {p | (s.client.heap p).isSome}.ncard = asyncnsGetnqueries s.client ∧
        LinkedList.Chain s.client.links.next s.client.doneHead done ∧
        LinkedList.Chain s.client.links.prev s.client.doneTail done.reverse := by
  have hsome : (Lts.exec (netStep 4) (asyncnsNew 2) threeLookups).map (·.aborted) = some false := by
    decide +kernel
  obtain ⟨s, hrun, halive⟩ := Option.map_eq_some_iff.mp hsome
  exact ⟨s, hrun, context_of_run hrun halive⟩

/-- `asyncns_free` gets through the table at any time, and no query is left. -/
theorem asyncnsFree_of_run {nProc : Nat} {labels : List Label}
    (hrun : Lts.exec (netStep capacity) (asyncnsNew nProc) labels = some s)
    (halive : s.aborted = false) :
    ∃ b, asyncnsFree s.client = some b ∧ (∀ p, b.heap p = none) ∧ b.nQueries = 0 ∧
      asyncnsGetnext b = none := by
  obtain ⟨done, hwf, -⟩ := inOrder_of_run hrun halive
  obtain ⟨b, hb, hwf', hheap, hcount⟩ := hwf.asyncnsFree
  exact ⟨b, hb, hheap, hcount, hwf'.links.head_eq⟩

theorem asyncnsFree_of_run_threeLookups :
    ∃ s, Lts.exec (netStep 4) (asyncnsNew 2) threeLookups = some s ∧
      ∃ b, asyncnsFree s.client = some b ∧ (∀ p, b.heap p = none) ∧ b.nQueries = 0 ∧
        asyncnsGetnext b = none := by
  have hsome : (Lts.exec (netStep 4) (asyncnsNew 2) threeLookups).map (·.aborted) = some false := by
    decide +kernel
  obtain ⟨s, hrun, halive⟩ := Option.map_eq_some_iff.mp hsome
  exact ⟨s, hrun, asyncnsFree_of_run hrun halive⟩

/-- The search of `alloc_query` ends. A submission is refused for one of five
reasons and nothing is to be seen of it, or there is a query more. Its slot is no
other query's, and the worker that gets the request makes the call that was
asked for, unless the address is too long for it. -/
theorem submit_of_run {nProc : Nat} {labels : List Label}
    (hrun : Lts.exec (netStep capacity) (asyncnsNew nProc) labels = some s)
    (halive : s.aborted = false) {call : Call} {malloc : Option Ptr} (send : Bool)
    (hvalid : call.valid = true) (hfresh : s.canAlloc malloc = true) :
    (Refused s.client call malloc send ∧
        ∃ b, asyncnsSubmit call malloc send s.client = some (none, none, b) ∧
          b.bare = s.client.bare) ∨
      (¬Refused s.client call malloc send ∧ ∃ p q d b, malloc = some p ∧
        asyncnsSubmit call malloc send s.client = some (some p, some d, b) ∧
        q.type = call.type ∧ q.done = false ∧
        b.bare = Function.update s.client.bare p (some q) ∧
        (∀ r q', s.client.bare r = some q' → slotOf q'.id ≠ slotOf q.id) ∧
        handleRequest (d.take recvSize) =
          if call.sockaddrFits then .calls q.id call.libc else .overruns) := by
  obtain ⟨done, hwf, -⟩ := inOrder_of_run hrun halive
  have hmalloc : ∀ p, malloc = some p → s.client.bare p = none := by
    rintro p rfl
    exact Asyncns.bare_eq_none.mpr (by simpa [Net.canAlloc] using hfresh)
  rcases hwf.submit send hvalid hmalloc with
    ⟨hrefused, b, hb, hbare, -, -⟩ | ⟨haccept, p, k, hp, -, hfree, hb⟩
  · exact Or.inl ⟨hrefused, b, hb, hbare⟩
  · have hlength : call.length ≤ bufsize := by
      rw [← Nat.not_lt]
      exact fun hlong => haccept (Or.inr (Or.inr (Or.inr (Or.inl hlong))))
    refine Or.inr ⟨haccept, p, { id := (s.client.advance k).currentId, type := call.type }, _, _,
      hp, hb, rfl, rfl, Asyncns.bare_insert call.type, fun r q' hr => ?_, ?_⟩
    · exact (hwf.advance k).id_ne hfree hr
    · rw [take_recvSize_bytes _ _ hlength, handleRequest_bytes _ _ hlength]

theorem submit_of_run_threeLookups :
    ∃ s, Lts.exec (netStep 4) (asyncnsNew 2) threeLookups = some s ∧
      ((Refused s.client (.getnameinfo [2, 0] 0 1 0) (some 8) true ∧
        ∃ b, asyncnsSubmit (.getnameinfo [2, 0] 0 1 0) (some 8) true s.client =
          some (none, none, b) ∧ b.bare = s.client.bare) ∨
      (¬Refused s.client (.getnameinfo [2, 0] 0 1 0) (some 8) true ∧ ∃ p q d b, some 8 = some p ∧
        asyncnsSubmit (.getnameinfo [2, 0] 0 1 0) (some 8) true s.client =
          some (some p, some d, b) ∧
        q.type = (Call.getnameinfo [2, 0] 0 1 0).type ∧ q.done = false ∧
        b.bare = Function.update s.client.bare p (some q) ∧
        (∀ r q', s.client.bare r = some q' → slotOf q'.id ≠ slotOf q.id) ∧
        handleRequest (d.take recvSize) =
          if (Call.getnameinfo [2, 0] 0 1 0).sockaddrFits then
            .calls q.id (Call.getnameinfo [2, 0] 0 1 0).libc
          else .overruns)) := by
  have hsome : (Lts.exec (netStep 4) (asyncnsNew 2) threeLookups).map
      (fun s => (s.aborted, s.canAlloc (some 8))) = some (false, true) := by
    decide +kernel
  obtain ⟨s, hrun, hs⟩ := Option.map_eq_some_iff.mp hsome
  obtain ⟨halive, hfresh⟩ := Prod.mk.inj hs
  exact ⟨s, hrun, submit_of_run hrun halive true (by decide) hfresh⟩

end LmTransport.Ref.Libasyncns
