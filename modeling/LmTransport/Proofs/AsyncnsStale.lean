import LmTransport.Proofs.AsyncnsLive

/-!
# An answer to somebody else

`asyncns_cancel` frees the slot of a query and does not move the cursor, which
stands at the slot of the query that was allocated last. When that query is
cancelled the next one gets its slot and its id too. The request of the first
is still under way, and to the client its response is the response to the second.

This is what `Fresh` keeps out of the refinement. Here it is followed to its end,
from any state in which the sockets are empty: the second query is done with the
result of the first call, or, when the calls are of different kinds, the client
fails an assertion.
-/

namespace LmTransport.Ref.Libasyncns

variable {a : Asyncns} {done : List Ptr} {p r : Ptr}

/-! ## Kinds of responses -/

/-- The two types have the same kind of response. -/
def QueryType.sameKind (type type' : QueryType) : Bool :=
  type = type' || ((type = .requestResQuery || type = .requestResSearch) &&
    (type' = .requestResQuery || type' = .requestResSearch))

/-- A response for a query of one type, received for a query of another. -/
theorem receiveResponse_of_kind {malloc : Nat → Bool} {d : List UInt8} {type : QueryType}
    {old outcome : Outcome} (h : receiveResponse malloc d type old = some (true, outcome))
    (type' : QueryType) :
    receiveResponse malloc d type' old =
      if type.sameKind type' then some (true, outcome) else none := by
  unfold receiveResponse at h ⊢
  split at h
  · simp only [Option.ite_none_right_eq_some] at h
    obtain ⟨⟨hsize, rfl⟩, h⟩ := h
    rw [← h]
    cases type' <;> simp [hsize, QueryType.sameKind]
  · simp only [Option.ite_none_right_eq_some] at h
    obtain ⟨⟨hsize, rfl⟩, h⟩ := h
    rw [← h]
    cases type' <;> simp [hsize, QueryType.sameKind]
  · simp only [Option.ite_none_right_eq_some] at h
    obtain ⟨⟨hsize, rfl | rfl⟩, h⟩ := h
    · rw [← h]
      cases type' <;> simp [hsize, QueryType.sameKind]
    · rw [← h]
      cases type' <;> simp [hsize, QueryType.sameKind]
  · simp at h

/-! ## The id of a query that was cancelled -/

/-- A query that is allocated and cancelled leaves a free slot under the cursor,
and room for another one. -/
theorem Asyncns.Wf.insert_remove (h : a.Wf done) {type : QueryType}
    (hfree : a.queries a.currentIndex = none) (hp : a.bare p = none) {b : Asyncns}
    (hb : asyncnsCancel p (a.insert p type) = some b) :
    b.Wf done ∧ b.bare = a.bare ∧ b.currentId = a.currentId ∧ b.nQueries = a.nQueries ∧
      b.dead = a.dead ∧ skipQueries maxQueries b = some b := by
  obtain ⟨hcancel, hwf⟩ := (h.insert type hfree hp).cancel
    (p := p) (q := { id := a.currentId, type }) (Function.update_self ..)
  obtain rfl := Option.some.inj (hcancel.symm.trans hb)
  have hout : p ∉ done := fun hmem => by
    obtain ⟨q, hq, -⟩ := (h.mem_done p).mp hmem
    simp [hq] at hp
  have hbare : (((a.insert p type).remove p { id := a.currentId, type }).bare) = a.bare := by
    rw [Asyncns.bare_remove, Asyncns.bare_insert, Function.update_idem]
    exact Function.update_eq_self_iff.mpr hp.symm
  refine ⟨List.erase_of_not_mem hout ▸ hwf, hbare, rfl, rfl, rfl, ?_⟩
  have hslot : ((a.insert p type).remove p { id := a.currentId, type }).queries
      ((a.insert p type).remove p { id := a.currentId, type }).currentIndex = none := by
    show Function.update (Function.update a.queries a.currentIndex (some p))
      (slotOf a.currentId) none a.currentIndex = none
    rw [h.cursor, Function.update_self]
  rw [show maxQueries = 255 + 1 from rfl, skipQueries, hslot]
  rfl

/-- A context that has nothing to refuse puts the query in the next free slot. -/
theorem accepts_of_wf (h : a.Wf done) {call : Call} (hvalid : call.valid = true)
    (hlength : call.length ≤ bufsize) (hdead : a.dead = false)
    (hroom : a.nQueries < maxQueries) (hp : a.bare p = none) :
    ∃ k, skipQueries maxQueries a = some (a.advance k) ∧
      a.queries (a.advance k).currentIndex = none ∧
      asyncnsSubmit call (some p) true a =
        some (some p, some (call.bytes (a.advance k).currentId),
          (a.advance k).insert p call.type) := by
  have hfresh : ∀ x, some p = some x → a.bare x = none := fun x hx => Option.some.inj hx ▸ hp
  rcases h.submit true hvalid hfresh with
    ⟨hrefused, -⟩ | ⟨-, p', k, hp', hskip, hfree, hsubmit⟩
  · rcases hrefused with hd | hfull | hnone | hlong | hfailed
    · rw [hdead] at hd
      cases hd
    · omega
    · cases hnone
    · omega
    · cases hfailed
  · obtain rfl := Option.some.inj hp'
    exact ⟨k, hskip, hfree, hsubmit⟩

/-- One query is submitted and cancelled, and the next one has its id. -/
structure Reused (done : List Ptr) (call other : Call) (p r : Ptr) (id : UInt32)
    (a b c d : Asyncns) : Prop where
  submit : asyncnsSubmit call (some p) true a = some (some p, some (call.bytes id), b)
  known : b.heap p = some { id, type := call.type }
  cancel : asyncnsCancel p b = some c
  unused : c.heap r = none
  resubmit : asyncnsSubmit other (some r) true c = some (some r, some (other.bytes id), d)
  blank : d.heap r = some { id, type := other.type }
  alive : d.dead = false
  wf : d.Wf done

theorem reused_of_wf (h : a.Wf done) {call other : Call} (hvalid : call.valid = true)
    (hlength : call.length ≤ bufsize) (hvalid' : other.valid = true)
    (hlength' : other.length ≤ bufsize) (hdead : a.dead = false)
    (hroom : a.nQueries < maxQueries) (hp : a.bare p = none) (hr : a.bare r = none) :
    ∃ id b c d, Reused done call other p r id a b c d := by
  obtain ⟨k, -, hfree, hsubmit⟩ := accepts_of_wf h hvalid hlength hdead hroom hp
  have hknown : ((a.advance k).insert p call.type).heap p =
      some { id := (a.advance k).currentId, type := call.type } := Function.update_self ..
  obtain ⟨hcancel, -⟩ := ((h.advance k).insert call.type hfree hp).cancel hknown
  obtain ⟨hwf, hbare, hid, hcount, hdead', hskip⟩ :=
    (h.advance k).insert_remove hfree hp hcancel
  -- `c` is the context without the first query, its cursor where the query was
  generalize hc : ((a.advance k).insert p call.type).remove p
    { id := (a.advance k).currentId, type := call.type } = c at *
  have hunused : c.bare r = none := by
    rw [hbare]
    exact hr
  have hroom' : c.nQueries < maxQueries := by
    rw [hcount]
    exact hroom
  obtain ⟨k', hskip', hfree', hresubmit⟩ :=
    accepts_of_wf hwf hvalid' hlength' (hdead'.trans hdead) hroom' hunused
  rw [hskip, Option.some.injEq] at hskip'
  rw [← hskip'] at hfree' hresubmit
  rw [hid] at hresubmit
  have hblank : (c.insert r other.type).heap r =
      some { id := (a.advance k).currentId, type := other.type } := by
    rw [← hid]
    exact Function.update_self ..
  exact ⟨_, _, c, _, hsubmit, hknown, hcancel, Asyncns.bare_eq_none.mp hunused, hresubmit,
    hblank, hdead'.trans hdead, hwf.insert other.type hfree' hunused⟩

/-- The response to a call, taken for the response to another query. -/
theorem handleResponse_foreign (h : a.Wf done) {id : UInt32} {type : QueryType}
    (hr : a.heap r = some { id, type }) {call : Call} {result : LibcResult} {d : List UInt8}
    (hreplies : RepliesTo id call result d) (malloc : Nat → Bool) :
    if call.type.sameKind type then
      ∃ b q, handleResponse malloc d a = some b ∧ b.bare r = some q ∧ q.type = type ∧
        q.done = true ∧ (Delivers call.libc result q.outcome ∨ RanOut call.libc result q.outcome)
    else handleResponse malloc d a = none := by
  obtain ⟨outcome, hreceive, hdelivers⟩ := hreplies.outcome malloc
  have hkind := receiveResponse_of_kind hreceive type
  by_cases hsame : call.type.sameKind type = true
  · rw [if_pos hsame] at hkind ⊢
    obtain ⟨hhandle, -, hbare⟩ := h.handleResponse_completes malloc hreplies.header
      hreplies.not_died hr hreplies.id_eq.symm rfl hkind
    exact ⟨_, _, hhandle, (congrFun hbare r).trans (Function.update_self ..), rfl, rfl, hdelivers⟩
  · -- the assertion of the branch the response takes
    rw [if_neg hsame] at hkind ⊢
    rw [handleResponse, hreplies.header, if_neg (by simp), if_neg hreplies.not_died,
      hreplies.id_eq, h.lookupQuery_eq_some hr]
    simp only [hkind]

/-! ## Single steps -/

section

variable {capacity : Nat} {s : Net} {w : Nat} {id : UInt32} {b : Asyncns}

theorem netStep_submit {call : Call} {send : Bool} {d : List UInt8} (halive : s.aborted = false)
    (hp : s.client.heap p = none)
    (hsubmit : asyncnsSubmit call (some p) send s.client = some (some p, some d, b))
    (hroom : s.requests.length < capacity) :
    netStep capacity s (.submit call (some p) send) =
      some { s with client := b, requests := s.requests ++ [d] } := by
  simp [netStep, halive, Net.clientStep, Net.canAlloc, hp, Net.submit, hsubmit, hroom,
    Net.setClient]

theorem netStep_cancel {q : Query} (halive : s.aborted = false) (hp : s.client.heap p = some q)
    (hcancel : asyncnsCancel p s.client = some b) :
    netStep capacity s (.cancel p) = some { s with client := b } := by
  simp [netStep, halive, Net.clientStep, hp, hcancel, Net.setClient]

theorem netStep_take {d : List UInt8} {rest : List (List UInt8)} {c : LibcCall}
    (hw : s.workers[w]? = some .waiting) (hrequests : s.requests = d :: rest)
    (hcalls : handleRequest (d.take recvSize) = .calls id c) :
    netStep capacity s (.take w) =
      some { s with requests := rest, workers := s.workers.set w (.working id c) } := by
  simp [netStep, Net.take, hw, hrequests, hcalls]

theorem netStep_reply {c : LibcCall} {result : LibcResult} {d : List UInt8}
    (hw : s.workers[w]? = some (.working id c)) (hfits : result.fits c = true)
    (hd : sendReply id c result = some d) (hroom : s.responses.length < capacity) :
    netStep capacity s (.reply w result true) =
      some { s with responses := s.responses ++ [d], workers := s.workers.set w .waiting } := by
  simp [netStep, Net.reply, hw, hfits, hd, hroom]

theorem netStep_receive {malloc : Nat → Bool} {d : List UInt8} {rest : List (List UInt8)}
    (halive : s.aborted = false) (hdead : s.client.dead = false)
    (hresponses : s.responses = d :: rest) :
    netStep capacity s (.receive malloc) =
      some { s.setClient (handleResponse malloc (d.take recvSize) s.client) with
        responses := rest } := by
  simp [netStep, halive, Net.clientStep, Net.receive, hdead, hresponses]

end

/-! ## The run -/

/-- One query is cancelled and another one submitted before a worker takes the first
request. -/
def reuse (other : Call) (p r : Ptr) : List Label := [.cancel p, .submit other (some r) true]

/-- The worker answers the first request. -/
def answerFirst (w : Nat) (result : LibcResult) (malloc : Nat → Bool) : List Label :=
  [.take w, .reply w result true, .receive malloc]

theorem Reused.exec_reuse {capacity : Nat} {call other : Call} {id : UInt32} {a b c d : Asyncns}
    (h : Reused done call other p r id a b c d) (hcapacity : 2 ≤ capacity)
    {workers : List Worker} :
    Lts.exec (netStep capacity) { client := b, workers, requests := [call.bytes id] }
        (reuse other p r) =
      some { client := d, workers, requests := [call.bytes id, other.bytes id] } := by
  rw [reuse, Lts.exec_cons_of_step (netStep_cancel rfl h.known h.cancel),
    Lts.exec_cons_of_step (netStep_submit rfl h.unused h.resubmit (by simp; omega))]
  rfl

theorem Reused.exec_answerFirst {capacity : Nat} {call other : Call} {id : UInt32}
    {a b c d : Asyncns} (h : Reused done call other p r id a b c d) (hcapacity : 2 ≤ capacity)
    {workers : List Worker} {w : Nat} (hw : workers[w]? = some .waiting)
    (hlength : call.length ≤ bufsize) (hsockaddr : call.sockaddrFits = true)
    {result : LibcResult} (hfits : result.fits call.libc = true) (hshort : result.short = true)
    {response : List UInt8} (hresponse : sendReply id call.libc result = some response)
    (malloc : Nat → Bool) :
    Lts.exec (netStep capacity)
        { client := d, workers, requests := [call.bytes id, other.bytes id] }
        (answerFirst w result malloc) =
      some (Net.setClient { client := d, workers, requests := [other.bytes id] }
        (handleResponse malloc response d)) := by
  have htake := handleRequest_bytes id call hlength
  rw [if_pos hsockaddr, ← take_recvSize_bytes id call hlength] at htake
  have hcut : response.take recvSize = response :=
    List.take_of_length_le (length_sendReply_le id hfits hshort hresponse)
  obtain ⟨hbound, hwaiting⟩ := List.getElem?_eq_some_iff.mp hw
  have hworking : (workers.set w (.working id call.libc))[w]? = some (.working id call.libc) :=
    List.getElem?_set_self hbound
  have hback : (workers.set w (.working id call.libc)).set w .waiting = workers := by
    rw [List.set_set, ← hwaiting, List.set_getElem_self]
  rw [answerFirst, Lts.exec_cons_of_step (netStep_take hw rfl htake),
    Lts.exec_cons_of_step (netStep_reply hworking hfits hresponse (by simp; omega)),
    Lts.exec_cons_of_step (netStep_receive rfl h.alive rfl), hcut, hback]
  cases handleResponse malloc response d with
  | none => rfl
  | some client => rfl

/-- The second query has the id of the first, and is done with the result of the
first call, whatever the calls and the result are. -/
theorem stale_answer {capacity nProc : Nat} {labels : List Label} {s : Net}
    (hrun : Lts.exec (netStep capacity) (asyncnsNew nProc) labels = some s)
    (halive : s.aborted = false) (hdead : s.client.dead = false)
    (hroom : s.client.nQueries < maxQueries) (hrequests : s.requests = [])
    (hresponses : s.responses = []) {w : Nat} (hw : s.workers[w]? = some .waiting)
    (hcapacity : 2 ≤ capacity) (call other : Call) (hvalid : call.valid = true)
    (hlength : call.length ≤ bufsize) (hsockaddr : call.sockaddrFits = true)
    (hvalid' : other.valid = true) (hlength' : other.length ≤ bufsize)
    (hp : s.client.heap p = none) (hr : s.client.heap r = none) {result : LibcResult}
    (hfits : result.fits call.libc = true) (hshort : result.short = true)
    (hsent : ∀ id, sendReply id call.libc result ≠ none) (malloc : Nat → Bool) :
    ∃ id v v' u, netStep capacity s (.submit call (some p) true) = some v ∧
      v.client.heap p = some { id, type := call.type } ∧
      Lts.exec (netStep capacity) v (reuse other p r) = some v' ∧
      v'.client.heap r = some { id, type := other.type } ∧
      Lts.exec (netStep capacity) v' (answerFirst w result malloc) = some u ∧
      if call.type.sameKind other.type then
        u.aborted = false ∧ ∃ q, u.client.bare r = some q ∧ q.type = other.type ∧ q.done = true ∧
          (Delivers call.libc result q.outcome ∨ RanOut call.libc result q.outcome)
      else u.aborted = true := by
  obtain ⟨done, hwf, -⟩ := inOrder_of_run hrun halive
  cases s with
  | mk a workers requests responses aborted =>
  simp only at halive hdead hroom hrequests hresponses hw hp hr hwf
  subst halive hrequests hresponses
  obtain ⟨id, b, c, d, hreused⟩ := reused_of_wf hwf hvalid hlength hvalid' hlength' hdead hroom
    (Asyncns.bare_eq_none.mpr hp) (Asyncns.bare_eq_none.mpr hr)
  obtain ⟨response, hresponse⟩ := Option.ne_none_iff_exists'.mp (hsent id)
  refine ⟨id, _, _, _, netStep_submit rfl hp hreused.submit (by simp; omega), hreused.known,
    hreused.exec_reuse hcapacity, hreused.blank,
    hreused.exec_answerFirst hcapacity hw hlength hsockaddr hfits hshort hresponse malloc, ?_⟩
  have hforeign := handleResponse_foreign hreused.wf hreused.blank
    (repliesTo_of_sendReply id call result hfits hresponse) malloc
  by_cases hsame : call.type.sameKind other.type = true
  · rw [if_pos hsame] at hforeign ⊢
    obtain ⟨e, q, hhandle, hq⟩ := hforeign
    rw [hhandle]
    exact ⟨rfl, q, hq⟩
  · rw [if_neg hsame] at hforeign ⊢
    rw [hforeign]
    rfl

theorem stale_answer_twoQueries :
    ∃ id v v' u,
      netStep 2 (asyncnsNew 1) (.submit (.resQuery (strndup [97] 1) 1 33) (some 7) true) =
        some v ∧
      v.client.heap 7 = some { id, type := .requestResQuery } ∧
      Lts.exec (netStep 2) v (reuse (.resSearch (strndup [98] 1) 1 1) 7 8) = some v' ∧
      v'.client.heap 8 = some { id, type := .requestResSearch } ∧
      Lts.exec (netStep 2) v' (answerFirst 0 (.res ⟨2, 0, 0⟩ [1, 2]) fun _ => true) = some u ∧
      if QueryType.sameKind .requestResQuery .requestResSearch then
        u.aborted = false ∧ ∃ q, u.client.bare 8 = some q ∧ q.type = .requestResSearch ∧
          q.done = true ∧
          (Delivers (.resQuery (strndup [97] 1) 1 33) (.res ⟨2, 0, 0⟩ [1, 2]) q.outcome ∨
            RanOut (.resQuery (strndup [97] 1) 1 33) (.res ⟨2, 0, 0⟩ [1, 2]) q.outcome)
      else u.aborted = true := by
  have hsent : ∀ id, sendReply id (Call.resQuery (strndup [97] 1) 1 33).libc
      (.res ⟨2, 0, 0⟩ [1, 2]) ≠ none := fun id => by
    rw [Call.libc, sendReply, sendResReply_eq id _ _ (by decide), if_neg (by decide)]
    simp
  have hrun : Lts.exec (netStep 2) (asyncnsNew 1) [] = some (asyncnsNew 1) := rfl
  exact stale_answer (w := 0) hrun rfl rfl (by decide) rfl rfl rfl (by decide)
    (.resQuery (strndup [97] 1) 1 33) (.resSearch (strndup [98] 1) 1 1) rfl (by decide) rfl rfl
    (by decide) rfl rfl rfl rfl hsent fun _ => true

end LmTransport.Ref.Libasyncns
