import LmTransport.Proofs.AsyncnsCalls
import LmTransport.Proofs.AsyncnsReplies

/-!
# What is on its way

Between the submission of a call and the end of its query there is one thing in
the net that belongs to the id of the query: the request, then the worker that works on
it, then the response. `inFlight` counts them, and every step of a worker moves
one of them, or loses it.

`Carries` says what each of them is: a request is the request for some call, a
worker works on the call the client meant, a response is a reply to it. Which call
an id stands for is left open, as a relation between ids and calls.
-/

namespace LmTransport.Ref.Libasyncns

/-! ## Counting -/

def forRequest (id : UInt32) (d : List UInt8) : Bool := (rheader.read d).id = id

def forWorker (id : UInt32) : Worker → Bool
  | .working i _ => i = id
  | _ => false

/-- `RESPONSE_DIED` is for no query, whatever its id is. -/
def forResponse (id : UInt32) (d : List UInt8) : Bool :=
  QueryType.ofCode (rheader.read d).type ≠ some .responseDied && (rheader.read d).id = id

/-- How many requests, workers and responses there are for an id. -/
def Net.inFlight (s : Net) (id : UInt32) : Nat :=
  s.requests.countP (forRequest id) + s.workers.countP (forWorker id) +
    s.responses.countP (forResponse id)

theorem forResponse_diedBytes (id : UInt32) : forResponse id diedBytes = false := by
  rw [forResponse, show QueryType.ofCode (rheader.read diedBytes).type = some .responseDied by
    decide]
  rfl

/-- An entry of a list is replaced. -/
theorem countP_set_add {α : Type*} {f : α → Bool} {l : List α} {i : Nat} {x y : α}
    (hi : l[i]? = some x) :
    (l.set i y).countP f + (if f x then 1 else 0) = l.countP f + if f y then 1 else 0 := by
  obtain ⟨hlt, rfl⟩ := List.getElem?_eq_some_iff.mp hi
  rw [List.countP_set hlt]
  have hpos : f l[i] = true → 0 < l.countP f := fun hx =>
    List.countP_pos_iff.mpr ⟨l[i], List.getElem_mem hlt, hx⟩
  split
  · next hx =>
      have := hpos hx
      omega
  · omega

variable {s s' : Net} {w : Nat} {id : UInt32} {capacity : Nat}

/-! ## The steps of a worker

A worker takes a request, or its result or its end changes what it is. Each of the
lemmas says where the datagrams and the worker are afterwards. -/

theorem take_cases (h : s.take w = some s') :
    ∃ d rest worker, s.workers[w]? = some .waiting ∧ s.requests = d :: rest ∧
      s' = { s with requests := rest, workers := s.workers.set w worker } ∧
      worker =
        match handleRequest (d.take recvSize) with
        | .aborts | .overruns => .gone
        | .ignores => .waiting
        | .terminates => .leaving
        | .calls id call => .working id call := by
  unfold Net.take at h
  split at h
  · next d rest hw hrequests =>
      exact ⟨d, rest, _, hw, hrequests, (Option.some.inj h).symm, rfl⟩
  · cases h

/-- After the C library: the worker is lost, or it goes on without having
replied, or the reply is behind the other responses. -/
theorem reply_cases {result : LibcResult} {send : Bool}
    (h : s.reply capacity w result send = some s') :
    ∃ id call, s.workers[w]? = some (.working id call) ∧ result.fits call = true ∧
      ((sendReply id call result = none ∧ s' = { s with workers := s.workers.set w .gone }) ∨
        (send = false ∧ s' = { s with workers := s.workers.set w .leaving }) ∨
        ∃ d, send = true ∧ sendReply id call result = some d ∧ s.responses.length < capacity ∧
          s' = { s with
                 responses := s.responses ++ [d], workers := s.workers.set w .waiting }) := by
  unfold Net.reply at h
  split at h
  · next id call hw =>
      refine ⟨id, call, hw, ?_⟩
      split at h
      · cases h
      · next hfits =>
          refine ⟨by simpa using hfits, ?_⟩
          split at h
          · next hnone => exact Or.inl ⟨hnone, (Option.some.inj h).symm⟩
          · next d hd =>
              split at h
              · next hsend => exact Or.inr (Or.inl ⟨by simpa using hsend, (Option.some.inj h).symm⟩)
              · next hsend =>
                  split at h
                  · next hroom =>
                      exact Or.inr (Or.inr ⟨d, by simpa using hsend, hd, hroom,
                        (Option.some.inj h).symm⟩)
                  · cases h
  · cases h

/-- A worker that ends takes nothing along but the request it works on, and
leaves nothing behind but the word that it died. -/
theorem workerEnds_cases {label : Label} (h : s.workerEnds capacity label = some s') :
    ∃ w x y, s.workers[w]? = some x ∧ (y = .leaving ∨ y = .gone) ∧
      s'.workers = s.workers.set w y ∧ s'.requests = s.requests ∧ s'.client = s.client ∧
      s'.aborted = s.aborted ∧
      (s'.responses = s.responses ∨ s'.responses = s.responses ++ [diedBytes]) := by
  cases label with
  | leave w =>
      simp only [Net.workerEnds, Option.ite_none_right_eq_some, Option.some.injEq] at h
      obtain ⟨hw, rfl⟩ := h
      exact ⟨w, _, _, hw, Or.inl rfl, rfl, rfl, rfl, rfl, Or.inl rfl⟩
  | announce w send =>
      simp only [Net.workerEnds, Option.ite_none_right_eq_some] at h
      obtain ⟨hw, h⟩ := h
      split at h
      · obtain rfl := Option.some.inj h
        exact ⟨w, _, _, hw, Or.inr rfl, rfl, rfl, rfl, rfl, Or.inl rfl⟩
      · split at h
        · obtain rfl := Option.some.inj h
          exact ⟨w, _, _, hw, Or.inr rfl, rfl, rfl, rfl, rfl, Or.inr rfl⟩
        · cases h
  | kill w =>
      simp only [Net.workerEnds, Option.ite_none_right_eq_some, Option.some.injEq] at h
      obtain ⟨hw, rfl⟩ := h
      exact ⟨w, _, _, List.getElem?_eq_getElem hw, Or.inr rfl, rfl, rfl, rfl, rfl, Or.inl rfl⟩
  | _ => cases h

/-- A step is one of the client, which is alive, or one of the three kinds of steps of a
worker. -/
theorem netStep_cases {label : Label} (h : netStep capacity s label = some s') :
    (s.aborted = false ∧ s.clientStep capacity label = some s') ∨
      (∃ w, label = .take w ∧ s.take w = some s') ∨
      (∃ w result send, label = .reply w result send ∧
        s.reply capacity w result send = some s') ∨
      s.workerEnds capacity label = some s' := by
  have hclient : (if s.aborted then none else s.clientStep capacity label) = some s' →
      s.aborted = false ∧ s.clientStep capacity label = some s' := by
    simp only [Option.ite_none_left_eq_some, Bool.not_eq_true, imp_self]
  cases label with
  | take w => exact Or.inr (Or.inl ⟨w, rfl, h⟩)
  | reply w result send => exact Or.inr (Or.inr (Or.inl ⟨w, result, send, rfl, h⟩))
  | leave w | announce w send | kill w => exact Or.inr (Or.inr (Or.inr h))
  | submit call malloc send => exact Or.inl (hclient h)
  | receive malloc => exact Or.inl (hclient h)
  | fetch f p => exact Or.inl (hclient h)
  | cancel p => exact Or.inl (hclient h)
  | getnext => exact Or.inl (hclient h)
  | isdone p => exact Or.inl (hclient h)

theorem workerEnds_silent {label : Label} (h : s.workerEnds capacity label = some s') :
    netEvents s label = [] := by
  cases label with
  | leave w | announce w send | kill w => rfl
  | _ => cases h

/-- A step of a worker changes that worker, leaves the client as it is and is not seen. -/
theorem netStep_frame {label : Label} (h : netStep capacity s label = some s') :
    (s.aborted = false ∧ s.clientStep capacity label = some s') ∨
      (∃ w x, s'.workers = s.workers.set w x) ∧ s'.client = s.client ∧
        s'.aborted = s.aborted ∧ netEvents s label = [] := by
  rcases netStep_cases h with hclient | ⟨w, rfl, htake⟩ | ⟨w, result, send, rfl, hreply⟩ | hends
  · exact Or.inl hclient
  · obtain ⟨-, -, x, -, -, rfl, -⟩ := take_cases htake
    exact Or.inr ⟨⟨w, x, rfl⟩, rfl, rfl, rfl⟩
  · obtain ⟨-, -, -, -, ⟨-, rfl⟩ | ⟨-, rfl⟩ | ⟨-, -, -, -, rfl⟩⟩ := reply_cases hreply
    · exact Or.inr ⟨⟨w, _, rfl⟩, rfl, rfl, rfl⟩
    · exact Or.inr ⟨⟨w, _, rfl⟩, rfl, rfl, rfl⟩
    · exact Or.inr ⟨⟨w, _, rfl⟩, rfl, rfl, rfl⟩
  · obtain ⟨w, -, x, -, -, hworkers, -, hclient, haborted, -⟩ := workerEnds_cases hends
    exact Or.inr ⟨⟨w, x, hworkers⟩, hclient, haborted, workerEnds_silent hends⟩

/-! ## What is carried -/

/-- Everything on its way is for a call that its id stands for. -/
structure Net.Carries (libc : LibcCall → LibcResult → Prop) (s : Net)
    (owes : UInt32 → Call → Prop) : Prop where
  requests : ∀ d ∈ s.requests, ∃ id call, d = call.bytes id ∧ call.length ≤ bufsize ∧
    call.sockaddrFits = true ∧ owes id call
  workers : ∀ id c, Worker.working id c ∈ s.workers → ∃ call, c = call.libc ∧ owes id call
  responses : ∀ d ∈ s.responses, d = diedBytes ∨ ∃ id call result,
    RepliesTo id call result d ∧ d.length ≤ recvSize ∧ libc call.libc result ∧ owes id call

variable {libc : LibcCall → LibcResult → Prop} {owes owes' : UInt32 → Call → Prop}

theorem Net.inFlight_pos_of_request (h : Call.bytes id call ∈ s.requests) : 0 < s.inFlight id := by
  have hpos : 0 < s.requests.countP (forRequest id) :=
    List.countP_pos_iff.mpr ⟨_, h, by simp [forRequest, Call.id_bytes]⟩
  rw [inFlight]
  omega

theorem Net.inFlight_pos_of_worker {c : LibcCall} (h : Worker.working id c ∈ s.workers) :
    0 < s.inFlight id := by
  have hpos : 0 < s.workers.countP (forWorker id) :=
    List.countP_pos_iff.mpr ⟨_, h, by simp [forWorker]⟩
  rw [inFlight]
  omega

theorem RepliesTo.forResponse {call : Call} {result : LibcResult} {d : List UInt8}
    (h : RepliesTo id call result d) (i : UInt32) : forResponse i d = decide (id = i) := by
  simp [Libasyncns.forResponse, h.not_died, h.id_eq]

theorem Net.inFlight_pos_of_response {call : Call} {result : LibcResult} {d : List UInt8}
    (hd : d ∈ s.responses) (h : RepliesTo id call result d) : 0 < s.inFlight id := by
  have hpos : 0 < s.responses.countP (Libasyncns.forResponse id) :=
    List.countP_pos_iff.mpr ⟨d, hd, by simp [h.forResponse]⟩
  rw [inFlight]
  omega

/-- The ids may come to stand for other calls, as long as those in flight do
not. -/
theorem Net.Carries.mono (h : s.Carries libc owes)
    (howes : ∀ id call, 0 < s.inFlight id → owes id call → owes' id call) :
    s.Carries libc owes' where
  requests d hd := by
    obtain ⟨id, call, rfl, hlength, hfits, ho⟩ := h.requests d hd
    exact ⟨id, call, rfl, hlength, hfits, howes id call (Net.inFlight_pos_of_request hd) ho⟩
  workers id c hw := by
    obtain ⟨call, rfl, ho⟩ := h.workers id c hw
    exact ⟨call, rfl, howes id call (Net.inFlight_pos_of_worker hw) ho⟩
  responses d hd := by
    rcases h.responses d hd with hdied | ⟨id, call, result, hreplies, hlength, hlibc, ho⟩
    · exact Or.inl hdied
    · exact Or.inr ⟨id, call, result, hreplies, hlength, hlibc,
        howes id call (Net.inFlight_pos_of_response hd hreplies) ho⟩

theorem Net.inFlight_submit (a : Asyncns) (id : UInt32) (call : Call) (i : UInt32) :
    Net.inFlight { s.setClient (some a) with requests := s.requests ++ [call.bytes id] } i =
      s.inFlight i + if id = i then 1 else 0 := by
  have hnew : forRequest i (call.bytes id) = decide (id = i) := by
    rw [forRequest, Call.id_bytes]
  rw [Net.inFlight, Net.inFlight, List.countP_append, List.countP_singleton, hnew]
  simp only [Net.setClient, decide_eq_true_eq]
  omega

/-- A worker that takes a request makes the call it is for. -/
theorem Net.Carries.take_eq (h : s.Carries libc owes) (hstep : s.take w = some s') :
    ∃ id call rest, s.workers[w]? = some .waiting ∧ s.requests = call.bytes id :: rest ∧
      owes id call ∧
      s' = { s with requests := rest, workers := s.workers.set w (.working id call.libc) } := by
  obtain ⟨d, rest, worker, hw, hrequests, hs', hworker⟩ := take_cases hstep
  obtain ⟨id, call, rfl, hlength, hfits, ho⟩ := h.requests d (by rw [hrequests]; simp)
  rw [take_recvSize_bytes id call hlength, handleRequest_bytes id call hlength, if_pos hfits]
    at hworker
  rw [hworker] at hs'
  exact ⟨id, call, rest, hw, hrequests, ho, hs'⟩

theorem Net.inFlight_take {call : Call} {rest : List (List UInt8)} {c : LibcCall}
    (hw : s.workers[w]? = some .waiting) (hrequests : s.requests = call.bytes id :: rest)
    (i : UInt32) :
    Net.inFlight { s with requests := rest, workers := s.workers.set w (.working id c) } i =
      s.inFlight i := by
  have hset := countP_set_add (f := forWorker i) (y := .working id c) hw
  have hcons : (call.bytes id :: rest).countP (forRequest i) =
      rest.countP (forRequest i) + if id = i then 1 else 0 := by
    rw [List.countP_cons]
    simp [forRequest, Call.id_bytes]
  simp only [forWorker, decide_eq_true_eq, Bool.false_eq_true, if_false] at hset
  rw [Net.inFlight, Net.inFlight, hrequests, hcons]
  simp only
  omega

/-- A request that is taken is in the hands of the worker. -/
theorem Net.Carries.take (h : s.Carries libc owes) (hstep : s.take w = some s') :
    s'.Carries libc owes ∧ (∀ id, s'.inFlight id = s.inFlight id) ∧ s'.client = s.client ∧
      s'.aborted = s.aborted := by
  obtain ⟨id, call, rest, hw, hrequests, ho, rfl⟩ := h.take_eq hstep
  refine ⟨⟨fun d hd => ?_, fun i c hc => ?_, h.responses⟩, Net.inFlight_take hw hrequests, rfl,
    rfl⟩
  · exact h.requests d (by rw [hrequests]; exact List.mem_cons_of_mem _ hd)
  · rcases List.mem_or_eq_of_mem_set hc with hold | hnew
    · exact h.workers i c hold
    · obtain ⟨rfl, rfl⟩ := Worker.working.inj hnew
      exact ⟨call, rfl, ho⟩

theorem Net.inFlight_reply {c : LibcCall} {d : List UInt8}
    (hw : s.workers[w]? = some (.working id c))
    (hfor : ∀ i, Libasyncns.forResponse i d = decide (id = i)) (i : UInt32) :
    Net.inFlight { s with
      responses := s.responses ++ [d], workers := s.workers.set w .waiting } i =
      s.inFlight i := by
  have hset := countP_set_add (f := forWorker i) (y := .waiting) hw
  simp only [forWorker, decide_eq_true_eq, Bool.false_eq_true, if_false] at hset
  rw [Net.inFlight, Net.inFlight]
  simp only [List.countP_append, List.countP_singleton, hfor, decide_eq_true_eq]
  omega

/-- A result is on its way back, or is lost with the worker. -/
theorem Net.Carries.reply (h : s.Carries libc owes) {result : LibcResult} {send : Bool}
    (hresult : ∀ id call, s.workers[w]? = some (.working id call) →
      libc call result ∧ result.short = true)
    (hstep : s.reply capacity w result send = some s') :
    s'.Carries libc owes ∧ (∀ id, s'.inFlight id ≤ s.inFlight id) ∧ s'.client = s.client ∧
      s'.aborted = s.aborted := by
  obtain ⟨id, c, hw, hfits, hcases⟩ := reply_cases hstep
  obtain ⟨hlibc, hshort⟩ := hresult id c hw
  obtain ⟨call, rfl, ho⟩ := h.workers id c (List.mem_of_getElem? hw)
  have hworkers : ∀ y, (∀ i c, y ≠ Worker.working i c) → ∀ i c,
      Worker.working i c ∈ s.workers.set w y → ∃ call, c = call.libc ∧ owes i call := by
    intro y hy i c hc
    rcases List.mem_or_eq_of_mem_set hc with hold | hnew
    · exact h.workers i c hold
    · exact absurd hnew.symm (hy i c)
  rcases hcases with ⟨-, rfl⟩ | ⟨-, rfl⟩ | ⟨d, -, hd, -, rfl⟩
  · refine ⟨⟨h.requests, hworkers _ (by simp), h.responses⟩, fun i => ?_, rfl, rfl⟩
    have hset := countP_set_add (f := forWorker i) (y := .gone) hw
    simp only [forWorker, Bool.false_eq_true, if_false] at hset
    rw [Net.inFlight, Net.inFlight]
    simp only
    omega
  · refine ⟨⟨h.requests, hworkers _ (by simp), h.responses⟩, fun i => ?_, rfl, rfl⟩
    have hset := countP_set_add (f := forWorker i) (y := .leaving) hw
    simp only [forWorker, Bool.false_eq_true, if_false] at hset
    rw [Net.inFlight, Net.inFlight]
    simp only
    omega
  · have hreplies := repliesTo_of_sendReply id call result hfits hd
    refine ⟨⟨h.requests, hworkers _ (by simp), fun e he => ?_⟩,
      fun i => Nat.le_of_eq (Net.inFlight_reply hw hreplies.forResponse i), rfl, rfl⟩
    rcases List.mem_append.mp he with hold | hnew
    · exact h.responses e hold
    · rw [List.mem_singleton] at hnew
      exact Or.inr ⟨id, call, result, hnew ▸ hreplies,
        hnew ▸ length_sendReply_le id hfits hshort hd, hlibc, ho⟩

/-- A worker that ends loses what it worked on. -/
theorem Net.Carries.workerEnds (h : s.Carries libc owes) {label : Label}
    (hstep : s.workerEnds capacity label = some s') :
    s'.Carries libc owes ∧ (∀ id, s'.inFlight id ≤ s.inFlight id) ∧ s'.client = s.client ∧
      s'.aborted = s.aborted := by
  obtain ⟨w, x, y, hw, hy, hworkers, hrequests, hclient, haborted, hresponses⟩ :=
    workerEnds_cases hstep
  have hforWorker : ∀ i, forWorker i y = false := fun i => by rcases hy with rfl | rfl <;> rfl
  refine ⟨⟨fun d hd => h.requests d (hrequests ▸ hd), fun i c hc => ?_, fun d hd => ?_⟩,
    fun i => ?_, hclient, haborted⟩
  · rw [hworkers] at hc
    rcases List.mem_or_eq_of_mem_set hc with hold | rfl
    · exact h.workers i c hold
    · rcases hy with hy | hy <;> cases hy
  · rcases hresponses with heq | heq
    · exact h.responses d (heq ▸ hd)
    · rw [heq, List.mem_append, List.mem_singleton] at hd
      rcases hd with hold | rfl
      · exact h.responses d hold
      · exact Or.inl rfl
  · have hset := countP_set_add (f := forWorker i) (y := y) hw
    rw [hforWorker] at hset
    have hcount : s'.responses.countP (forResponse i) = s.responses.countP (forResponse i) := by
      rcases hresponses with heq | heq
      · rw [heq]
      · rw [heq, List.countP_append, List.countP_singleton, forResponse_diedBytes]
        rfl
    rw [Net.inFlight, Net.inFlight, hrequests, hworkers, hcount]
    simp only [Bool.false_eq_true, if_false] at hset
    omega

end LmTransport.Ref.Libasyncns
