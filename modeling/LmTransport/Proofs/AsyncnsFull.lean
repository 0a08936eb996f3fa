import LmTransport.Proofs.AsyncnsLive

/-!
# Submitting without waiting

The client sends its requests on a socket that blocks. A worker that cannot send
its reply takes no further request, and the replies are only received in
`asyncns_wait`. So a user who submits without waiting gets through with as many
calls as both sockets hold at most, and one for each worker, whatever the workers
do: it is the same process that would have to receive.
-/

namespace LmTransport.Ref.Libasyncns

variable {s s' : Net} {capacity : Nat} {label : Label}

/-- A call that got a query. -/
def Event.accepted : Event → Bool
  | .submitted _ (some _) => true
  | _ => false

/-- A worker that is not waiting for a request. -/
def isBusy : Worker → Bool
  | .waiting => false
  | _ => true

/-- Where the calls are that were accepted so far: in one of the sockets, or with
a worker. -/
structure Crowded (capacity n : Nat) (s : Net) (accepted : Nat) : Prop where
  genuine : ∀ d ∈ s.requests, ∃ id call, d = Call.bytes id call ∧ call.length ≤ bufsize
  requests : s.requests.length ≤ capacity
  responses : s.responses.length ≤ capacity
  workers : s.workers.length = n
  accepted : accepted ≤ s.requests.length + s.responses.length + s.workers.countP isBusy

theorem Crowded.accepted_le {n k : Nat} (h : Crowded capacity n s k) : k ≤ 2 * capacity + n := by
  have hbusy : s.workers.countP isBusy ≤ s.workers.length := List.countP_le_length
  have hrequests := h.requests
  have hresponses := h.responses
  have haccepted := h.accepted
  rw [h.workers] at hbusy
  omega

/-- Only the sockets and the workers count. -/
theorem Crowded.frame {n k : Nat} (h : Crowded capacity n s k)
    (hrequests : s'.requests = s.requests)
    (hresponses : s'.responses = s.responses) (hworkers : s'.workers = s.workers) :
    Crowded capacity n s' k where
  genuine := hrequests ▸ h.genuine
  requests := hrequests ▸ h.requests
  responses := hresponses ▸ h.responses
  workers := hworkers ▸ h.workers
  accepted := by
    rw [hrequests, hresponses, hworkers]
    exact h.accepted

/-! ## Steps -/

/-- What `asyncns_getaddrinfo` and the like send. -/
theorem asyncnsSubmit_request {call : Call} {malloc : Option Ptr} {send : Bool} {a b : Asyncns}
    {p : Option Ptr} {d : List UInt8}
    (h : asyncnsSubmit call malloc send a = some (p, some d, b)) :
    ∃ id, d = call.bytes id ∧ call.length ≤ bufsize := by
  unfold asyncnsSubmit at h
  split at h
  · cases h
  · split at h
    · simp at h
    · split at h
      · cases h
      · simp at h
      · split at h
        · obtain ⟨c, -, hc⟩ := Option.map_eq_some_iff.mp h
          simp at hc
        · next hfits =>
            rw [not_or, Nat.not_lt] at hfits
            simp only [Option.some.injEq, Prod.mk.injEq] at h
            exact ⟨_, h.2.1.symm, hfits.1⟩

theorem asyncnsSubmit_unsent {call : Call} {malloc : Option Ptr} {send : Bool} {a b : Asyncns}
    {p : Option Ptr} (h : asyncnsSubmit call malloc send a = some (p, none, b)) : p = none := by
  unfold asyncnsSubmit at h
  split at h
  · cases h
  · split at h
    · simp only [Option.some.injEq, Prod.mk.injEq] at h
      exact h.1.symm
    · split at h
      · cases h
      · simp only [Option.some.injEq, Prod.mk.injEq] at h
        exact h.1.symm
      · split at h
        · obtain ⟨c, -, hc⟩ := Option.map_eq_some_iff.mp h
          simp only [Prod.mk.injEq] at hc
          exact hc.1.symm
        · simp at h

theorem Crowded.submit {n k : Nat} (h : Crowded capacity n s k) {call : Call}
    {malloc : Option Ptr} {send : Bool} (hstep : s.submit capacity call malloc send = some s') :
    Crowded capacity n s'
      (k + (netEvents s (.submit call malloc send)).countP Event.accepted) := by
  unfold Net.submit at hstep
  split at hstep
  · next hnone =>
      obtain rfl := Option.some.inj hstep
      rw [netEvents, hnone]
      exact h.frame rfl rfl rfl
  · next p b hsubmit =>
      obtain rfl := Option.some.inj hstep
      rw [netEvents, hsubmit]
      obtain rfl := asyncnsSubmit_unsent hsubmit
      exact h.frame rfl rfl rfl
  · next p d b hsubmit =>
      simp only [Option.ite_none_right_eq_some, Option.some.injEq] at hstep
      obtain ⟨hroom, rfl⟩ := hstep
      obtain ⟨id, rfl, hlength⟩ := asyncnsSubmit_request hsubmit
      have hone : (netEvents s (.submit call malloc send)).countP Event.accepted ≤ 1 := by
        refine Nat.le_trans List.countP_le_length ?_
        rw [netEvents, hsubmit]
        exact Nat.le_refl 1
      have haccepted := h.accepted
      refine ⟨fun e he => ?_, ?_, h.responses, h.workers, ?_⟩
      · rcases List.mem_append.mp he with hold | hnew
        · exact h.genuine e hold
        · exact ⟨id, call, List.mem_singleton.mp hnew, hlength⟩
      · simp only [List.length_append, List.length_singleton]
        omega
      · simp only [List.length_append, List.length_singleton]
        show _ ≤ _ + s.responses.length + s.workers.countP isBusy
        omega

/-- A step of the client that is neither a submission nor a turn of
`asyncns_wait`. -/
theorem clientStep_quiet (hsubmit : ∀ call malloc send, label ≠ .submit call malloc send)
    (hreceive : ∀ malloc, label ≠ .receive malloc)
    (hstep : s.clientStep capacity label = some s') :
    s'.requests = s.requests ∧ s'.responses = s.responses ∧ s'.workers = s.workers ∧
      (netEvents s label).countP Event.accepted = 0 := by
  have hset : ∀ c, (netEvents s label).countP Event.accepted = 0 →
      (s.setClient c).requests = s.requests ∧ (s.setClient c).responses = s.responses ∧
        (s.setClient c).workers = s.workers ∧
        (netEvents s label).countP Event.accepted = 0 := fun c hevents => by
    obtain ⟨hworkers, hrequests, hresponses⟩ := s.setClient_frame c
    exact ⟨hrequests, hresponses, hworkers, hevents⟩
  cases label with
  | submit call malloc send => exact absurd rfl (hsubmit call malloc send)
  | receive malloc => exact absurd rfl (hreceive malloc)
  | fetch f p =>
      simp only [Net.clientStep, Option.ite_none_left_eq_some, Option.some.injEq] at hstep
      refine hstep.2 ▸ hset _ ?_
      simp [netEvents, List.countP_eq_zero, Event.accepted]
  | cancel p =>
      simp only [Net.clientStep, Option.ite_none_left_eq_some, Option.some.injEq] at hstep
      exact hstep.2 ▸ hset _ rfl
  | getnext => exact Option.some.inj hstep ▸ ⟨rfl, rfl, rfl, rfl⟩
  | isdone p =>
      simp only [Net.clientStep, Option.ite_none_left_eq_some, Option.some.injEq] at hstep
      refine hstep.2 ▸ ⟨rfl, rfl, rfl, ?_⟩
      simp [netEvents, List.countP_eq_zero, Event.accepted]
  | take w => cases hstep
  | reply w result send => cases hstep
  | leave w => cases hstep
  | announce w send => cases hstep
  | kill w => cases hstep

theorem isBusy_set_le {w : Nat} {x : Worker} (hw : s.workers[w]? = some x) (y : Worker) :
    s.workers.countP isBusy ≤ (s.workers.set w y).countP isBusy + (if isBusy y then 0 else 1) := by
  have hset := countP_set_add (f := isBusy) (y := y) hw
  split
  · next hy =>
      rw [if_pos hy] at hset
      split at hset
      · omega
      · omega
  · next hy =>
      rw [if_neg hy] at hset
      split at hset
      · omega
      · omega

theorem Crowded.take {n k : Nat} (h : Crowded capacity n s k) {w : Nat}
    (hstep : s.take w = some s') : Crowded capacity n s' k := by
  obtain ⟨d, rest, worker, hw, hrequests, rfl, hworker⟩ := take_cases hstep
  obtain ⟨id, call, rfl, hlength⟩ := h.genuine d (by rw [hrequests]; simp)
  -- every request makes the worker busy, if only by ending it
  have hbusy : isBusy worker = true := by
    rw [hworker, take_recvSize_bytes id call hlength, handleRequest_bytes id call hlength]
    cases call.sockaddrFits <;> rfl
  have hset := countP_set_add (f := isBusy) (y := worker) hw
  rw [hbusy, if_pos rfl] at hset
  simp only [isBusy, Bool.false_eq_true, if_false] at hset
  have hold := h.requests
  have haccepted := h.accepted
  rw [hrequests, List.length_cons] at hold haccepted
  refine ⟨fun e he => h.genuine e ?_, by simp only; omega, h.responses, ?_, by simp only; omega⟩
  · rw [hrequests]
    exact List.mem_cons_of_mem _ he
  · rw [List.length_set]
    exact h.workers

theorem Crowded.reply {n k : Nat} (h : Crowded capacity n s k) {w : Nat} {result : LibcResult}
    {send : Bool} (hstep : s.reply capacity w result send = some s') :
    Crowded capacity n s' k := by
  have haccepted := h.accepted
  have hlength : ∀ y, (s.workers.set w y).length = n := fun y => by
    rw [List.length_set]
    exact h.workers
  obtain ⟨id, c, hw, -, ⟨-, rfl⟩ | ⟨-, rfl⟩ | ⟨d, -, -, hroom, rfl⟩⟩ := reply_cases hstep
  · have hset := isBusy_set_le hw .gone
    simp only [isBusy, if_true, Nat.add_zero] at hset
    exact ⟨h.genuine, h.requests, h.responses, hlength _, by simp only; omega⟩
  · have hset := isBusy_set_le hw .leaving
    simp only [isBusy, if_true, Nat.add_zero] at hset
    exact ⟨h.genuine, h.requests, h.responses, hlength _, by simp only; omega⟩
  · have hset := isBusy_set_le hw .waiting
    simp only [isBusy, Bool.false_eq_true, if_false] at hset
    refine ⟨h.genuine, h.requests, ?_, hlength _, ?_⟩
    · simp only [List.length_append, List.length_singleton]
      omega
    · simp only [List.length_append, List.length_singleton]
      omega

theorem workerEnds_room (hstep : s.workerEnds capacity label = some s')
    (h : s.responses.length ≤ capacity) : s'.responses.length ≤ capacity := by
  cases label with
  | leave w =>
      simp only [Net.workerEnds, Option.ite_none_right_eq_some, Option.some.injEq] at hstep
      obtain ⟨-, rfl⟩ := hstep
      exact h
  | announce w send =>
      simp only [Net.workerEnds, Option.ite_none_right_eq_some] at hstep
      obtain ⟨-, hstep⟩ := hstep
      split at hstep
      · exact Option.some.inj hstep ▸ h
      · split at hstep
        · next hroom =>
            obtain rfl := Option.some.inj hstep
            simp only [List.length_append, List.length_singleton]
            omega
        · cases hstep
  | kill w =>
      simp only [Net.workerEnds, Option.ite_none_right_eq_some, Option.some.injEq] at hstep
      obtain ⟨-, rfl⟩ := hstep
      exact h
  | _ => cases hstep

theorem Crowded.workerEnds {n k : Nat} (h : Crowded capacity n s k)
    (hstep : s.workerEnds capacity label = some s') : Crowded capacity n s' k := by
  have hroom := workerEnds_room hstep h.responses
  obtain ⟨w, x, y, hw, hy, hworkers, hrequests, -, -, hresponses⟩ := workerEnds_cases hstep
  have hbusy : isBusy y = true := by
    rcases hy with rfl | rfl
    · rfl
    · rfl
  have hset := isBusy_set_le hw y
  have haccepted := h.accepted
  rw [hbusy, if_pos rfl] at hset
  have hlonger : s.responses.length ≤ s'.responses.length := by
    rcases hresponses with heq | heq
    · rw [heq]
    · rw [heq, List.length_append]
      omega
  refine ⟨hrequests ▸ h.genuine, hrequests ▸ h.requests, hroom, ?_, ?_⟩
  · rw [hworkers, List.length_set]
    exact h.workers
  · rw [hworkers, hrequests]
    omega

theorem Crowded.step {n k : Nat} (h : Crowded capacity n s k)
    (hreceive : ∀ malloc, label ≠ .receive malloc)
    (hstep : netStep capacity s label = some s') :
    Crowded capacity n s' (k + (netEvents s label).countP Event.accepted) := by
  rcases netStep_cases hstep with
    ⟨-, hclient⟩ | ⟨w, rfl, htake⟩ | ⟨w, result, send, rfl, hreply⟩ | hends
  · by_cases hsubmit : ∃ call malloc send, label = .submit call malloc send
    · obtain ⟨call, malloc, send, rfl⟩ := hsubmit
      simp only [Net.clientStep, Option.ite_none_right_eq_some] at hclient
      exact h.submit hclient.2
    · obtain ⟨hrequests, hresponses, hworkers, hevents⟩ := clientStep_quiet
        (fun call malloc send hlabel => hsubmit ⟨call, malloc, send, hlabel⟩) hreceive hclient
      rw [hevents]
      exact h.frame hrequests hresponses hworkers
  · exact h.take htake
  · exact h.reply hreply
  · rw [workerEnds_silent hends]
    exact h.workerEnds hends

/-! ## Runs -/

theorem Crowded.run {n k : Nat} {u : Net} {labels : List Label} (h : Crowded capacity n s k)
    (hreceive : ∀ malloc, .receive malloc ∉ labels)
    (hrun : Lts.exec (netStep capacity) s labels = some u) :
    Crowded capacity n u
      (k + (Lts.trace (netStep capacity) netEvents s labels).countP Event.accepted) := by
  induction labels generalizing s k with
  | nil =>
      rw [Lts.exec_nil, Option.some.injEq] at hrun
      exact hrun ▸ h
  | cons label labels ih =>
      obtain ⟨v, hv, hrest⟩ := Lts.exec_cons_some hrun
      have hstep := h.step (fun malloc heq => hreceive malloc (heq ▸ List.mem_cons_self ..)) hv
      have hlater := ih hstep (fun malloc hmem => hreceive malloc (List.mem_cons_of_mem _ hmem))
        hrest
      rwa [Lts.trace_cons_of_step hv, List.countP_append, ← Nat.add_assoc]

theorem crowded_new (capacity nProc : Nat) :
    Crowded capacity (min nProc maxWorkers) (asyncnsNew nProc) 0 where
  genuine _ hd := absurd hd List.not_mem_nil
  requests := Nat.zero_le _
  responses := Nat.zero_le _
  workers := List.length_replicate
  accepted := Nat.zero_le _

/-- Without `asyncns_wait` no more calls are accepted than the two sockets hold,
and one for each worker, however the workers are scheduled and whatever the
results are. -/
theorem accepted_without_wait {capacity nProc : Nat} {labels : List Label}
    (hreceive : ∀ malloc, .receive malloc ∉ labels)
    (hrun : Lts.exec (netStep capacity) (asyncnsNew nProc) labels = some s) :
    (Lts.trace (netStep capacity) netEvents (asyncnsNew nProc) labels).countP Event.accepted ≤
      2 * capacity + min nProc maxWorkers := by
  have hcrowded := (crowded_new capacity nProc).run hreceive hrun
  rw [Nat.zero_add] at hcrowded
  exact hcrowded.accepted_le

/-- Three calls get through to one worker over sockets of one datagram each. -/
def oneWorkerFull : List Label :=
  [.submit (.resQuery (strndup [97] 1) 1 33) (some 7) true, .take 0,
    .submit (.resQuery (strndup [98] 1) 1 33) (some 8) true,
    .reply 0 (.res ⟨2, 0, 0⟩ [1, 2]) true, .take 0,
    .submit (.resQuery (strndup [99] 1) 1 33) (some 9) true]

theorem accepted_without_wait_oneWorkerFull :
    ∃ s, Lts.exec (netStep 1) (asyncnsNew 1) oneWorkerFull = some s ∧
      (Lts.trace (netStep 1) netEvents (asyncnsNew 1) oneWorkerFull).countP Event.accepted ≤
        2 * 1 + min 1 maxWorkers := by
  have hsome : (Lts.exec (netStep 1) (asyncnsNew 1) oneWorkerFull).isSome := by decide +kernel
  obtain ⟨s, hrun⟩ := Option.isSome_iff_exists.mp hsome
  exact ⟨s, hrun, accepted_without_wait (by simp [oneWorkerFull]) hrun⟩

/-- They are as many as there can be. -/
example : (Lts.trace (netStep 1) netEvents (asyncnsNew 1) oneWorkerFull).countP Event.accepted =
    2 * 1 + min 1 maxWorkers := by decide +kernel

end LmTransport.Ref.Libasyncns
