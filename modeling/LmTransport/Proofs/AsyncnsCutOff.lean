import LmTransport.Proofs.AsyncnsContext
import LmTransport.Proofs.AsyncnsWorker

/-!
# Workers that cannot answer

Where `/proc/self/fd` is not there, `close_allv` has closed the socket a worker
replies through. The worker is in its loop all the same: it takes requests, makes
the calls, and neither a reply nor the word that it left its loop can be sent. Nothing
ever arrives at the client, and since the client has nothing else to go by, it
waits for ever (`Mute`).
-/

namespace LmTransport.Ref.Libasyncns

variable {calls : SystemCalls} {s s' : Net} {capacity : Nat} {label : Label} {labels : List Label}

/-- A worker that started without `/proc/self/fd` has no socket to its client. -/
theorem responseSend_closed {client client' worker : Process} {fds : MessageFds}
    (hfds : messageFds client = some (fds, client'))
    (hstart : startWorker calls fds client' = some (true, worker))
    (hopendir : calls.opendir = false) {rlimMax : UInt64} (hrlim : calls.rlimMax = some rlimMax)
    (hlt : fds.responseSend < rlimInt rlimMax) : worker.files fds.responseSend = none := by
  obtain ⟨-, hac, hcd, -⟩ := messageFds_cases hfds
  simp only [startWorker, Option.ite_none_left_eq_some, Option.some.injEq, not_or] at hstart
  obtain ⟨⟨hin, -⟩, hstart⟩ := hstart
  obtain ⟨r, -, hclose⟩ := processWorker_cases hstart
  exact closeAllv_numbers hclose hopendir hrlim (by omega) hlt

/-- What a worker sends goes through a descriptor that is open. -/
def SendsThrough (isOpen : Nat → Bool) : Label → Prop
  | .reply w _ send | .announce w send => send = true → isOpen w = true
  | _ => True

/-- What the user sees of a service that never answers. -/
def Event.pending : Event → Prop
  | .submitted .. | .cancelled _ => True
  | .fetched fetch _ answer => answer = fetch.tryAgain
  | .next q => q = none
  | .isdone _ done => done = false

/-! ## One step -/

/-- Nothing is on its way to the client, and no query of it is done. -/
structure Mute (s : Net) : Prop where
  responses : s.responses = []
  dead : s.client.dead = false
  wf : s.client.Wf []

theorem Mute.done_eq_false (h : Mute s) {p : Ptr} {q : Query} (hp : s.client.heap p = some q) :
    q.done = false := by
  rw [← Bool.not_eq_true]
  intro hdone
  have hmem := (h.wf.mem_done p).mpr ⟨q.bare, Asyncns.bare_of_heap hp, hdone⟩
  cases hmem

theorem Mute.getnext (h : Mute s) : asyncnsGetnext s.client = none := h.wf.links.head_eq

theorem Mute.setClient (h : Mute s) {c : Option Asyncns}
    (hc : ∀ b, c = some b → b.dead = false ∧ b.Wf []) : Mute (s.setClient c) := by
  cases c with
  | none => exact ⟨h.responses, h.dead, h.wf⟩
  | some b => exact ⟨h.responses, (hc b rfl).1, (hc b rfl).2⟩

theorem Mute.submit (h : Mute s) {call : Call} {malloc : Option Ptr} {send : Bool}
    (halloc : s.canAlloc malloc = true)
    (hstep : s.submit capacity call malloc send = some s') : Mute s' := by
  have hfresh : ∀ p, malloc = some p → s.client.bare p = none := by
    rintro p rfl
    exact Asyncns.bare_eq_none.mpr (by simpa [Net.canAlloc] using halloc)
  by_cases hvalid : call.valid = true
  · rcases h.wf.submit send hvalid hfresh with
      ⟨-, b, hsubmit, -, hdead, hwf⟩ | ⟨-, p, k, hp, -, hfree, hsubmit⟩
    · simp only [Net.submit, hsubmit, Option.some.injEq] at hstep
      subst hstep
      exact ⟨h.responses, hdead.trans h.dead, hwf⟩
    · simp only [Net.submit, hsubmit, Option.ite_none_right_eq_some, Option.some.injEq] at hstep
      obtain ⟨-, rfl⟩ := hstep
      exact ⟨h.responses, h.dead, (h.wf.advance k).insert call.type hfree (hfresh p hp)⟩
  · -- the assertion on the arguments fails
    rw [Bool.not_eq_true] at hvalid
    have hsubmit : asyncnsSubmit call malloc send s.client = none := by
      rw [asyncnsSubmit, hvalid]
      rfl
    simp only [Net.submit, hsubmit, Option.some.injEq] at hstep
    subst hstep
    exact ⟨h.responses, h.dead, h.wf⟩

/-- A query that is not done stays what it is, and its user is told to try
again. -/
theorem Mute.fetch (h : Mute s) (f : Fetch) {p : Ptr} {q : Query}
    (hp : s.client.heap p = some q) :
    asyncnsDone f p s.client = none ∨
      asyncnsDone f p s.client = some (f.tryAgain, s.client) := by
  by_cases haccepts : f.accepts q.type = true
  · right
    rw [h.wf.fetch hp haccepts, h.dead, h.done_eq_false hp]
    rfl
  · left
    rw [Bool.not_eq_true] at haccepts
    simp only [asyncnsDone, hp, haccepts]
    rfl

theorem Mute.clientStep (h : Mute s) (hstep : s.clientStep capacity label = some s') :
    Mute s' ∧ ∀ e ∈ netEvents s label, e.pending := by
  cases label with
  | submit call malloc send =>
      simp only [Net.clientStep, Option.ite_none_right_eq_some] at hstep
      refine ⟨h.submit hstep.1 hstep.2, fun e he => ?_⟩
      obtain ⟨r, -, rfl⟩ := List.mem_map.mp he
      trivial
  | receive malloc => simp [Net.clientStep, Net.receive, h.responses] at hstep
  | fetch f p =>
      simp only [Net.clientStep, Option.ite_none_left_eq_some, Option.some.injEq] at hstep
      obtain ⟨hlive, rfl⟩ := hstep
      obtain ⟨q, hp⟩ := Option.ne_none_iff_exists'.mp (by simpa using hlive)
      rcases h.fetch f hp with hdone | hdone
      · rw [hdone]
        exact ⟨h.setClient (by simp), by simp [netEvents, hdone]⟩
      · rw [hdone]
        refine ⟨h.setClient fun b hb => ?_, by simp [netEvents, hdone, Event.pending]⟩
        obtain rfl := Option.some.inj hb
        exact ⟨h.dead, h.wf⟩
  | cancel p =>
      simp only [Net.clientStep, Option.ite_none_left_eq_some, Option.some.injEq] at hstep
      obtain ⟨hlive, rfl⟩ := hstep
      obtain ⟨q, hp⟩ := Option.ne_none_iff_exists'.mp (by simpa using hlive)
      refine ⟨h.setClient fun b hb => ?_, by simp [netEvents, Event.pending]⟩
      obtain ⟨hcancel, hwf⟩ := h.wf.cancel hp
      rw [hcancel] at hb
      obtain rfl := Option.some.inj hb
      exact ⟨(s.client.remove_dead p q).trans h.dead, hwf⟩
  | getnext =>
      obtain rfl := Option.some.inj hstep
      exact ⟨h, by simp [netEvents, Event.pending, h.getnext]⟩
  | isdone p =>
      simp only [Net.clientStep, Option.ite_none_left_eq_some, Option.some.injEq] at hstep
      obtain ⟨-, rfl⟩ := hstep
      refine ⟨h, fun e he => ?_⟩
      obtain ⟨done, hdone, rfl⟩ := List.mem_map.mp he
      rw [Option.mem_toList] at hdone
      obtain ⟨q, hq, rfl⟩ := Option.map_eq_some_iff.mp hdone
      exact h.done_eq_false hq
  | take w => cases hstep
  | reply w result send => cases hstep
  | leave w => cases hstep
  | announce w send => cases hstep
  | kill w => cases hstep

theorem Mute.of_worker (h : Mute s) (hclient : s'.client = s.client)
    (hresponses : s'.responses = s.responses) : Mute s' :=
  ⟨hresponses.trans h.responses, by rw [hclient, h.dead], by rw [hclient]; exact h.wf⟩

/-- A step in which no worker sends anything. -/
theorem Mute.step (h : Mute s) {isOpen : Nat → Bool} (hclosed : ∀ w, isOpen w = false)
    (hsends : SendsThrough isOpen label) (hstep : netStep capacity s label = some s') :
    Mute s' ∧ ∀ e ∈ netEvents s label, e.pending := by
  have hmute : ∀ w send, (send = true → isOpen w = true) → send = false := by
    intro w send himp
    rw [← Bool.not_eq_true]
    intro hsend
    have hopen := himp hsend
    rw [hclosed] at hopen
    cases hopen
  rcases netStep_cases hstep with
    ⟨-, hclient⟩ | ⟨w, rfl, htake⟩ | ⟨w, result, send, rfl, hreply⟩ | hends
  · exact h.clientStep hclient
  · obtain ⟨d, rest, worker, -, -, rfl, -⟩ := take_cases htake
    exact ⟨h.of_worker rfl rfl, by simp [netEvents]⟩
  · have hsend := hmute w send hsends
    obtain ⟨id, call, -, -, ⟨-, rfl⟩ | ⟨-, rfl⟩ | ⟨d, hsent, -⟩⟩ := reply_cases hreply
    · exact ⟨h.of_worker rfl rfl, by simp [netEvents]⟩
    · exact ⟨h.of_worker rfl rfl, by simp [netEvents]⟩
    · rw [hsend] at hsent
      cases hsent
  · rw [workerEnds_silent hends]
    refine ⟨?_, fun e he => absurd he List.not_mem_nil⟩
    cases label with
    | announce w send =>
        have hsend := hmute w send hsends
        simp only [Net.workerEnds, hsend, Bool.not_false, if_true, Option.ite_none_right_eq_some,
          Option.some.injEq] at hends
        exact hends.2 ▸ h.of_worker rfl rfl
    | leave w | kill w =>
        simp only [Net.workerEnds, Option.ite_none_right_eq_some, Option.some.injEq] at hends
        exact hends.2 ▸ h.of_worker rfl rfl
    | _ => cases hends

/-! ## Every run -/

theorem Mute.run (h : Mute s) {isOpen : Nat → Bool} (hclosed : ∀ w, isOpen w = false)
    (hsends : ∀ label ∈ labels, SendsThrough isOpen label)
    (hrun : Lts.exec (netStep capacity) s labels = some s') :
    Mute s' ∧ ∀ e ∈ Lts.trace (netStep capacity) netEvents s labels, e.pending := by
  exact Lts.trace_invariant (fun _ _ _ hmute hlabel hstep => hmute.step hclosed hlabel hstep) h
    (Lts.meets_of_labels hsends) hrun

/-- Workers that all started without `/proc/self/fd`: whatever they and the
client do, no query is ever done, the client is never told that a worker left, and
whoever asks is told to try again. -/
theorem cut_off_forever {client client' : Process} {fds : MessageFds} {nProc : Nat}
    {start : Nat → SystemCalls} {workers : Nat → Process}
    (hfds : messageFds client = some (fds, client'))
    (hstart : ∀ w, startWorker (start w) fds client' = some (true, workers w))
    (hopendir : ∀ w, (start w).opendir = false)
    (hrlim : ∀ w, ∃ rlimMax, (start w).rlimMax = some rlimMax ∧
      fds.responseSend < rlimInt rlimMax)
    (hsends : ∀ label ∈ labels,
      SendsThrough (fun w => ((workers w).files fds.responseSend).isSome) label)
    (hrun : Lts.exec (netStep capacity) (asyncnsNew nProc) labels = some s) :
    s.client.dead = false ∧ asyncnsGetnext s.client = none ∧
      (∀ p q, s.client.heap p = some q → q.done = false) ∧
      ∀ e ∈ Lts.trace (netStep capacity) netEvents (asyncnsNew nProc) labels, e.pending := by
  have hclosed : ∀ w, ((workers w).files fds.responseSend).isSome = false := by
    intro w
    obtain ⟨rlimMax, hlim, hlt⟩ := hrlim w
    rw [responseSend_closed hfds (hstart w) (hopendir w) hlim hlt]
    rfl
  have hnew : Mute (asyncnsNew nProc) := ⟨rfl, rfl, Asyncns.Wf.empty⟩
  obtain ⟨hmute, hevents⟩ := hnew.run hclosed hsends hrun
  exact ⟨hmute.dead, hmute.getnext, fun p q hp => hmute.done_eq_false hp, hevents⟩

/-- With nothing open but 0, 1 and 2 the socket a worker receives from is the
descriptor 3, which stays open. -/
def plainClient : Process where
  files n := if n < 3 then some (.other n) else none
  limit := 16
  handlers _ := .dfl
  uid := 1000

def noProc : SystemCalls where
  opendir := false
  rlimMax := some 4096

/-- A lookup that is taken, and its result, which cannot be sent. -/
def unsentReply : List Label :=
  [.submit (.resQuery (strndup [97] 1) 1 33) (some 7) true, .take 0,
    .reply 0 (.res ⟨2, 0, 0⟩ [1, 2]) false, .announce 0 false, .isdone 7, .fetch .res 7]

theorem cut_off_forever_plainClient : ∃ fds client' worker s,
    messageFds plainClient = some (fds, client') ∧
      startWorker noProc fds client' = some (true, worker) ∧
      Lts.exec (netStep 4) (asyncnsNew 1) unsentReply = some s ∧
      s.client.dead = false ∧ asyncnsGetnext s.client = none ∧
      (∀ p q, s.client.heap p = some q → q.done = false) ∧
      ∀ e ∈ Lts.trace (netStep 4) netEvents (asyncnsNew 1) unsentReply, e.pending := by
  have hfds : messageFds plainClient = some (⟨3, 4, 5, 6⟩,
      (((plainClient.install 3 (.socket 0)).install 4 (.socket 1)).install 5 (.socket 2)).install 6
        (.socket 3)) := rfl
  have hstarts : (startWorker noProc ⟨3, 4, 5, 6⟩
      ((((plainClient.install 3 (.socket 0)).install 4 (.socket 1)).install 5 (.socket 2)).install 6
        (.socket 3))).map (·.1) = some true := by decide +kernel
  obtain ⟨⟨ok, worker⟩, hstart, rfl⟩ := Option.map_eq_some_iff.mp hstarts
  have hsome : (Lts.exec (netStep 4) (asyncnsNew 1) unsentReply).isSome := by decide +kernel
  obtain ⟨s, hrun⟩ := Option.isSome_iff_exists.mp hsome
  refine ⟨_, _, worker, s, hfds, hstart, hrun, ?_⟩
  have hrlim : 6 < rlimInt 4096 := by decide +kernel
  refine cut_off_forever hfds (fun _ => hstart) (fun _ => rfl) (fun _ => ⟨4096, rfl, hrlim⟩) ?_
    hrun
  intro label hlabel
  simp only [unsentReply, List.mem_cons, List.not_mem_nil, or_false] at hlabel
  rcases hlabel with rfl | rfl | rfl | rfl | rfl | rfl
  · trivial
  · trivial
  · exact fun hsend => by cases hsend
  · exact fun hsend => by cases hsend
  · trivial
  · trivial

end LmTransport.Ref.Libasyncns
