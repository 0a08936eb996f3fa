import LmTransport.Lib.Quiescence
import LmTransport.Proofs.AsyncnsChanges

/-!
# Every query is answered, or never

While workers go on and their replies are sent, each query that is not done has
something in flight (`Live`). The steps by which it gets closer to the client
need no help from the user except that he receives. Each of them makes
`Net.work` smaller, so however they are scheduled they come to an end, and at the
end every query is done.

The other side of it is a worker that is lost with a request. It says nothing
to the client, there is no timeout and nothing is sent twice: with nothing in flight
the query is never done, whatever else happens.
-/

namespace LmTransport.Ref.Libasyncns

variable {libc : LibcCall → LibcResult → Prop} {s s' : Net} {t : Service} {capacity : Nat}
  {label : Label} {p : Ptr}

/-! ## Nothing is lost -/

/-- A query that is not done has something in flight. -/
def Live (s : Net) : Prop :=
  ∀ p q, s.client.bare p = some q → q.done = false → 0 < s.inFlight q.id

theorem live_new (nProc : Nat) : Live (asyncnsNew nProc) := by
  intro p q hp
  cases hp

theorem Live.step (h : Live s) {done : List Ptr} (hwf : s.client.Wf done)
    (hsteady : Steady s label) (hchange : Change s label s') : Live s' := by
  intro r x hr hx
  cases hchange with
  | submitted p id type _ _ _ hbare hflight _ =>
      rw [hbare, Function.update_apply] at hr
      split at hr
      · obtain rfl := Option.some.inj hr
        rw [hflight, if_pos rfl]
        omega
      · rw [hflight]
        exact Nat.add_pos_left (h r x hr hx) _
  | completed p q outcome hp _ hbare hflight _ =>
      rw [hbare, Function.update_apply] at hr
      split at hr
      · obtain rfl := Option.some.inj hr
        cases hx
      · next hrp =>
          have hne : q.id ≠ x.id := fun hid => hrp (hwf.eq_of_slotOf hr hp (by rw [hid]))
          have hold := hflight x.id
          rw [if_neg hne, Nat.add_zero] at hold
          rw [hold]
          exact h r x hr hx
  | dropped id hid hbare hflight _ =>
      rw [hbare] at hr
      have hold := hflight x.id
      rw [if_neg (Ne.symm (hid r x hr)), Nat.add_zero] at hold
      rw [hold]
      exact h r x hr hx
  | removed p q _ _ hbare hflight _ =>
      rw [hbare, Function.update_apply] at hr
      split at hr
      · cases hr
      · rw [hflight]
        exact h r x hr hx
  | died _ _ _ hbare hflight | kept hbare hflight _ =>
      rw [hbare] at hr
      rw [hflight]
      exact h r x hr hx
  | lost hlabel => exact absurd hsteady hlabel

/-! ## Workers that go on -/

/-- All workers are in their loops, and no response says otherwise. -/
structure Running (s : Net) : Prop where
  alive : s.client.dead = false
  workers : ∀ x ∈ s.workers, x = .waiting ∨ ∃ id c, x = .working id c
  responses : ∀ d ∈ s.responses, ∃ id, forResponse id d = true

theorem running_new (nProc : Nat) : Running (asyncnsNew nProc) where
  alive := rfl
  workers _ hx := Or.inl (List.eq_of_mem_replicate hx)
  responses _ hd := absurd hd List.not_mem_nil

theorem Net.setClient_frame (s : Net) (c : Option Asyncns) :
    (s.setClient c).workers = s.workers ∧ (s.setClient c).requests = s.requests ∧
      (s.setClient c).responses = s.responses := by
  cases c <;> exact ⟨rfl, rfl, rfl⟩

/-- A step of the client leaves the workers alone, and takes a response or none. -/
theorem clientStep_frame (hstep : s.clientStep capacity label = some s') :
    s'.workers = s.workers ∧ ∀ d ∈ s'.responses, d ∈ s.responses := by
  have hset : ∀ c, (s.setClient c).workers = s.workers ∧
      ∀ d ∈ (s.setClient c).responses, d ∈ s.responses := fun c => by
    obtain ⟨hworkers, -, hresponses⟩ := s.setClient_frame c
    exact ⟨hworkers, fun d hd => hresponses ▸ hd⟩
  cases label with
  | submit call malloc send =>
      simp only [Net.clientStep, Option.ite_none_right_eq_some] at hstep
      obtain ⟨-, hstep⟩ := hstep
      unfold Net.submit at hstep
      split at hstep
      · exact Option.some.inj hstep ▸ hset none
      · exact Option.some.inj hstep ▸ hset _
      · simp only [Option.ite_none_right_eq_some, Option.some.injEq] at hstep
        exact hstep.2 ▸ hset _
  | receive malloc =>
      simp only [Net.clientStep, Net.receive, Option.ite_none_left_eq_some] at hstep
      obtain ⟨-, hstep⟩ := hstep
      split at hstep
      · cases hstep
      · next d rest hresponses =>
          obtain rfl := Option.some.inj hstep
          refine ⟨(hset _).1, fun e he => ?_⟩
          rw [hresponses]
          exact List.mem_cons_of_mem _ he
  | fetch f p =>
      simp only [Net.clientStep, Option.ite_none_left_eq_some, Option.some.injEq] at hstep
      exact hstep.2 ▸ hset _
  | cancel p =>
      simp only [Net.clientStep, Option.ite_none_left_eq_some, Option.some.injEq] at hstep
      exact hstep.2 ▸ hset _
  | getnext => exact Option.some.inj hstep ▸ ⟨rfl, fun _ hd => hd⟩
  | isdone p =>
      simp only [Net.clientStep, Option.ite_none_left_eq_some, Option.some.injEq] at hstep
      exact hstep.2 ▸ ⟨rfl, fun _ hd => hd⟩
  | take w => cases hstep
  | reply w result send => cases hstep
  | leave w => cases hstep
  | announce w send => cases hstep
  | kill w => cases hstep

theorem Running.alive_step (h : Running s) (hsteady : Steady s label)
    (hchange : Change s label s') : s'.client.dead = false := by
  cases hchange with
  | submitted _ _ _ _ _ _ _ _ hdead | completed _ _ _ _ _ _ _ hdead | dropped _ _ _ _ hdead
  | removed _ _ _ _ _ _ hdead | kept _ _ hdead => exact hdead.trans h.alive
  | died d hd hfor =>
      obtain ⟨id, hid⟩ := h.responses d hd
      rw [hfor] at hid
      cases hid
  | lost hlabel => exact absurd hsteady hlabel

theorem Running.step (h : Running s) (himpl : Implements libc s t) (hproper : Proper libc s label)
    (hsteady : Steady s label) (hstep : netStep capacity s label = some s') : Running s' := by
  have halive := h.alive_step hsteady (himpl.change hproper hstep)
  rcases netStep_cases hstep with
    ⟨-, hclient⟩ | ⟨w, rfl, htake⟩ | ⟨w, result, send, rfl, hreply⟩ | hends
  · obtain ⟨hworkers, hresponses⟩ := clientStep_frame hclient
    exact ⟨halive, hworkers ▸ h.workers, fun d hd => h.responses d (hresponses d hd)⟩
  · obtain ⟨id, call, rest, -, -, -, rfl⟩ := himpl.carries.take_eq htake
    refine ⟨halive, fun x hx => ?_, h.responses⟩
    rcases List.mem_or_eq_of_mem_set hx with hold | rfl
    · exact h.workers x hold
    · exact Or.inr ⟨_, _, rfl⟩
  · obtain ⟨id, c, hw, hfits, ⟨hnone, -⟩ | ⟨hsend, -⟩ | ⟨d, -, hd, -, rfl⟩⟩ := reply_cases hreply
    · exact absurd hnone (hsteady.2 id c hw)
    · rw [hsteady.1] at hsend
      cases hsend
    · obtain ⟨call, rfl, -⟩ := himpl.carries.workers id c (List.mem_of_getElem? hw)
      have hreplies := repliesTo_of_sendReply id call result hfits hd
      refine ⟨halive, fun x hx => ?_, fun e he => ?_⟩
      · rcases List.mem_or_eq_of_mem_set hx with hold | rfl
        · exact h.workers x hold
        · exact Or.inl rfl
      · rcases List.mem_append.mp he with hold | hnew
        · exact h.responses e hold
        · rw [List.mem_singleton.mp hnew]
          exact ⟨id, by rw [hreplies.forResponse]; simp⟩
  · cases label with
    | leave w | announce w send | kill w => exact hsteady.elim
    | _ => cases hends

/-! ## What is left to do -/

def isWorking : Worker → Bool
  | .working .. => true
  | _ => false

/-- How many steps there are from what is in flight to the client. -/
def Net.work (s : Net) : Nat :=
  3 * s.requests.length + 2 * s.workers.countP isWorking + s.responses.length

/-- The steps that bring something closer to the client: a worker takes a
request, makes its call and sends a result the C library can give, and the client receives it. -/
def Internal (libc : LibcCall → LibcResult → Prop) (s : Net) : Label → Prop
  | .receive _ | .take _ => True
  | .reply w result send => send = true ∧ ∀ id call, s.workers[w]? = some (.working id call) →
      libc call result ∧ result.short = true ∧ sendReply id call result ≠ none
  | _ => False

theorem Internal.steady (h : Internal libc s label) : Steady s label := by
  cases label with
  | reply w result send => exact ⟨h.1, fun id call hw => (h.2 id call hw).2.2⟩
  | receive malloc => trivial
  | take w => trivial
  | _ => exact h.elim

theorem Internal.fresh (h : Internal libc s label) : Fresh s label := by
  cases label with
  | submit call malloc send => exact h.elim
  | _ => trivial

theorem Internal.proper (h : Internal libc s label) : Proper libc s label := by
  cases label with
  | reply w result send =>
      rw [Proper]
      split
      · next id call hw => exact ⟨(h.2 id call hw).1, (h.2 id call hw).2.1⟩
      · trivial
  | receive malloc => trivial
  | take w => trivial
  | _ => exact h.elim

/-- The net works, and stands for some state of the service. -/
structure Working (libc : LibcCall → LibcResult → Prop) (s : Net) : Prop where
  implements : ∃ t, Implements libc s t
  live : Live s
  running : Running s
  workers : s.workers ≠ []

theorem workers_ne_nil (h : s.workers ≠ []) (hstep : netStep capacity s label = some s') :
    s'.workers ≠ [] := by
  rcases netStep_frame hstep with ⟨-, hclient⟩ | ⟨⟨w, x, hworkers⟩, -⟩
  · rw [(clientStep_frame hclient).1]
    exact h
  · rw [hworkers, ne_eq, List.set_eq_nil_iff]
    exact h

theorem Working.step (h : Working libc s) (hfresh : Fresh s label) (hproper : Proper libc s label)
    (hsteady : Steady s label) (hstep : netStep capacity s label = some s') :
    Working libc s' := by
  obtain ⟨t, himpl⟩ := h.implements
  obtain ⟨_, t', -, -, himpl'⟩ :=
    implements_simulates libc capacity s label s' t himpl ⟨hfresh, hproper⟩ hstep
  exact ⟨⟨t', himpl'⟩, h.live.step himpl.wf hsteady (himpl.change hproper hstep),
    h.running.step himpl hproper hsteady hstep, workers_ne_nil h.workers hstep⟩

/-- Each of these steps leaves less to do. -/
theorem Working.work_lt (h : Working libc s) (hinternal : Internal libc s label)
    (hstep : netStep capacity s label = some s') : s'.work < s.work := by
  obtain ⟨t, himpl⟩ := h.implements
  cases label with
  | take w =>
      obtain ⟨id, call, rest, hw, hrequests, -, rfl⟩ := himpl.carries.take_eq hstep
      have hset := countP_set_add (f := isWorking) (y := .working id call.libc) hw
      simp only [isWorking, Bool.false_eq_true, if_false, if_true] at hset
      simp only [Net.work, hrequests, List.length_cons]
      omega
  | reply w result send =>
      obtain ⟨id, c, hw, -, ⟨hnone, -⟩ | ⟨hsend, -⟩ | ⟨d, -, -, -, rfl⟩⟩ := reply_cases hstep
      · exact absurd hnone (hinternal.2 id c hw).2.2
      · rw [hinternal.1] at hsend
        cases hsend
      · have hset := countP_set_add (f := isWorking) (y := .waiting) hw
        simp only [isWorking, Bool.false_eq_true, if_false, if_true] at hset
        simp only [Net.work, List.length_append, List.length_singleton]
        omega
  | receive malloc =>
      simp only [netStep, himpl.alive, Bool.false_eq_true, if_false, Net.clientStep,
        Net.receive, Option.ite_none_left_eq_some] at hstep
      obtain ⟨-, hstep⟩ := hstep
      split at hstep
      · cases hstep
      · next d rest hresponses =>
          obtain rfl := Option.some.inj hstep
          obtain ⟨hworkers, hrequests, -⟩ :=
            s.setClient_frame (handleResponse malloc (d.take recvSize) s.client)
          simp only [Net.work, hresponses, hworkers, hrequests, List.length_cons]
          omega
  | _ => exact hinternal.elim

/-- The C library can give a result that can be sent to every call. -/
def Answers (libc : LibcCall → LibcResult → Prop) : Prop :=
  ∀ id call, ∃ result, libc call result ∧ result.fits call = true ∧ result.short = true ∧
    sendReply id call result ≠ none

/-- When no such step is left, nothing is in flight, and every query is done. -/
theorem Working.done_of_stuck (h : Working libc s) (hcapacity : 0 < capacity)
    (hanswers : Answers libc) (hstuck : Lts.Stuck (netStep capacity) (Internal libc) s) :
    ∀ p q, s.client.bare p = some q → q.done = true := by
  obtain ⟨t, himpl⟩ := h.implements
  have hresponses : s.responses = [] := by
    cases hs : s.responses with
    | nil => rfl
    | cons d rest =>
        have hnone : netStep capacity s (.receive fun _ => true) = none := hstuck.eq_none trivial
        simp [netStep, himpl.alive, Net.clientStep, Net.receive, h.running.alive, hs] at hnone
  have hidle : ∀ (w : Nat) (x : Worker), s.workers[w]? = some x → x = .waiting := by
    intro w x hw
    rcases h.running.workers x (List.mem_of_getElem? hw) with hx | ⟨id, c, rfl⟩
    · exact hx
    · obtain ⟨result, hlibc, hfits, hshort, hsent⟩ := hanswers id c
      obtain ⟨d, hd⟩ := Option.ne_none_iff_exists'.mp hsent
      have hinternal : Internal libc s (.reply w result true) := by
        refine ⟨rfl, fun i call hcall => ?_⟩
        obtain ⟨rfl, rfl⟩ := Worker.working.inj (Option.some.inj (hw.symm.trans hcall))
        exact ⟨hlibc, hshort, hsent⟩
      have hnone := hstuck.eq_none hinternal
      simp [netStep, Net.reply, hw, hfits, hd, hresponses, hcapacity] at hnone
  have hrequests : s.requests = [] := by
    cases hs : s.requests with
    | nil => rfl
    | cons d rest =>
        have hlt : 0 < s.workers.length := List.length_pos_iff.mpr h.workers
        have hw : s.workers[0]? = some .waiting := by
          rw [List.getElem?_eq_getElem hlt, hidle 0 _ (List.getElem?_eq_getElem hlt)]
        have hnone : netStep capacity s (.take 0) = none := hstuck.eq_none trivial
        simp [netStep, Net.take, hw, hs] at hnone
  intro p q hp
  rw [← Bool.not_eq_false]
  intro hdone
  have hpos := h.live p q hp hdone
  have hworkers : s.workers.countP (forWorker q.id) = 0 := by
    rw [List.countP_eq_zero]
    intro x hx
    obtain ⟨w, hw⟩ := List.getElem?_of_mem hx
    rw [hidle w x hw]
    simp [forWorker]
  rw [Net.inFlight, hrequests, hresponses, hworkers] at hpos
  simp at hpos

/-- None of these steps takes a query away. -/
theorem Internal.keeps (h : Internal libc s label) (hchange : Change s label s') (p : Ptr) :
    (s'.client.bare p).isSome = (s.client.bare p).isSome := by
  cases hchange with
  | submitted _ _ _ hlabel =>
      obtain ⟨call, malloc, send, rfl⟩ := hlabel
      exact h.elim
  | completed r q outcome hr _ hbare =>
      rw [hbare, Function.update_apply]
      split
      · next hpr => rw [hpr, hr]; rfl
      · rfl
  | removed _ _ _ hlabel =>
      rcases hlabel with ⟨-, f, rfl⟩ | rfl
      · exact h.elim
      · exact h.elim
  | dropped _ _ hbare | died _ _ _ hbare | kept hbare | lost _ hbare => rw [hbare]

theorem Working.keeps {u : Net} {labels : List Label} (h : Working libc s)
    (hinternal : Lts.Meets (netStep capacity) (Internal libc) s labels)
    (hrun : Lts.exec (netStep capacity) s labels = some u) :
    Working libc u ∧ ∀ p, (u.client.bare p).isSome = (s.client.bare p).isSome := by
  refine Lts.exec_invariant (I := fun v => Working libc v ∧
    ∀ p, (v.client.bare p).isSome = (s.client.bare p).isSome) ?_ ⟨h, fun _ => rfl⟩ hinternal hrun
  rintro v label v' ⟨hv, hsame⟩ hlabel hstep
  obtain ⟨t, himpl⟩ := hv.implements
  refine ⟨hv.step hlabel.fresh hlabel.proper hlabel.steady hstep, fun p => ?_⟩
  rw [hlabel.keeps (himpl.change hlabel.proper hstep), hsame]

theorem working_of_run {nProc : Nat} (hproc : 0 < nProc) {labels : List Label}
    (hlabels : Lts.Meets (netStep capacity)
      (fun s label => Fresh s label ∧ Proper libc s label ∧ Steady s label) (asyncnsNew nProc)
      labels)
    (hrun : Lts.exec (netStep capacity) (asyncnsNew nProc) labels = some s) :
    Working libc s := by
  have hworkers : (asyncnsNew nProc).workers ≠ [] := fun hnil => by
    have hlength := congrArg List.length hnil
    rw [asyncnsNew, List.length_replicate, List.length_nil] at hlength
    have hpos : 0 < maxWorkers := by decide
    omega
  refine Lts.exec_invariant
    (fun v label v' hv hlabel hstep => hv.step hlabel.1 hlabel.2.1 hlabel.2.2 hstep)
    ⟨⟨{}, implements_new libc nProc⟩, live_new nProc, running_new nProc, hworkers⟩
    hlabels hrun

/-- While workers go on, every call that was accepted is answered. From any state
the steps of workers and client are limited in number, in whatever order they
are taken, and they can be taken until none is left. When none is left, the
queries there were are all there still, and done. -/
theorem lookups_finish (libc : LibcCall → LibcResult → Prop) {capacity nProc : Nat}
    (hcapacity : 0 < capacity) (hproc : 0 < nProc) (hanswers : Answers libc)
    {labels : List Label}
    (hlabels : Lts.Meets (netStep capacity)
      (fun s label => Fresh s label ∧ Proper libc s label ∧ Steady s label) (asyncnsNew nProc)
      labels)
    (hrun : Lts.exec (netStep capacity) (asyncnsNew nProc) labels = some s) :
    (∀ labels' u, Lts.Meets (netStep capacity) (Internal libc) s labels' →
        Lts.exec (netStep capacity) s labels' = some u →
        labels'.length + u.work ≤ s.work ∧
          (∀ p, (u.client.bare p).isSome = (s.client.bare p).isSome) ∧
          (Lts.Stuck (netStep capacity) (Internal libc) u →
            ∀ p q, u.client.bare p = some q → q.done = true)) ∧
      ∃ labels' u, Lts.Meets (netStep capacity) (Internal libc) s labels' ∧
        Lts.exec (netStep capacity) s labels' = some u ∧
        Lts.Stuck (netStep capacity) (Internal libc) u := by
  have hworking := working_of_run hproc hlabels hrun
  have hstep : ∀ (v : Net) (label : Label) (v' : Net), Working libc v → Internal libc v label →
      netStep capacity v label = some v' → Working libc v' ∧ v'.work < v.work :=
    fun v label v' hv hlabel hv' =>
      ⟨hv.step hlabel.fresh hlabel.proper hlabel.steady hv', hv.work_lt hlabel hv'⟩
  refine ⟨fun labels' u hinternal hu => ?_, ?_⟩
  · obtain ⟨hworking', hsame⟩ := hworking.keeps hinternal hu
    exact ⟨Lts.length_le_of_measure hstep hworking hinternal hu, hsame,
      hworking'.done_of_stuck hcapacity hanswers⟩
  · obtain ⟨labels', u, hinternal, hu, -, hstuck⟩ := Lts.exists_stuck hstep hworking
    exact ⟨labels', u, hinternal, hu, hstuck⟩

theorem answers_any : Answers fun _ _ => True := by
  intro id call
  cases call with
  | getaddrinfo node service hints =>
      refine ⟨.addrinfo ⟨-2, 0, 0⟩ [], trivial, rfl, rfl, ?_⟩
      rw [sendReply, sendAddrinfoReply_of_failed id _ _ (by decide)]
      simp
  | getnameinfo sa host serv flags =>
      refine ⟨.nameinfo ⟨-2, 0, 0⟩ (strndup [] 0) (strndup [] 0), trivial, rfl, rfl, ?_⟩
      have hroom : nameinfoResponse.size ≤ dataSize nameinfoResponse.size := by decide
      simp [sendReply, sendNameinfoReply, textLength, hroom]
  | resQuery dname cls type =>
      refine ⟨.res ⟨-1, 0, 1⟩ [], trivial, rfl, rfl, ?_⟩
      rw [sendReply, sendResReply_eq id _ _ (by decide), if_neg (by decide)]
      simp
  | resSearch dname cls type =>
      refine ⟨.res ⟨-1, 0, 1⟩ [], trivial, rfl, rfl, ?_⟩
      rw [sendReply, sendResReply_eq id _ _ (by decide), if_neg (by decide)]
      simp

theorem lookups_finish_threeLookups :
    ∃ s, Lts.exec (netStep 4) (asyncnsNew 2) (threeLookups.take 3) = some s ∧
      (∀ labels' u, Lts.Meets (netStep 4) (Internal fun _ _ => True) s labels' →
          Lts.exec (netStep 4) s labels' = some u →
          labels'.length + u.work ≤ s.work ∧
            (∀ p, (u.client.bare p).isSome = (s.client.bare p).isSome) ∧
            (Lts.Stuck (netStep 4) (Internal fun _ _ => True) u →
              ∀ p q, u.client.bare p = some q → q.done = true)) ∧
        ∃ labels' u, Lts.Meets (netStep 4) (Internal fun _ _ => True) s labels' ∧
          Lts.exec (netStep 4) s labels' = some u ∧
          Lts.Stuck (netStep 4) (Internal fun _ _ => True) u := by
  have hlabels : Lts.Meets (netStep 4)
      (fun s label => Fresh s label ∧ Proper (fun _ _ => True) s label ∧ Steady s label)
      (asyncnsNew 2) (threeLookups.take 3) := by decide +kernel
  have hsome : (Lts.exec (netStep 4) (asyncnsNew 2) (threeLookups.take 3)).isSome := by
    decide +kernel
  obtain ⟨s, hrun⟩ := Option.isSome_iff_exists.mp hsome
  exact ⟨s, hrun, lookups_finish _ (by decide) (by decide) answers_any hlabels hrun⟩

/-! ## A query that is lost -/

/-- The query is not done and has nothing in flight. -/
def Lost (p : Ptr) (id : UInt32) (s : Net) : Prop :=
  ∃ q, s.client.bare p = some q ∧ q.id = id ∧ q.done = false ∧ s.inFlight id = 0

theorem Lost.step {id : UInt32} (h : Lost p id s) (hlabel : label ≠ .cancel p)
    (hchange : Change s label s') : Lost p id s' := by
  obtain ⟨q, hp, hid, hdone, hflight⟩ := h
  cases hchange with
  | submitted r new type _ hr hnew hbare hflight' _ =>
      have hpr : p ≠ r := fun heq => by simp [heq, hr] at hp
      have hne : new ≠ id := fun heq => hnew p q hp (hid.trans heq.symm)
      refine ⟨q, by rw [hbare, Function.update_of_ne hpr, hp], hid, hdone, ?_⟩
      rw [hflight', hflight, if_neg hne]
  | completed r x outcome hr _ hbare hflight' _ =>
      have hold := hflight' id
      have hpr : p ≠ r := fun heq => by
        rw [← heq, hp, Option.some.injEq] at hr
        rw [← hr, hid, if_pos rfl] at hold
        omega
      exact ⟨q, by rw [hbare, Function.update_of_ne hpr, hp], hid, hdone, by omega⟩
  | dropped i _ hbare hflight' _ =>
      have hold := hflight' id
      exact ⟨q, by rw [hbare, hp], hid, hdone, by omega⟩
  | removed r x hr hremoved hbare hflight' _ =>
      have hpr : p ≠ r := fun heq => by
        rcases hremoved with ⟨hx, -⟩ | hcancel
        · rw [← heq, hp, Option.some.injEq] at hr
          rw [← hr, hdone] at hx
          cases hx
        · exact hlabel (heq ▸ hcancel)
      exact ⟨q, by rw [hbare, Function.update_of_ne hpr, hp], hid, hdone,
        (hflight' id).trans hflight⟩
  | died _ _ _ hbare hflight' | kept hbare hflight' _ =>
      exact ⟨q, by rw [hbare, hp], hid, hdone, (hflight' id).trans hflight⟩
  | lost _ hbare hflight' _ =>
      have hle := hflight' id
      exact ⟨q, by rw [hbare, hp], hid, hdone, by omega⟩

/-- Whatever happens then, short of cancelling it, the query is not done. -/
theorem Lost.run {id : UInt32} {u : Net} {labels : List Label} (h : Lost p id s)
    (himpl : Implements libc s t)
    (hlabels : Lts.Meets (netStep capacity) (fun s label => Fresh s label ∧ Proper libc s label) s
      labels)
    (hcancel : .cancel p ∉ labels) (hrun : Lts.exec (netStep capacity) s labels = some u) :
    Lost p id u := by
  have hkept : Lts.Meets (netStep capacity) (fun _ label => label ≠ .cancel p) s labels :=
    Lts.meets_of_labels fun label hlabel heq => hcancel (heq ▸ hlabel)
  refine (Lts.exec_invariant (I := fun v => (∃ t, Implements libc v t) ∧ Lost p id v) ?_
    ⟨⟨t, himpl⟩, h⟩ (Lts.Meets.and hlabels hkept) hrun).2
  rintro v label v' ⟨⟨t, himpl⟩, hlost⟩ ⟨hlabel, hne⟩ hstep
  obtain ⟨_, t', -, -, himpl'⟩ :=
    implements_simulates libc capacity v label v' t himpl hlabel hstep
  exact ⟨⟨t', himpl'⟩, hlost.step hne (himpl.change hlabel.2 hstep)⟩

/-- A worker that stops working on a query was all the query had. -/
theorem Implements.lost (h : Implements libc s t) {w : Nat} {q : Query} {c : LibcCall} {y : Worker}
    (hw : s.workers[w]? = some (.working q.id c)) (hp : s.client.heap p = some q)
    (hdone : q.done = false) (hy : forWorker q.id y = false) :
    Lost p q.id { s with workers := s.workers.set w y } := by
  have hset := countP_set_add (f := forWorker q.id) (y := y) hw
  have honce := h.once q.id
  rw [hy] at hset
  simp only [forWorker, decide_true, if_true, Bool.false_eq_true, if_false] at hset
  rw [Net.inFlight] at honce
  refine ⟨q.bare, Asyncns.bare_of_heap hp, rfl, hdone, ?_⟩
  rw [Net.inFlight]
  simp only
  omega

/-- A worker that fails an assertion over a result takes the query with it. The
client is not told, and in no continuation is the query ever done. -/
theorem lost_forever (libc : LibcCall → LibcResult → Prop) {capacity nProc : Nat}
    {labels labels' : List Label} {u v : Net} {w : Nat} {q : Query} {c : LibcCall}
    {result : LibcResult} {send : Bool}
    (hlabels : Lts.Meets (netStep capacity) (fun s label => Fresh s label ∧ Proper libc s label)
      (asyncnsNew nProc) labels)
    (hrun : Lts.exec (netStep capacity) (asyncnsNew nProc) labels = some s)
    (hw : s.workers[w]? = some (.working q.id c)) (hp : s.client.heap p = some q)
    (hdone : q.done = false) (hnone : sendReply q.id c result = none)
    (hreply : netStep capacity s (.reply w result send) = some v)
    (hlabels' : Lts.Meets (netStep capacity)
      (fun s label => Fresh s label ∧ Proper libc s label) v labels')
    (hcancel : .cancel p ∉ labels')
    (hrun' : Lts.exec (netStep capacity) v labels' = some u) :
    ∃ q', u.client.heap p = some q' ∧ q'.id = q.id ∧ q'.done = false := by
  obtain ⟨_, t, -, -, himpl⟩ := exists_implements hlabels hrun
  have hv : v = { s with workers := s.workers.set w .gone } := by
    have hcall : s.reply capacity w result send = some v := hreply
    rw [Net.reply, hw] at hcall
    simp only [hnone, Option.ite_none_left_eq_some, Option.some.injEq] at hcall
    exact hcall.2.symm
  -- nothing of the result gets out, so the worker might as well have been killed
  have hkill : netStep capacity s (.kill w) = some v := by
    have hbound := (List.getElem?_eq_some_iff.mp hw).1
    rw [hv]
    simp [netStep, Net.workerEnds, hbound]
  obtain ⟨_, t', -, -, himpl'⟩ :=
    implements_simulates libc capacity s (.kill w) v t himpl ⟨trivial, trivial⟩ hkill
  have hlost : Lost p q.id v := by
    rw [hv]
    exact himpl.lost hw hp hdone rfl
  obtain ⟨b, hb, hid, hundone, -⟩ := hlost.run himpl' hlabels' hcancel hrun'
  obtain ⟨q', hq', rfl⟩ := Asyncns.exists_heap_of_bare hb
  exact ⟨q', hq', hid, hundone⟩

/-- A lookup whose result has two large records, and what the user tries then. -/
def largeRecords : List Addrinfo := List.replicate 2 ⟨0, 2, 1, 6, List.replicate 5100 7, none⟩

def oneLoss : List Label :=
  [.submit (.getaddrinfo (some (strndup [97] 1)) none none) (some 7) true, .take 0]

def afterLoss : List Label :=
  [.fetch .getaddrinfo 7, .submit (.resQuery (strndup [97] 1) 1 33) (some 8) true, .take 1,
    .reply 1 (.res ⟨2, 0, 0⟩ [1, 2]) true, .receive fun _ => true, .isdone 7,
    .fetch .getaddrinfo 7]

theorem lost_forever_oneLoss :
    ∃ s q v u, Lts.exec (netStep 1) (asyncnsNew 2) oneLoss = some s ∧ s.client.heap 7 = some q ∧
      sendReply q.id (.getaddrinfo (some (strndup [97] 1)) none none)
        (.addrinfo ⟨0, 0, 0⟩ largeRecords) = none ∧
      netStep 1 s (.reply 0 (.addrinfo ⟨0, 0, 0⟩ largeRecords) true) = some v ∧
      Lts.exec (netStep 1) v afterLoss = some u ∧
      ∃ q', u.client.heap 7 = some q' ∧ q'.id = q.id ∧ q'.done = false := by
  have hlabels : Lts.Meets (netStep 1)
      (fun s label => Fresh s label ∧ Proper (fun _ _ => True) s label) (asyncnsNew 2)
      (oneLoss ++ .reply 0 (.addrinfo ⟨0, 0, 0⟩ largeRecords) true :: afterLoss) := by
    decide +kernel
  have hsome : (Lts.exec (netStep 1) (asyncnsNew 2) oneLoss).map (fun s =>
      (s.workers[0]?, (s.client.heap 7).map fun q => (q.id, q.done),
        (Lts.exec (netStep 1) s
          (.reply 0 (.addrinfo ⟨0, 0, 0⟩ largeRecords) true :: afterLoss)).isSome)) =
      some (some (.working 0 (.getaddrinfo (some (strndup [97] 1)) none none)),
        some (0, false), true) := by
    decide +kernel
  obtain ⟨s, hrun, hs⟩ := Option.map_eq_some_iff.mp hsome
  simp only [Prod.mk.injEq] at hs
  obtain ⟨hw, hheap, hu⟩ := hs
  obtain ⟨q, hp, hq⟩ := Option.map_eq_some_iff.mp hheap
  obtain ⟨hid, hdone⟩ := Prod.mk.inj hq
  obtain ⟨u, hrun'⟩ := Option.isSome_iff_exists.mp hu
  obtain ⟨v, hv, hrest⟩ := Lts.exec_cons_some hrun'
  obtain ⟨hbefore, hafter⟩ := Lts.meets_append hlabels hrun
  have hnone : sendReply 0 (.getaddrinfo (some (strndup [97] 1)) none none)
      (.addrinfo ⟨0, 0, 0⟩ largeRecords) = none := by
    decide +kernel
  rw [← hid] at hw hnone
  exact ⟨s, q, v, u, hrun, hp, hnone, hv, hrest, lost_forever (fun _ _ => True) hbefore hrun hw hp
    hdone hnone hv (hafter v hv).2 (by simp [afterLoss]) hrest⟩

end LmTransport.Ref.Libasyncns
