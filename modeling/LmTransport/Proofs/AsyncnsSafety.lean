import LmTransport.Proofs.AsyncnsContext

/-!
# The processes do what the service says

`Implements` relates a state of the net to a state of the service: the queries of
the client are the queries of the service, and everything in flight for the id of
a query is for the call of that query, which has no outcome yet. With the second half,
a response that finds a query completes it with a result of its own call.

It fails in one way only. The id of a query that was cancelled is used again when
the cursor has not moved on, and if the old request is still in flight its result goes to the new
query. `Fresh` excludes just that: no query is given an id that is in flight. A
user who never cancels a query before it is done cannot violate it.
-/

namespace LmTransport.Ref.Libasyncns

/-! ## The relation -/

/-- A query of the client and a query of the service. -/
def Matches : Option Query → Option Entry → Prop
  | none, none => True
  | some q, some e => q.type = e.call.type ∧ q.done = e.outcome.isSome ∧
      q.outcome = e.outcome.getD {}
  | _, _ => False

/-- The query with this id, if there is one, waits for the outcome of this
call. -/
def Owes (a : Asyncns) (t : Service) (id : UInt32) (call : Call) : Prop :=
  ∀ p q, a.bare p = some q → q.id = id → t.queries p = some { call }

structure Implements (libc : LibcCall → LibcResult → Prop) (s : Net) (t : Service) : Prop where
  alive : s.aborted = false
  dead : t.dead = s.client.dead
  wf : s.client.Wf t.done
  queries : ∀ p, Matches (s.client.bare p) (t.queries p)
  once : ∀ id, s.inFlight id ≤ 1
  carries : s.Carries libc (Owes s.client t)

/-! ## What the user and the C library keep to -/

/-- No new query is given an id that is in flight. -/
def Fresh (s : Net) : Label → Prop
  | .submit call malloc send => ¬Refused s.client call malloc send →
      ∀ b ∈ skipQueries maxQueries s.client, s.inFlight b.currentId = 0
  | _ => True

/-- The interface as the user has to use it, and the C library as `libc` has it.
Addresses fit a `struct sockaddr_storage` and answers fit the buffer of the
client. -/
def Proper (libc : LibcCall → LibcResult → Prop) (s : Net) : Label → Prop
  | .submit call _ _ => call.valid = true ∧ call.sockaddrFits = true
  | .fetch fetch p => ∀ q ∈ s.client.heap p, fetch.accepts q.type = true
  | .reply w result _ =>
      match s.workers[w]? with
      | some (.working _ call) => libc call result ∧ result.short = true
      | _ => True
  | _ => True

instance (s : Net) : (label : Label) → Decidable (Fresh s label)
  | .submit call malloc send =>
      inferInstanceAs (Decidable (¬Refused s.client call malloc send →
        ∀ b ∈ skipQueries maxQueries s.client, s.inFlight b.currentId = 0))
  | .receive _ | .fetch .. | .cancel _ | .getnext | .isdone _ | .take _ | .reply .. | .leave _
  | .announce .. | .kill _ => isTrue trivial

instance (libc : LibcCall → LibcResult → Prop) [∀ c r, Decidable (libc c r)] (s : Net) :
    (label : Label) → Decidable (Proper libc s label)
  | .submit call _ _ =>
      inferInstanceAs (Decidable (call.valid = true ∧ call.sockaddrFits = true))
  | .fetch fetch p =>
      inferInstanceAs (Decidable (∀ q ∈ s.client.heap p, fetch.accepts q.type = true))
  | .reply w result _ =>
      match h : s.workers[w]? with
      | some (.working _ call) =>
          decidable_of_iff (libc call result ∧ result.short = true) (by rw [Proper, h])
      | some .waiting | some .leaving | some .gone | none => isTrue (by rw [Proper, h]; trivial)
  | .receive _ | .cancel _ | .getnext | .isdone _ | .take _ | .leave _ | .announce .. | .kill _ =>
      isTrue trivial

variable {libc : LibcCall → LibcResult → Prop} {s s' : Net} {t : Service} {capacity : Nat}
  {p : Ptr}

theorem Implements.exists_entry (h : Implements libc s t) {q : Query}
    (hp : s.client.bare p = some q) :
    ∃ e, t.queries p = some e ∧ q.type = e.call.type ∧ q.done = e.outcome.isSome ∧
      q.outcome = e.outcome.getD {} := by
  have hmatch := h.queries p
  rw [hp] at hmatch
  cases he : t.queries p with
  | none =>
      rw [he] at hmatch
      exact hmatch.elim
  | some e =>
      rw [he] at hmatch
      exact ⟨e, rfl, hmatch⟩

theorem Implements.queries_eq_none (h : Implements libc s t) :
    t.queries p = none ↔ s.client.bare p = none := by
  have hmatch := h.queries p
  constructor
  · intro ht
    cases hp : s.client.bare p with
    | none => rfl
    | some q =>
        rw [ht, hp] at hmatch
        exact hmatch.elim
  · intro hp
    cases ht : t.queries p with
    | none => rfl
    | some e =>
        rw [ht, hp] at hmatch
        exact hmatch.elim

/-! ## Steps that are not seen

A step of a worker changes neither the client nor the service. -/

theorem Implements.of_worker (h : Implements libc s t) (hclient : s'.client = s.client)
    (haborted : s'.aborted = s.aborted) (hflight : ∀ id, s'.inFlight id ≤ s.inFlight id)
    (hcarries : s'.Carries libc (Owes s.client t)) : Implements libc s' t where
  alive := haborted.trans h.alive
  dead := by rw [hclient, h.dead]
  wf := by rw [hclient]; exact h.wf
  queries p := by rw [hclient]; exact h.queries p
  once id := Nat.le_trans (hflight id) (h.once id)
  carries := by rw [hclient]; exact hcarries

/-! ## Submitting -/

/-- The client changed in a way that cannot be seen. -/
theorem Implements.of_bare {b : Asyncns} (h : Implements libc s t) (hbare : b.bare = s.client.bare)
    (hdead : b.dead = s.client.dead) (hwf : b.Wf t.done) :
    Implements libc (s.setClient (some b)) t where
  alive := h.alive
  dead := h.dead.trans hdead.symm
  wf := hwf
  queries p := by
    show Matches (b.bare p) (t.queries p)
    rw [hbare]
    exact h.queries p
  once := h.once
  carries := by
    have hcarries : (s.setClient (some b)).Carries libc (Owes s.client t) :=
      ⟨h.carries.requests, h.carries.workers, h.carries.responses⟩
    refine hcarries.mono fun id call _ ho p q hp hq => ho p q ?_ hq
    rw [← hbare]
    exact hp

/-- The service with a query more. -/
def Service.add (t : Service) (p : Ptr) (call : Call) : Service :=
  { t with queries := Function.update t.queries p (some { call }) }

theorem Service.add_queries (t : Service) (p : Ptr) (call : Call) :
    (t.add p call).queries = Function.update t.queries p (some { call }) := rfl

theorem Service.remove_queries (t : Service) (p : Ptr) :
    (t.remove p).queries = Function.update t.queries p none := rfl

theorem Implements.submit {a : Asyncns} {call : Call} (h : Implements libc s t)
    (hbare : a.bare = s.client.bare) (hdead : a.dead = s.client.dead) (hwf : a.Wf t.done)
    (hfree : a.queries a.currentIndex = none) (hp : a.bare p = none)
    (hfresh : s.inFlight a.currentId = 0) (hlength : call.length ≤ bufsize)
    (hfits : call.sockaddrFits = true) :
    Implements libc
      { s.setClient (some (a.insert p call.type)) with
        requests := s.requests ++ [call.bytes a.currentId] } (t.add p call) where
  alive := h.alive
  dead := h.dead.trans hdead.symm
  wf := hwf.insert call.type hfree hp
  queries r := by
    show Matches ((a.insert p call.type).bare r) ((t.add p call).queries r)
    rw [Asyncns.bare_insert, Service.add_queries, Function.update_apply, Function.update_apply]
    split
    · exact ⟨rfl, rfl, rfl⟩
    · rw [hbare]
      exact h.queries r
  once id := by
    have honce := h.once id
    rw [Net.inFlight_submit]
    split
    · next hid => rw [← hid, hfresh]
    · omega
  carries := by
    -- what was in flight is for other ids, and they stand for what they stood for
    have hmono : ∀ id c, 0 < s.inFlight id → Owes s.client t id c →
        Owes (a.insert p call.type) (t.add p call) id c := by
      intro id c hpos ho r q hr hq
      have hne : id ≠ a.currentId := fun heq => by rw [heq, hfresh] at hpos; omega
      rw [Asyncns.bare_insert, Function.update_apply] at hr
      split at hr
      · obtain rfl := Option.some.inj hr
        exact absurd hq.symm hne
      · next hrp =>
          rw [Service.add_queries, Function.update_of_ne hrp]
          exact ho r q (hbare ▸ hr) hq
    have hnew : Owes (a.insert p call.type) (t.add p call) a.currentId call := by
      intro r q hr hq
      rw [Asyncns.bare_insert, Function.update_apply] at hr
      split at hr
      · next hrp => rw [hrp, Service.add_queries, Function.update_self]
      · exact absurd (congrArg slotOf hq) (hwf.id_ne hfree hr)
    have hold := h.carries.mono hmono
    refine ⟨fun d hd => ?_, hold.workers, hold.responses⟩
    rcases List.mem_append.mp hd with hd | hd
    · exact hold.requests d hd
    · rw [List.mem_singleton] at hd
      exact ⟨a.currentId, call, hd, hlength, hfits, hnew⟩

/-! ## Taking a query away -/

theorem Implements.remove {q : Query} (h : Implements libc s t) (hp : s.client.heap p = some q) :
    Implements libc (s.setClient (some (s.client.remove p q))) (t.remove p) where
  alive := h.alive
  dead := h.dead.trans (Asyncns.remove_dead ..).symm
  wf := (h.wf.cancel hp).2
  queries r := by
    show Matches ((s.client.remove p q).bare r) ((t.remove p).queries r)
    rw [Asyncns.bare_remove, Service.remove_queries, Function.update_apply, Function.update_apply]
    split
    · trivial
    · exact h.queries r
  once := h.once
  carries := by
    have hcarries : (s.setClient (some (s.client.remove p q))).Carries libc (Owes s.client t) :=
      ⟨h.carries.requests, h.carries.workers, h.carries.responses⟩
    refine hcarries.mono fun id call _ ho r b hr hb => ?_
    rw [show (s.setClient (some (s.client.remove p q))).client = s.client.remove p q from rfl,
      Asyncns.bare_remove, Function.update_apply] at hr
    split at hr
    · cases hr
    · next hrp =>
        rw [Service.remove_queries, Function.update_of_ne hrp]
        exact ho r b hr hb

/-! ## Receiving -/

/-- The service with an outcome more. -/
def Service.finish (t : Service) (p : Ptr) (call : Call) (outcome : Outcome) : Service :=
  { t with
    queries := Function.update t.queries p (some { call, outcome := some outcome })
    done := t.done ++ [p] }

theorem Service.finish_queries (t : Service) (p : Ptr) (call : Call) (outcome : Outcome) :
    (t.finish p call outcome).queries =
      Function.update t.queries p (some { call, outcome := some outcome }) := rfl

/-- The net once the client has handled the first response. -/
def Net.received (s : Net) (client : Asyncns) (rest : List (List UInt8)) : Net :=
  { s.setClient (some client) with responses := rest }

/-- What is left in flight after a response has been received. -/
theorem Net.Carries.received {owes : UInt32 → Call → Prop} {d : List UInt8}
    {rest : List (List UInt8)} (h : s.Carries libc owes) (hresponses : s.responses = d :: rest)
    (client : Asyncns) :
    (s.received client rest).Carries libc owes ∧
      ∀ id, (s.received client rest).inFlight id + (if forResponse id d then 1 else 0) =
        s.inFlight id := by
  refine ⟨⟨h.requests, h.workers, fun e he => h.responses e ?_⟩, fun id => ?_⟩
  · rw [hresponses]
    exact List.mem_cons_of_mem _ he
  · rw [Net.inFlight, Net.inFlight, hresponses, List.countP_cons]
    simp only [Net.received, Net.setClient]
    omega

/-- A response that changes nothing but whether the context is dead. -/
theorem Implements.dropResponse {d : List UInt8} {rest : List (List UInt8)}
    (h : Implements libc s t) (hresponses : s.responses = d :: rest) : Implements libc (s.received s.client rest) t := by
  obtain ⟨hcarries, hflight⟩ := h.carries.received hresponses s.client
  exact ⟨h.alive, h.dead, h.wf, h.queries,
    fun id => Nat.le_trans (Nat.le.intro (hflight id)) (h.once id), hcarries⟩

theorem Implements.die {d : List UInt8} {rest : List (List UInt8)} (h : Implements libc s t)
    (hresponses : s.responses = d :: rest) :
    Implements libc (s.received { s.client with dead := true } rest) { t with dead := true } := by
  obtain ⟨hcarries, hflight⟩ := h.carries.received hresponses { s.client with dead := true }
  exact ⟨h.alive, rfl, ⟨h.wf.cursor, h.wf.slot_some, h.wf.heap_some, h.wf.count, h.wf.links,
    h.wf.mem_done⟩, h.queries,
    fun id => Nat.le_trans (Nat.le.intro (hflight id)) (h.once id), hcarries⟩

/-- The response to a query. What else is in flight is for other ids. -/
theorem Implements.finish {q : Query} {call : Call} {outcome : Outcome} {d : List UInt8}
    {rest : List (List UInt8)} (h : Implements libc s t) (hp : s.client.heap p = some q)
    (hentry : t.queries p = some { call }) (hresponses : s.responses = d :: rest)
    (hfor : forResponse q.id d = true)
    (hwf : ((s.client.store p outcome).complete p).Wf (t.done ++ [p]))
    (hbare : ((s.client.store p outcome).complete p).bare =
      Function.update s.client.bare p (some { q.bare with outcome, done := true })) :
    Implements libc (s.received ((s.client.store p outcome).complete p) rest)
      (t.finish p call outcome) := by
  obtain ⟨e, he, htype, -, -⟩ := h.exists_entry (Asyncns.bare_of_heap hp)
  rw [hentry, Option.some.injEq] at he
  subst he
  obtain ⟨hcarries, hflight⟩ :=
    h.carries.received hresponses ((s.client.store p outcome).complete p)
  have hgone : (s.received ((s.client.store p outcome).complete p) rest).inFlight q.id = 0 := by
    have hold := hflight q.id
    have honce := h.once q.id
    rw [hfor, if_pos rfl] at hold
    omega
  refine ⟨h.alive, h.dead, hwf, fun r => ?_,
    fun id => Nat.le_trans (Nat.le.intro (hflight id)) (h.once id),
    hcarries.mono fun id c hpos ho r b hr hb => ?_⟩
  · show Matches (((s.client.store p outcome).complete p).bare r)
      ((t.finish p call outcome).queries r)
    rw [hbare, Service.finish_queries, Function.update_apply, Function.update_apply]
    split
    · exact ⟨htype, rfl, rfl⟩
    · exact h.queries r
  · have hne : id ≠ q.id := fun heq => by rw [heq, hgone] at hpos; omega
    have hr' : ((s.client.store p outcome).complete p).bare r = some b := hr
    rw [hbare, Function.update_apply] at hr'
    split at hr'
    · obtain rfl := Option.some.inj hr'
      exact absurd hb.symm hne
    · next hrp =>
        rw [Service.finish_queries, Function.update_of_ne hrp]
        exact ho r b hr' hb

/-- A reply completes the query it is for, if the client still has it. -/
theorem Implements.handleResponse_cases (h : Implements libc s t) {id : UInt32} {call : Call}
    {result : LibcResult} {d : List UInt8} (hreplies : RepliesTo id call result d)
    (ho : Owes s.client t id call) (malloc : Nat → Bool) :
    ((∀ p q, s.client.bare p = some q → q.id ≠ id) ∧
        handleResponse malloc d s.client = some s.client) ∨
      ∃ p q outcome, s.client.heap p = some q ∧ q.done = false ∧ q.id = id ∧
        t.queries p = some { call } ∧
        (Delivers call.libc result outcome ∨ RanOut call.libc result outcome) ∧
        ((s.client.store p outcome).complete p).Wf (t.done ++ [p]) ∧
        ((s.client.store p outcome).complete p).bare =
          Function.update s.client.bare p (some { q.bare with outcome, done := true }) ∧
        handleResponse malloc d s.client = some ((s.client.store p outcome).complete p) := by
  by_cases hfound : ∃ p q, s.client.bare p = some q ∧ q.id = id
  · right
    obtain ⟨p, b, hp, hid⟩ := hfound
    have hentry := ho p b hp hid
    obtain ⟨e, he, htype, hdone, houtcome⟩ := h.exists_entry hp
    rw [hentry, Option.some.injEq] at he
    subst he
    obtain ⟨q, hq, rfl⟩ := Asyncns.exists_heap_of_bare hp
    obtain ⟨outcome, hreceive, hdelivers⟩ := hreplies.outcome malloc
    have hnew : q.outcome = {} := houtcome
    have hquery : q.id = id := hid
    obtain ⟨hhandle, hwf, hbare⟩ := h.wf.handleResponse_completes malloc hreplies.header
      hreplies.not_died hq (hquery.trans hreplies.id_eq.symm) hdone
      (by rw [hnew, show q.type = call.type from htype]; exact hreceive)
    exact ⟨p, q, outcome, hq, hdone, hquery, hentry, hdelivers, hwf, hbare, hhandle⟩
  · left
    have hnobody : ∀ p q, s.client.bare p = some q → q.id ≠ id :=
      fun p q hp hq => hfound ⟨p, q, hp, hq⟩
    exact ⟨hnobody, h.wf.handleResponse_unknown malloc hreplies.header hreplies.not_died
      fun p q hp => hreplies.id_eq ▸ hnobody p q hp⟩

/-- A response: the word that a worker died, one that nobody waits for, or the
outcome of a query. -/
theorem Implements.receive_cases (h : Implements libc s t) {malloc : Nat → Bool}
    (hstep : s.receive malloc = some s') :
    s.client.dead = false ∧ ∃ d rest, s.responses = d :: rest ∧
      (((∀ id, forResponse id d = false) ∧
          s' = s.received { s.client with dead := true } rest) ∨
        (∃ id, (∀ i, forResponse i d = decide (id = i)) ∧
          (∀ p q, s.client.bare p = some q → q.id ≠ id) ∧ s' = s.received s.client rest) ∨
        ∃ p q call result outcome, s.client.heap p = some q ∧ q.done = false ∧
          (∀ i, forResponse i d = decide (q.id = i)) ∧ t.queries p = some { call } ∧
          libc call.libc result ∧
          (Delivers call.libc result outcome ∨ RanOut call.libc result outcome) ∧
          ((s.client.store p outcome).complete p).Wf (t.done ++ [p]) ∧
          ((s.client.store p outcome).complete p).bare =
            Function.update s.client.bare p (some { q.bare with outcome, done := true }) ∧
          s' = s.received ((s.client.store p outcome).complete p) rest) := by
  unfold Net.receive at hstep
  split at hstep
  · cases hstep
  · next hdead =>
      refine ⟨by simpa using hdead, ?_⟩
      split at hstep
      · cases hstep
      · next d rest hresponses =>
          refine ⟨d, rest, hresponses, ?_⟩
          rw [Option.some.injEq] at hstep
          subst hstep
          have hd : d ∈ s.responses := by rw [hresponses]; exact List.mem_cons_self ..
          rcases h.carries.responses d hd with
            hdied | ⟨id, call, result, hreplies, hlength, hlibc, ho⟩
          · left
            rw [hdied]
            refine ⟨forResponse_diedBytes, ?_⟩
            rw [handleResponse_died malloc (by decide) (by decide)]
            rfl
          · rw [List.take_of_length_le hlength]
            right
            rcases h.handleResponse_cases hreplies ho malloc with ⟨hnobody, hhandle⟩ |
              ⟨p, q, outcome, hq, hdone, rfl, hentry, hdelivers, hwf, hbare, hhandle⟩
            · left
              refine ⟨id, hreplies.forResponse, hnobody, ?_⟩
              rw [hhandle]
              rfl
            · right
              refine ⟨p, q, call, result, outcome, hq, hdone, hreplies.forResponse, hentry, hlibc,
                hdelivers, hwf, hbare, ?_⟩
              rw [hhandle]
              rfl

/-! ## One step of the net

For each step of the net, the steps of the service that look the same. -/

/-- A step of the net is not seen, or the service makes one that looks the
same. -/
def Answered (libc : LibcCall → LibcResult → Prop) (s : Net) (t : Service) (label : Label)
    (s' : Net) : Prop :=
  (netEvents s label = [] ∧ Implements libc s' t) ∨
    ∃ b t', serviceStep libc t b = some t' ∧ serviceEvents t b = netEvents s label ∧
      Implements libc s' t'

variable {label : Label} {t' : Service}

/-- Nothing is seen, and nothing happens in the service. -/
theorem Answered.silent (hevents : netEvents s label = []) (h : Implements libc s' t) :
    Answered libc s t label s' := Or.inl ⟨hevents, h⟩

theorem Answered.single (b : ServiceLabel) (hstep : serviceStep libc t b = some t')
    (hevents : serviceEvents t b = netEvents s label) (h : Implements libc s' t') :
    Answered libc s t label s' := Or.inr ⟨b, t', hstep, hevents, h⟩

theorem serviceStep_submit {call : Call} (hdead : t.dead = false) (hp : t.queries p = none) :
    serviceStep libc t (.submit call p) = some (t.add p call) := by
  rw [serviceStep, if_neg (by simp [hdead, hp])]
  rfl

theorem serviceStep_complete {call : Call} {result : LibcResult} {outcome : Outcome}
    (hdead : t.dead = false) (hp : t.queries p = some { call }) (hlibc : libc call.libc result)
    (hdelivers : Delivers call.libc result outcome ∨ RanOut call.libc result outcome) :
    serviceStep libc t (.complete p result outcome) = some (t.finish p call outcome) := by
  simp only [serviceStep, hp]
  rw [if_pos ⟨by simp [hdead], hlibc, hdelivers⟩]
  rfl

theorem Implements.answered_submit (h : Implements libc s t) {call : Call} {malloc : Option Ptr}
    {send : Bool} (hvalid : call.valid = true) (hfits : call.sockaddrFits = true)
    (hfresh : Fresh s (.submit call malloc send)) (halloc : s.canAlloc malloc = true)
    (hstep : s.submit capacity call malloc send = some s') :
    Answered libc s t (.submit call malloc send) s' := by
  have hmalloc : ∀ p, malloc = some p → s.client.bare p = none := by
    rintro p rfl
    exact Asyncns.bare_eq_none.mpr (by simpa [Net.canAlloc] using halloc)
  rcases h.wf.submit send hvalid hmalloc with
    ⟨-, b, hsubmit, hbare, hdead, hwf⟩ | ⟨haccept, p, k, hp, hskip, hfree, hsubmit⟩
  · simp only [Net.submit, hsubmit, Option.some.injEq] at hstep
    subst hstep
    refine .single (.refuse call) rfl ?_ (h.of_bare hbare hdead hwf)
    simp [serviceEvents, netEvents, hsubmit]
  · simp only [Net.submit, hsubmit, Option.ite_none_right_eq_some, Option.some.injEq] at hstep
    obtain ⟨-, rfl⟩ := hstep
    have hbare := hmalloc p hp
    have hlength : call.length ≤ bufsize := by
      rw [← Nat.not_lt]
      exact fun hlong => haccept (Or.inr (Or.inr (Or.inr (Or.inl hlong))))
    have hdead : t.dead = false := by
      rw [h.dead, ← Bool.not_eq_true]
      exact fun hd => haccept (Or.inl hd)
    refine .single (.submit call p) (serviceStep_submit hdead (h.queries_eq_none.mpr hbare)) ?_
      (h.submit rfl rfl (h.wf.advance k) hfree hbare (hfresh haccept _ hskip) hlength hfits)
    simp [serviceEvents, netEvents, hsubmit]

theorem Implements.answered_receive (h : Implements libc s t) {malloc : Nat → Bool}
    (hstep : s.receive malloc = some s') : Answered libc s t (.receive malloc) s' := by
  obtain ⟨hdead, d, rest, hresponses, ⟨-, rfl⟩ | ⟨id, -, -, rfl⟩ |
    ⟨p, q, call, result, outcome, hp, -, hfor, hentry, hlibc, hdelivers, hwf, hbare, rfl⟩⟩ :=
    h.receive_cases hstep
  · exact .single .die rfl rfl (h.die hresponses)
  · exact .silent rfl (h.dropResponse hresponses)
  · exact .single (.complete p result outcome)
      (serviceStep_complete (h.dead.trans hdead) hentry hlibc hdelivers) rfl
      (h.finish hp hentry hresponses (by rw [hfor]; simp) hwf hbare)

theorem Implements.answered_fetch (h : Implements libc s t) {f : Fetch}
    (haccepts : ∀ q, s.client.heap p = some q → f.accepts q.type = true)
    (hstep : (if (s.client.heap p).isNone then none
      else some (s.setClient ((asyncnsDone f p s.client).map (·.2)))) = some s') :
    Answered libc s t (.fetch f p) s' := by
  cases hp : s.client.heap p with
  | none => simp [hp] at hstep
  | some q =>
      obtain ⟨e, he, htype, hdone, houtcome⟩ := h.exists_entry (Asyncns.bare_of_heap hp)
      have hacc := haccepts q hp
      have hfetch := h.wf.fetch hp hacc
      rw [hp] at hstep
      simp only [Option.isNone_some, Bool.false_eq_true, if_false, Option.some.injEq] at hstep
      rw [Query.bare_type] at htype
      rw [Query.bare_done] at hdone
      rw [Query.bare_outcome] at houtcome
      by_cases hdead : s.client.dead = true
      · rw [if_pos hdead] at hfetch
        rw [hfetch] at hstep
        subst hstep
        refine .single (.fetch f p) ?_ ?_ h
        · simp [serviceStep, he, ← htype, hacc, h.dead, hdead]
        · simp [serviceEvents, netEvents, he, hfetch, Service.answer, h.dead, hdead]
      · rw [if_neg hdead] at hfetch
        cases hout : e.outcome with
        | none =>
            rw [hout] at hdone
            rw [hdone, if_neg (by simp)] at hfetch
            rw [hfetch] at hstep
            subst hstep
            refine .single (.fetch f p) ?_ ?_ h
            · simp [serviceStep, he, ← htype, hacc, hout]
            · simp [serviceEvents, netEvents, he, hfetch, Service.answer, h.dead, hdead, hout]
        | some outcome =>
            rw [hout] at hdone houtcome
            rw [hdone, if_pos (by simp)] at hfetch
            rw [hfetch] at hstep
            subst hstep
            refine .single (.fetch f p) ?_ ?_ (h.remove hp)
            · simp [serviceStep, he, ← htype, hacc, h.dead, hdead, hout]
            · simp [serviceEvents, netEvents, he, hfetch, Service.answer, h.dead, hdead, hout,
                houtcome]

theorem Implements.answered_cancel (h : Implements libc s t)
    (hstep : (if (s.client.heap p).isNone then none
      else some (s.setClient (asyncnsCancel p s.client))) = some s') :
    Answered libc s t (.cancel p) s' := by
  cases hp : s.client.heap p with
  | none => simp [hp] at hstep
  | some q =>
      obtain ⟨e, he, -⟩ := h.exists_entry (Asyncns.bare_of_heap hp)
      rw [hp, (h.wf.cancel hp).1] at hstep
      simp only [Option.isNone_some, Bool.false_eq_true, if_false, Option.some.injEq] at hstep
      subst hstep
      refine .single (.cancel p) ?_ rfl (h.remove hp)
      simp [serviceStep, he]

theorem Implements.answered_isdone (h : Implements libc s t)
    (hstep : (if (s.client.heap p).isNone then none else some s) = some s') :
    Answered libc s t (.isdone p) s' := by
  cases hp : s.client.heap p with
  | none => simp [hp] at hstep
  | some q =>
      obtain ⟨e, he, -, hdone, -⟩ := h.exists_entry (Asyncns.bare_of_heap hp)
      rw [Query.bare_done] at hdone
      rw [hp] at hstep
      simp only [Option.isNone_some, Bool.false_eq_true, if_false, Option.some.injEq] at hstep
      subst hstep
      refine .single (.isdone p) ?_ ?_ h
      · simp [serviceStep, he]
      · simp [serviceEvents, netEvents, asyncnsIsdone, he, hp, hdone]

theorem Implements.answered_workerEnds (h : Implements libc s t) (hevents : netEvents s label = [])
    (hstep : s.workerEnds capacity label = some s') : Answered libc s t label s' := by
  obtain ⟨hcarries, hflight, hclient, haborted⟩ := h.carries.workerEnds hstep
  exact .silent hevents (h.of_worker hclient haborted hflight hcarries)

/-- The steps of the workers and the client are steps of the service, or not
seen at all. -/
theorem implements_follows (libc : LibcCall → LibcResult → Prop) (capacity : Nat) :
    Lts.Follows (netStep capacity) netEvents (fun s label => Fresh s label ∧ Proper libc s label)
      (serviceStep libc) serviceEvents (Implements libc) := by
  intro s label s' t h hc hstep
  obtain ⟨hfresh, hproper⟩ := hc
  show Answered libc s t label s'
  cases label with
  | submit call malloc send =>
      simp only [netStep, h.alive, Bool.false_eq_true, if_false, Net.clientStep,
        Option.ite_none_right_eq_some] at hstep
      exact h.answered_submit hproper.1 hproper.2 hfresh hstep.1 hstep.2
  | receive malloc =>
      simp only [netStep, h.alive, Bool.false_eq_true, if_false, Net.clientStep] at hstep
      exact h.answered_receive hstep
  | fetch f p =>
      simp only [netStep, h.alive, Bool.false_eq_true, if_false, Net.clientStep] at hstep
      exact h.answered_fetch hproper hstep
  | cancel p =>
      simp only [netStep, h.alive, Bool.false_eq_true, if_false, Net.clientStep] at hstep
      exact h.answered_cancel hstep
  | getnext =>
      simp only [netStep, h.alive, Bool.false_eq_true, if_false, Net.clientStep,
        Option.some.injEq] at hstep
      subst hstep
      refine .single .getnext rfl ?_ h
      simp only [serviceEvents, netEvents, ← h.wf.links.head_eq]
      rfl
  | isdone p =>
      simp only [netStep, h.alive, Bool.false_eq_true, if_false, Net.clientStep] at hstep
      exact h.answered_isdone hstep
  | take w =>
      obtain ⟨hcarries, hflight, hclient, haborted⟩ := h.carries.take hstep
      exact .silent rfl
        (h.of_worker hclient haborted (fun id => Nat.le_of_eq (hflight id)) hcarries)
  | reply w result send =>
      have hresult : ∀ id call, s.workers[w]? = some (.working id call) →
          libc call result ∧ result.short = true := fun id call hw => by
        rw [Proper, hw] at hproper
        exact hproper
      obtain ⟨hcarries, hflight, hclient, haborted⟩ := h.carries.reply hresult hstep
      exact .silent rfl (h.of_worker hclient haborted hflight hcarries)
  | leave w =>
      have hends : s.workerEnds capacity (.leave w) = some s' := hstep
      exact h.answered_workerEnds rfl hends
  | announce w send =>
      have hends : s.workerEnds capacity (.announce w send) = some s' := hstep
      exact h.answered_workerEnds rfl hends
  | kill w =>
      have hends : s.workerEnds capacity (.kill w) = some s' := hstep
      exact h.answered_workerEnds rfl hends

theorem implements_simulates (libc : LibcCall → LibcResult → Prop) (capacity : Nat) :
    Lts.Simulates (netStep capacity) netEvents (fun s label => Fresh s label ∧ Proper libc s label)
      (serviceStep libc) serviceEvents (Implements libc) :=
  (implements_follows libc capacity).simulates

/-! ## Runs -/

theorem inFlight_new (nProc : Nat) (id : UInt32) : (asyncnsNew nProc).inFlight id = 0 := by
  have hidle :
      (List.replicate (min nProc maxWorkers) Worker.waiting).countP (forWorker id) = 0 := by
    rw [List.countP_eq_zero]
    intro x hx
    rw [List.eq_of_mem_replicate hx]
    simp [forWorker]
  simp [Net.inFlight, asyncnsNew, hidle]

theorem implements_new (libc : LibcCall → LibcResult → Prop) (nProc : Nat) :
    Implements libc (asyncnsNew nProc) {} where
  alive := rfl
  dead := rfl
  wf := Asyncns.Wf.empty
  queries _ := trivial
  once id := by
    rw [inFlight_new]
    exact Nat.zero_le 1
  carries := by
    refine ⟨fun d hd => ?_, fun id c hc => ?_, fun d hd => ?_⟩
    · cases hd
    · cases List.eq_of_mem_replicate hc
    · cases hd

/-- Every state a run reaches stands for a state of the service. -/
theorem exists_implements {libc : LibcCall → LibcResult → Prop} {capacity nProc : Nat}
    {labels : List Label}
    (hlabels : Lts.Meets (netStep capacity) (fun s label => Fresh s label ∧ Proper libc s label)
      (asyncnsNew nProc) labels)
    (hrun : Lts.exec (netStep capacity) (asyncnsNew nProc) labels = some s) :
    ∃ bs t, Lts.exec (serviceStep libc) {} bs = some t ∧
      Lts.trace (serviceStep libc) serviceEvents {} bs =
        Lts.trace (netStep capacity) netEvents (asyncnsNew nProc) labels ∧
      Implements libc s t :=
  (implements_simulates libc capacity).exists_run (implements_new libc nProc) hlabels hrun

/-- Whatever the workers do and in whatever order, the user sees a service that
answers every call with a result of its own, and no assertion of the client
fails. -/
theorem net_refines_service (libc : LibcCall → LibcResult → Prop) (capacity nProc : Nat)
    {labels : List Label}
    (hlabels : Lts.Meets (netStep capacity) (fun s label => Fresh s label ∧ Proper libc s label)
      (asyncnsNew nProc) labels)
    (hrun : Lts.exec (netStep capacity) (asyncnsNew nProc) labels = some s) :
    s.aborted = false ∧ ∃ bs t, Lts.exec (serviceStep libc) {} bs = some t ∧
      Lts.trace (serviceStep libc) serviceEvents {} bs =
        Lts.trace (netStep capacity) netEvents (asyncnsNew nProc) labels := by
  obtain ⟨bs, t, hexec, htrace, himpl⟩ := exists_implements hlabels hrun
  exact ⟨himpl.alive, bs, t, hexec, htrace⟩

/-- A lookup that is submitted, worked on, received and fetched. -/
def oneLookup : List Label :=
  [.submit (.resQuery (strndup [97] 1) 1 33) (some 7) true, .getnext, .take 0,
    .reply 0 (.res ⟨2, 0, 0⟩ [1, 2]) true, .fetch .res 7, .receive fun _ => true, .getnext,
    .fetch .res 7]

theorem net_refines_service_oneLookup :
    ∃ s, Lts.exec (netStep 1) (asyncnsNew 1) oneLookup = some s ∧ s.aborted = false ∧
      ∃ bs t, Lts.exec (serviceStep fun _ _ => True) {} bs = some t ∧
        Lts.trace (serviceStep fun _ _ => True) serviceEvents {} bs =
          Lts.trace (netStep 1) netEvents (asyncnsNew 1) oneLookup := by
  have hlabels : Lts.Meets (netStep 1)
      (fun s label => Fresh s label ∧ Proper (fun _ _ => True) s label) (asyncnsNew 1)
      oneLookup := by decide +kernel
  have hsome : (Lts.exec (netStep 1) (asyncnsNew 1) oneLookup).isSome := by decide +kernel
  obtain ⟨s, hrun⟩ := Option.isSome_iff_exists.mp hsome
  exact ⟨s, hrun, net_refines_service (fun _ _ => True) 1 1 hlabels hrun⟩

end LmTransport.Ref.Libasyncns
