import LmTransport.Proofs.AsyncnsSafety
import LmTransport.Ref.AsyncnsOneQuery

/-!
# A resolver need not know about the processes

With one query at a time, a user of `asyncns.c` sees what a user of the small
context sees, however many workers there are and whatever they do. The service
stands between the two: the processes follow it, and the context can do what the
service does (`Shown`). The context's worker answers, and dies, at the moment the
client hears of it.

A query that was cancelled leaves its request behind. It is answered before the
next query, when nobody waits for it.
-/

namespace LmTransport.Ref.Libasyncns

variable {libc : LibcCall → LibcResult → Prop} {t t' : Service} {a : Ref.Asyncns} {p : Ptr}

/-! ## The relation -/

/-- The response of the small context with this outcome. `asyncns_res_done`
returns `-errno`, which is taken in `int`. -/
def Outcome.response (q : Outcome) : Ref.QueryType → AsyncnsResponse
  | .addrinfo => .addrinfo q.ret.toInt (q.addrinfo.map (·.toAddrInfo))
  | .resQuery => .res q.ret.toInt (-(-q.errno).toInt) (answerMemory q.serv)

theorem Outcome.queryType_response (q : Outcome) (type : Ref.QueryType) :
    (q.response type).queryType = some type := by
  cases type <;> rfl

/-- A query of the small context with this outcome. -/
def shownQuery (type : Ref.QueryType) : Option Outcome → AsyncnsQuery
  | none => {}
  | some q =>
      match type with
      | .addrinfo =>
          { done := true, ret := q.ret.toInt, addrinfo := q.addrinfo.map (·.toAddrInfo) }
      | .resQuery =>
          { done := true, ret := q.ret.toInt, errno := -(-q.errno).toInt,
            serv := answerMemory q.serv }

theorem shownQuery_done (type : Ref.QueryType) (outcome : Option Outcome) :
    (shownQuery type outcome).done = outcome.isSome := by
  cases outcome with
  | none => rfl
  | some q => cases type <;> rfl

/-- The service has one query at most, and the context has it. A query that has
no outcome is the only request. -/
structure Shown (t : Service) (a : Ref.Asyncns) : Prop where
  dead : a.dead = t.dead
  worker : t.dead = false → a.worker = true
  responses : a.responses = []
  requests : a.requests = [] ∨ ∃ type, a.requests = [type]
  empty : (∀ r, t.queries r = none) → a.query = none
  entry : ∀ r e, t.queries r = some e → (∀ r', r' ≠ r → t.queries r' = none) ∧
    ∃ type, e.call.kind = some type ∧ a.query = some (shownQuery type e.outcome) ∧
      (e.outcome = none → a.requests = [type])

theorem shown_new (fd : Int) : Shown {} (Ref.asyncnsNew fd) where
  dead := rfl
  worker _ := rfl
  responses := rfl
  requests := Or.inl rfl
  empty _ := rfl
  entry r e he := by cases he

/-- A run of the context in which these events are seen. -/
def Echoed (a : Ref.Asyncns) (events : List Event) (t' : Service) : Prop :=
  ∃ bs a', Lts.exec Ref.Asyncns.contextStep a bs = some a' ∧
    Lts.trace Ref.Asyncns.contextStep Ref.Asyncns.contextEvents a bs =
      events.flatMap Event.seen ∧ Shown t' a'

theorem Echoed.single {a' : Ref.Asyncns} {events : List Event} (b : ContextLabel)
    (hstep : a.contextStep b = some a') (hevents : a.contextEvents b = events.flatMap Event.seen)
    (h : Shown t a') : Echoed a events t := by
  have hrun : Lts.exec Ref.Asyncns.contextStep a [b] = some a' ∧
      Lts.trace Ref.Asyncns.contextStep Ref.Asyncns.contextEvents a [b] = a.contextEvents b :=
    Lts.exec_trace_singleton hstep
  exact ⟨[b], a', hrun.1, hrun.2.trans hevents, h⟩

theorem Echoed.silent {events : List Event} (hevents : events.flatMap Event.seen = [])
    (h : Shown t a) : Echoed a events t := ⟨[], a, rfl, hevents.symm, h⟩

/-- What is not seen can come before anything else. -/
theorem Echoed.of_silent {b : Ref.Asyncns} {bs : List ContextLabel} {events : List Event}
    (hexec : Lts.exec Ref.Asyncns.contextStep a bs = some b)
    (htrace : Lts.trace Ref.Asyncns.contextStep Ref.Asyncns.contextEvents a bs = [])
    (h : Echoed b events t) : Echoed a events t := by
  obtain ⟨ds, a', hds, hseen, hshown⟩ := h
  refine ⟨bs ++ ds, a', ?_, ?_, hshown⟩
  · rw [Lts.exec_append hexec, hds]
  · rw [Lts.trace_append hexec, htrace, hseen, List.nil_append]

/-! ## What the context's worker does -/

/-- The worker answers, and the client receives it at once. -/
theorem exec_answer (hdead : a.dead = false) (hworker : a.worker = true)
    (hresponses : a.responses = []) {type : Ref.QueryType} (hrequests : a.requests = [type])
    {resp : AsyncnsResponse} (htype : resp.queryType = some type) {b : Ref.Asyncns}
    (hhandle : Ref.handleResponse resp { a with requests := [] } = some b) :
    Lts.exec Ref.Asyncns.contextStep a [.answer resp, .wait 1] = some b ∧
      Lts.trace Ref.Asyncns.contextStep Ref.Asyncns.contextEvents a [.answer resp, .wait 1] =
        [] := by
  have hanswer : a.contextStep (.answer resp) =
      some { a with requests := [], responses := [resp] } := by
    simp [Ref.Asyncns.contextStep, Ref.Asyncns.answer, hrequests, hworker, htype, hresponses]
  have hwait : ({ a with requests := [], responses := [resp] } : Ref.Asyncns).contextStep
      (.wait 1) = some b := by
    have hsame : ({ a with requests := [], responses := [] } : Ref.Asyncns) =
        { a with requests := [] } := by rw [hresponses]
    have hreceive : Ref.handleResponse resp { a with requests := [], responses := [] } = some b :=
      hsame ▸ hhandle
    show asyncnsWait 1 _ = some b
    unfold asyncnsWait
    rw [if_neg (by simp [hdead])]
    dsimp only
    rw [hreceive]
    rfl
  constructor
  · rw [Lts.exec_cons_of_step hanswer, Lts.exec_cons_of_step hwait, Lts.exec_nil]
  · rw [Lts.trace_cons_of_step hanswer, Lts.trace_cons_of_step hwait]
    rfl

/-- The worker dies, and the client is told at once. -/
theorem exec_workerDies (hdead : a.dead = false) (hworker : a.worker = true)
    (hresponses : a.responses = []) :
    Lts.exec Ref.Asyncns.contextStep a [.workerDies true, .wait 1] =
        some { a with worker := false, dead := true } ∧
      Lts.trace Ref.Asyncns.contextStep Ref.Asyncns.contextEvents a [.workerDies true, .wait 1] =
        [] := by
  have hdies : a.contextStep (.workerDies true) =
      some { a with worker := false, responses := [.died] } := by
    simp [Ref.Asyncns.contextStep, Ref.Asyncns.workerDies, hworker, hresponses]
  have hwait : ({ a with worker := false, responses := [.died] } : Ref.Asyncns).contextStep
      (.wait 1) = some { a with worker := false, dead := true } := by
    simp [Ref.Asyncns.contextStep, asyncnsWait, hdead, ← hresponses, Ref.handleResponse,
      AsyncnsResponse.whole]
  constructor
  · rw [Lts.exec_cons_of_step hdies, Lts.exec_cons_of_step hwait, Lts.exec_nil]
  · rw [Lts.trace_cons_of_step hdies, Lts.trace_cons_of_step hwait]
    rfl

/-- With no query there is a way to have no request either. -/
theorem Shown.flush (h : Shown t a) (hdead : t.dead = false) (hempty : ∀ r, t.queries r = none) :
    ∃ bs b, Lts.exec Ref.Asyncns.contextStep a bs = some b ∧
      Lts.trace Ref.Asyncns.contextStep Ref.Asyncns.contextEvents a bs = [] ∧
      b.dead = false ∧ b.worker = true ∧ b.responses = [] ∧ b.requests = [] ∧ b.query = none := by
  have hquery := h.empty hempty
  rcases h.requests with hnil | ⟨type, hone⟩
  · exact ⟨[], a, rfl, rfl, h.dead.trans hdead, h.worker hdead, h.responses, hnil, hquery⟩
  · have hhandle : Ref.handleResponse (Outcome.response {} type) { a with requests := [] } =
        some { a with requests := [], query := none } := by
      cases type <;>
        simp [Outcome.response, Ref.handleResponse, AsyncnsResponse.whole, Ref.completeQuery,
          sizeofResResponse, sizeofBuf, hquery]
    obtain ⟨hexec, htrace⟩ := exec_answer (h.dead.trans hdead) (h.worker hdead) h.responses hone
      (Outcome.queryType_response {} type) hhandle
    exact ⟨_, _, hexec, htrace, h.dead.trans hdead, h.worker hdead, h.responses, rfl, rfl⟩

/-! ## The steps of the service -/

theorem serviceStep_submit_cases {call : Call}
    (hstep : serviceStep libc t (.submit call p) = some t') :
    t.dead = false ∧ t' = t.add p call := by
  simp only [serviceStep, Option.ite_none_left_eq_some, Option.some.injEq, not_or] at hstep
  exact ⟨by simpa using hstep.1.1, hstep.2.symm⟩

theorem Shown.submit (h : Shown t a) {call : Call} {type : Ref.QueryType}
    (hkind : call.kind = some type) (hlength : call.length ≤ bufsize) (hdead : t.dead = false)
    (hempty : ∀ r, t.queries r = none) :
    Echoed a [.submitted call (some p)] (t.add p call) := by
  obtain ⟨bs, b, hexec, htrace, hbdead, hworker, hresponses, hrequests, hquery⟩ :=
    h.flush hdead hempty
  refine .of_silent hexec htrace ?_
  have hsubmit : Ref.asyncnsSubmit type call.length ⟨true, true⟩ b =
      (true, { b with query := some {}, requests := [type] }) := by
    simp [Ref.asyncnsSubmit, Submission.accepted, hbdead, hlength, hrequests]
  have hstep : b.contextStep (.submit type call.length ⟨true, true⟩) =
      some { b with query := some {}, requests := [type] } := by
    rw [Ref.Asyncns.contextStep, hsubmit]
  refine .single _ hstep ?_
    ⟨hbdead.trans hdead.symm, fun _ => hworker, hresponses, Or.inr ⟨type, rfl⟩, ?_, ?_⟩
  · simp [Ref.Asyncns.contextEvents, hsubmit, Event.seen, hkind]
  · intro hnone
    have hp := hnone p
    rw [Service.add_queries, Function.update_self] at hp
    cases hp
  · intro r e he
    rw [Service.add_queries, Function.update_apply] at he
    split at he
    · next hr =>
        obtain rfl := Option.some.inj he
        refine ⟨fun r' hr' => ?_, type, hkind, rfl, fun _ => rfl⟩
        rw [Service.add_queries, Function.update_of_ne (hr ▸ hr')]
        exact hempty r'
    · rw [hempty] at he
      cases he

theorem Shown.refuse (h : Shown t a) (call : Call) : Echoed a [.submitted call none] t := by
  cases hkind : call.kind with
  | none => exact .silent (by simp [Event.seen, hkind]) h
  | some type =>
      have hsubmit : Ref.asyncnsSubmit type call.length ⟨false, false⟩ a = (false, a) := by
        simp [Ref.asyncnsSubmit, Submission.accepted]
      refine .single (.submit type call.length ⟨false, false⟩)
        (by rw [Ref.Asyncns.contextStep, hsubmit]) ?_ h
      simp [Ref.Asyncns.contextEvents, hsubmit, Event.seen, hkind]

/-- The query is taken away, and with it all there is. -/
theorem Shown.remove (h : Shown t a) {e : Entry} (hp : t.queries p = some e) :
    Shown (t.remove p) { a with query := none } where
  dead := h.dead
  worker := h.worker
  responses := h.responses
  requests := h.requests
  empty _ := rfl
  entry r e' he' := by
    rw [Service.remove_queries, Function.update_apply] at he'
    split at he'
    · cases he'
    · next hr =>
        rw [(h.entry p e hp).1 r hr] at he'
        cases he'

theorem Shown.cancel (h : Shown t a) {e : Entry} (hp : t.queries p = some e) :
    Echoed a [.cancelled p] (t.remove p) := by
  obtain ⟨-, type, -, hquery, -⟩ := h.entry p e hp
  exact .single .cancel (by rw [Ref.Asyncns.contextStep, hquery]; rfl) rfl (h.remove hp)

theorem Shown.isdone (h : Shown t a) {e : Entry} (hp : t.queries p = some e) :
    Echoed a [.isdone p e.outcome.isSome] t := by
  obtain ⟨-, type, -, hquery, -⟩ := h.entry p e hp
  refine .single .isdone (by rw [Ref.Asyncns.contextStep, hquery]; rfl) ?_ h
  simp [Ref.Asyncns.contextEvents, Ref.asyncnsIsdone, hquery, shownQuery_done, Event.seen]

/-- `asyncns_getaddrinfo_done` of the small context. -/
theorem Shown.hostDone (h : Shown t a) {e : Entry}
    (hquery : a.query = some (shownQuery .addrinfo e.outcome)) :
    Ref.asyncnsGetaddrinfoDone a =
      ((t.answer .getaddrinfo e).ret.toInt,
        ((t.answer .getaddrinfo e).addrinfo.getD []).map (·.toAddrInfo),
        if t.dead ∨ e.outcome = none then a else { a with query := none }) := by
  have hsame := h.dead
  unfold Ref.asyncnsGetaddrinfoDone Service.answer
  cases hdead : t.dead with
  | true =>
      rw [hdead] at hsame
      simp [hsame, Fetch.childGone, Ref.eaiSystem, eaiSystem]
  | false =>
      rw [hdead] at hsame
      cases hout : e.outcome with
      | none => simp [hsame, hquery, hout, shownQuery, Fetch.tryAgain, Ref.eaiAgain, eaiAgain]
      | some q => simp [hsame, hquery, hout, shownQuery, Fetch.answer, Ref.asyncnsCancel]

/-- `asyncns_res_done` of the small context. -/
theorem Shown.srvDone (h : Shown t a) {e : Entry}
    (hquery : a.query = some (shownQuery .resQuery e.outcome)) :
    Ref.asyncnsResDone a =
      ((t.answer .res e).ret.toInt, answerMemory (t.answer .res e).serv,
        if t.dead ∨ e.outcome = none then a else { a with query := none }) := by
  have hnone : (fun _ => 0 : Memory) = answerMemory none := by
    funext i
    simp [answerMemory]
  have hsame := h.dead
  unfold Ref.asyncnsResDone Service.answer
  cases hdead : t.dead with
  | true =>
      rw [hdead] at hsame
      simp [hsame, hnone, Fetch.childGone, Ref.echild, echild]
  | false =>
      rw [hdead] at hsame
      cases hout : e.outcome with
      | none => simp [hsame, hquery, hout, hnone, shownQuery, Fetch.tryAgain, Ref.eagain, eagain]
      | some q =>
          have hneg : q.ret.toInt < 0 ↔ q.ret < 0 := by
            rw [Int32.lt_iff_toInt_lt, Int32.toInt_zero]
          by_cases hret : q.ret < 0
          · simp [hsame, hquery, hout, shownQuery, Fetch.answer, Ref.asyncnsCancel, hneg, hret]
          · simp [hsame, hquery, hout, shownQuery, Fetch.answer, Ref.asyncnsCancel, hneg, hret]

theorem Shown.fetch (h : Shown t a) {e : Entry} (hp : t.queries p = some e) {f : Fetch}
    (haccepts : f.accepts e.call.type = true) :
    Echoed a [.fetched f p (t.answer f e)]
      (if t.dead ∨ e.outcome = none then t else t.remove p) := by
  obtain ⟨-, type, hkind, hquery, -⟩ := h.entry p e hp
  have hsome : a.query.isNone = false := by rw [hquery]; rfl
  have hshown : Shown (if t.dead ∨ e.outcome = none then t else t.remove p)
      (if t.dead ∨ e.outcome = none then a else { a with query := none }) := by
    split
    · exact h
    · exact h.remove hp
  cases hcall : e.call with
  | getnameinfo sa flags gethost getserv => simp [hcall, Call.kind] at hkind
  | resSearch dname cls ty => simp [hcall, Call.kind] at hkind
  | getaddrinfo node service hints =>
      obtain rfl : f = .getaddrinfo := by
        cases f <;> simp [Fetch.accepts, hcall, Call.type] at haccepts ⊢
      obtain rfl : type = .addrinfo := by simpa [hcall, Call.kind] using hkind.symm
      have hdone := h.hostDone hquery
      refine .single .hostDone ?_ ?_ hshown
      · simp [Ref.Asyncns.contextStep, hsome, hdone]
      · simp [Ref.Asyncns.contextEvents, hdone, Event.seen]
  | resQuery dname cls ty =>
      obtain rfl : f = .res := by
        cases f <;> simp [Fetch.accepts, hcall, Call.type] at haccepts ⊢
      obtain rfl : type = .resQuery := by simpa [hcall, Call.kind] using hkind.symm
      have hdone := h.srvDone hquery
      refine .single .srvDone ?_ ?_ hshown
      · simp [Ref.Asyncns.contextStep, hsome, hdone]
      · simp [Ref.Asyncns.contextEvents, hdone, Event.seen]

/-! ## What happens on its own -/

/-- The results the client receives. -/
def Received (libc : LibcCall → LibcResult → Prop) (c : LibcCall) (result : LibcResult) : Prop :=
  libc c result ∧ result.fits c = true ∧ result.short = true

/-- What is made of such a result is received by the small context, too. -/
theorem whole_response {call : Call} {type : Ref.QueryType} {result : LibcResult} {q : Outcome}
    (hkind : call.kind = some type) (hfits : result.fits call.libc = true)
    (hshort : result.short = true)
    (h : Delivers call.libc result q ∨ RanOut call.libc result q) :
    (q.response type).whole = true := by
  cases type with
  | addrinfo => rfl
  | resQuery =>
      have hret : q.ret.toInt.toNat ≤ 10224 := by
        cases call with
        | getaddrinfo => cases hkind
        | getnameinfo => cases hkind
        | resSearch => cases hkind
        | resQuery dname cls ty =>
            cases result with
            | addrinfo => cases hfits
            | nameinfo => cases hfits
            | res status answer =>
                have hlength : answer.length = status.ret.toInt.toNat := of_decide_eq_true hfits
                have hroom : 32 + answer.length ≤ 10256 := of_decide_eq_true hshort
                rcases h with rfl | ⟨-, rfl⟩
                · show status.ret.toInt.toNat ≤ 10224
                  omega
                · show (-1 : Int32).toInt.toNat ≤ 10224
                  decide
      rw [Outcome.response, AsyncnsResponse.whole, sizeofResResponse, sizeofBuf, decide_eq_true_eq]
      omega

theorem Shown.complete (h : Shown t a) {call : Call} (hp : t.queries p = some { call })
    (hdead : t.dead = false) {result : LibcResult} {q : Outcome}
    (hreceived : Received libc call.libc result)
    (hdelivers : Delivers call.libc result q ∨ RanOut call.libc result q) :
    Echoed a [] (t.finish p call q) := by
  obtain ⟨hothers, type, hkind, hquery, hrequests⟩ := h.entry p _ hp
  have hwhole := whole_response hkind hreceived.2.1 hreceived.2.2 hdelivers
  have hhandle : Ref.handleResponse (q.response type) { a with requests := [] } =
      some { a with requests := [], query := some (shownQuery type (some q)) } := by
    unfold Ref.handleResponse
    rw [hwhole]
    cases type <;> simp [Outcome.response, Ref.completeQuery, hquery, shownQuery]
  obtain ⟨hexec, htrace⟩ := exec_answer (h.dead.trans hdead) (h.worker hdead) h.responses
    (hrequests rfl) (q.queryType_response type) hhandle
  refine ⟨_, _, hexec, htrace, ⟨h.dead, h.worker, h.responses, Or.inl rfl, fun hnone => ?_,
    fun r e he => ?_⟩⟩
  · have hpn := hnone p
    rw [Service.finish_queries, Function.update_self] at hpn
    cases hpn
  · rw [Service.finish_queries, Function.update_apply] at he
    split at he
    · next hr =>
        obtain rfl := Option.some.inj he
        refine ⟨fun r' hr' => ?_, type, hkind, rfl, by simp⟩
        rw [Service.finish_queries, Function.update_of_ne (hr ▸ hr')]
        exact hothers r' (hr ▸ hr')
    · next hr =>
        rw [hothers r hr] at he
        cases he

theorem Shown.die (h : Shown t a) : Echoed a [] { t with dead := true } := by
  cases hdead : t.dead with
  | true =>
      have heq : { t with dead := true } = t := by rw [← hdead]
      rw [heq]
      exact .silent rfl h
  | false =>
      obtain ⟨hexec, htrace⟩ := exec_workerDies (h.dead.trans hdead) (h.worker hdead) h.responses
      exact ⟨_, _, hexec, htrace, rfl, by simp, h.responses, h.requests, h.empty, h.entry⟩

/-! ## The context does what the service does -/

/-- One query at a time, of a kind the resolver makes. -/
def Serial (t : Service) : ServiceLabel → Prop
  | .submit call _ => (∀ r, t.queries r = none) ∧ call.length ≤ bufsize ∧ call.kind.isSome = true
  | _ => True

theorem shown_simulates (libc : LibcCall → LibcResult → Prop) :
    Lts.Simulates (serviceStep (Received libc)) (fun t b => (serviceEvents t b).flatMap Event.seen) Serial
      Ref.Asyncns.contextStep Ref.Asyncns.contextEvents Shown := by
  intro t b t' a h hserial hstep
  show Echoed a (serviceEvents t b) t'
  cases b with
  | submit call p =>
      obtain ⟨hempty, hlength, hsome⟩ := hserial
      obtain ⟨type, hkind⟩ := Option.isSome_iff_exists.mp hsome
      obtain ⟨hdead, rfl⟩ := serviceStep_submit_cases hstep
      exact h.submit hkind hlength hdead hempty
  | refuse call =>
      obtain rfl := Option.some.inj hstep
      exact h.refuse call
  | fetch f p =>
      cases hp : t.queries p with
      | none => simp [serviceStep, hp] at hstep
      | some e =>
          simp only [serviceStep, hp, Option.ite_none_left_eq_some] at hstep
          obtain ⟨haccepts, hstep⟩ := hstep
          have hfetch := h.fetch hp (by simpa using haccepts)
          have ht : (if t.dead ∨ e.outcome = none then t else t.remove p) = t' := by
            split at hstep
            · next hkeep => rw [if_pos hkeep, Option.some.inj hstep]
            · next hgone => rw [if_neg hgone, Option.some.inj hstep]
          rw [ht] at hfetch
          simpa only [serviceEvents, hp, Option.toList_some, List.map_cons, List.map_nil]
            using hfetch
  | cancel p =>
      simp only [serviceStep, Option.ite_none_right_eq_some, Option.some.injEq] at hstep
      obtain ⟨e, hp⟩ := Option.isSome_iff_exists.mp hstep.1
      exact hstep.2 ▸ h.cancel hp
  | getnext => exact Option.some.inj hstep ▸ .silent rfl h
  | isdone p =>
      simp only [serviceStep, Option.ite_none_right_eq_some, Option.some.injEq] at hstep
      obtain ⟨e, hp⟩ := Option.isSome_iff_exists.mp hstep.1
      obtain rfl := hstep.2
      have hdone := h.isdone hp
      simpa [serviceEvents, hp] using hdone
  | complete p result q =>
      simp only [serviceStep] at hstep
      split at hstep
      · next call hp =>
          simp only [Option.ite_none_right_eq_some, Option.some.injEq] at hstep
          exact hstep.2 ▸ h.complete hp (by simpa using hstep.1.1) hstep.1.2.1 hstep.1.2.2
      · cases hstep
  | die => exact Option.some.inj hstep ▸ h.die

/-! ## The processes -/

/-- A call is accepted only when there is no other query, and it is one the
resolver makes. -/
def OneQuery (s : Net) : Label → Prop
  | .submit call malloc send => ¬Refused s.client call malloc send →
      asyncnsGetnqueries s.client = 0 ∧ call.kind.isSome = true
  | _ => True

instance (s : Net) : (label : Label) → Decidable (OneQuery s label)
  | .submit call malloc send =>
      inferInstanceAs (Decidable (¬Refused s.client call malloc send →
        asyncnsGetnqueries s.client = 0 ∧ call.kind.isSome = true))
  | .receive _ | .fetch .. | .cancel _ | .getnext | .isdone _ | .take _ | .reply .. | .leave _
  | .announce .. | .kill _ => isTrue trivial

variable {s s' : Net} {capacity : Nat} {label : Label}

/-- A submission that is seen to succeed was one. -/
theorem Implements.accepted (h : Implements libc s t) {call : Call}
    (hproper : Proper libc s label) (hstep : netStep capacity s label = some s')
    (hevents : netEvents s label = [.submitted call (some p)]) :
    ∃ malloc send, label = .submit call malloc send ∧ ¬Refused s.client call malloc send := by
  cases label with
  | submit c malloc send =>
      simp only [netStep, h.alive, Bool.false_eq_true, if_false, Net.clientStep,
        Option.ite_none_right_eq_some] at hstep
      have hfresh : ∀ r, malloc = some r → s.client.bare r = none := by
        rintro r rfl
        exact Asyncns.bare_eq_none.mpr (by simpa [Net.canAlloc] using hstep.1)
      rcases h.wf.submit send hproper.1 hfresh with
        ⟨-, b, hsubmit, -⟩ | ⟨haccept, q, k, -, -, -, hsubmit⟩
      · simp [netEvents, hsubmit] at hevents
      · simp only [netEvents, hsubmit, Option.toList_some, List.map_cons, List.map_nil,
          List.cons.injEq, Event.submitted.injEq, and_true] at hevents
        obtain ⟨rfl, -⟩ := hevents
        exact ⟨malloc, send, rfl, haccept⟩
  | fetch f r =>
      have hmem : Event.submitted call (some p) ∈ netEvents s (.fetch f r) := by
        rw [hevents]
        exact List.mem_singleton_self _
      obtain ⟨x, -, hx⟩ := List.mem_map.mp hmem
      cases hx
  | isdone r =>
      have hmem : Event.submitted call (some p) ∈ netEvents s (.isdone r) := by
        rw [hevents]
        exact List.mem_singleton_self _
      obtain ⟨x, -, hx⟩ := List.mem_map.mp hmem
      cases hx
  | _ => cases hevents

/-- What the service does for a user with one query is serial. -/
theorem Implements.serial (h : Implements libc s t) (hproper : Proper libc s label)
    (hone : OneQuery s label) (hstep : netStep capacity s label = some s') (b : ServiceLabel)
    (hevents : serviceEvents t b = netEvents s label) : Serial t b := by
  cases b with
  | submit call p =>
      obtain ⟨malloc, send, rfl, haccept⟩ := h.accepted hproper hstep hevents.symm
      obtain ⟨hzero, hkind⟩ := hone haccept
      refine ⟨fun r => h.queries_eq_none.mpr ?_, ?_, hkind⟩
      · cases hr : s.client.bare r with
        | none => rfl
        | some q =>
            have hpos := h.wf.nQueries_pos hr
            rw [asyncnsGetnqueries] at hzero
            omega
      · rw [← Nat.not_lt]
        exact fun hlong => haccept (Or.inr (Or.inr (Or.inr (Or.inl hlong))))
  | _ => trivial

/-- Short results are received. -/
theorem meets_received {labels : List Label}
    (h : Lts.Meets (netStep capacity)
      (fun s label => (Fresh s label ∧ Proper libc s label) ∧ OneQuery s label) s labels) :
    Lts.Meets (netStep capacity)
      (fun s label => (Fresh s label ∧ Proper (Received libc) s label) ∧ OneQuery s label)
      s labels := by
  refine Lts.along_of_invariant (I := fun _ => True)
    (P := fun s label _ => (Fresh s label ∧ Proper (Received libc) s label) ∧ OneQuery s label)
    ?_ trivial h
  intro s label s' _ hc hstep
  refine ⟨⟨⟨hc.1.1, ?_⟩, hc.2⟩, trivial⟩
  have hproper := hc.1.2
  cases label with
  | reply w result send =>
      obtain ⟨id, call, hw, hfits, -⟩ := reply_cases hstep
      simp only [Proper, hw] at hproper ⊢
      exact ⟨⟨hproper.1, hfits, hproper.2⟩, hproper.2⟩
  | _ => exact hproper

/-- With one query at a time, the net looks like a context with one query and
one worker. -/
theorem net_refines_context (libc : LibcCall → LibcResult → Prop) (capacity nProc : Nat) (fd : Int)
    {labels : List Label}
    (hlabels : Lts.Meets (netStep capacity)
      (fun s label => (Fresh s label ∧ Proper libc s label) ∧ OneQuery s label)
      (asyncnsNew nProc) labels)
    (hrun : Lts.exec (netStep capacity) (asyncnsNew nProc) labels = some s) :
    ∃ bs a, Lts.exec Ref.Asyncns.contextStep (Ref.asyncnsNew fd) bs = some a ∧
      Lts.trace Ref.Asyncns.contextStep Ref.Asyncns.contextEvents (Ref.asyncnsNew fd) bs =
        (Lts.trace (netStep capacity) netEvents (asyncnsNew nProc) labels).flatMap Event.seen ∧
      a.dead = s.client.dead := by
  have hfollows : Lts.Follows (netStep capacity) netEvents
      (fun s label => (Fresh s label ∧ Proper (Received libc) s label) ∧ OneQuery s label)
      (serviceStep (Received libc)) serviceEvents (Implements (Received libc)) :=
    fun s label s' t h hc => implements_follows (Received libc) capacity s label s' t h hc.1
  have hsim := hfollows.comp (shown_simulates libc) fun s label s' t b h hc hstep =>
    h.serial hc.1.2 hc.2 hstep b
  obtain ⟨bs, a, hexec, htrace, t, himpl, hshown⟩ :=
    hsim.exists_run ⟨_, implements_new (Received libc) nProc, shown_new fd⟩
      (meets_received hlabels) hrun
  refine ⟨bs, a, hexec, ?_, hshown.dead.trans himpl.dead⟩
  rw [htrace, Lts.trace_flatMap]

theorem net_refines_context_oneLookup :
    ∃ s bs a, Lts.exec (netStep 1) (asyncnsNew 1) oneLookup = some s ∧
      Lts.exec Ref.Asyncns.contextStep (Ref.asyncnsNew 5) bs = some a ∧
      Lts.trace Ref.Asyncns.contextStep Ref.Asyncns.contextEvents (Ref.asyncnsNew 5) bs =
        (Lts.trace (netStep 1) netEvents (asyncnsNew 1) oneLookup).flatMap Event.seen ∧
      a.dead = s.client.dead := by
  have hlabels : Lts.Meets (netStep 1)
      (fun s label => (Fresh s label ∧ Proper (fun _ _ => True) s label) ∧ OneQuery s label)
      (asyncnsNew 1) oneLookup := by decide +kernel
  have hsome : (Lts.exec (netStep 1) (asyncnsNew 1) oneLookup).isSome := by decide +kernel
  obtain ⟨s, hrun⟩ := Option.isSome_iff_exists.mp hsome
  obtain ⟨bs, a, h⟩ := net_refines_context (fun _ _ => True) 1 1 5 hlabels hrun
  exact ⟨s, bs, a, hrun, h⟩

end LmTransport.Ref.Libasyncns
