import LmTransport.Proofs.LookupOnce

/-!
# A lookup keeps going

Between two callbacks of the main loop a lookup that has not reported needs
everything that can still make it report: a context, a query that was
submitted and can still be answered, and a watch on the descriptor the answer
arrives at. The resolver ignores what `asyncns_getaddrinfo` and
`asyncns_res_query` return, gives up silently when `asyncns_new` fails, and
takes no notice of a worker that died: then nothing is left to report the
lookup, or the assertion in `asyncns_isdone` ends the process. So does the one
in `handle_response`, when an answer is longer than the buffer it is received
into: the worker has room for `10240` bytes of an answer, the client for
`10224`.
-/

namespace LmTransport.Ref.AsyncnsResolver

open Lts

/-! ## What an unfinished lookup needs -/

/-- The query can still be answered: the worker has the request, or its answer
is on the way and can be received. -/
def Answerable (asyncns : Asyncns) : Prop :=
  asyncns.query.isSome = true ∧
    ((asyncns.worker = true ∧ asyncns.requests ≠ []) ∨
      ∃ r ∈ asyncns.responses, r.queryType.isSome = true ∧ r.whole = true)

/-- The recorded watch is attached and polls the descriptor of the context. -/
def Watched (w : World) (asyncns : Asyncns) : Prop :=
  ∃ id s, w.priv.watchResolv = some id ∧ w.ctx.find id = some s ∧
    s.channel.fd = asyncns.fd ∧ s.condition = .inn

def Waiting (w : World) : Prop :=
  ∃ asyncns, w.priv.asyncnsCtx = some asyncns ∧ w.priv.resolvQuery = true ∧
    Answerable asyncns ∧ Watched w asyncns

/-- No assertion has failed, and between callbacks the lookup has reported or is
waiting for its answer. -/
structure NeverStuck (w : World) : Prop where
  running : w.aborted = false
  alive : w.obj.emissions = [] → reports w.obj.log ≠ [] ∨ Waiting w

/-- The length of the request `asyncns` makes of a lookup. -/
def requestLength : Lookup → Nat
  | .host sa => addrinfoRequestLength sa.hostname
  | .service domain srv => resRequestLength (resolverCreateSrvString domain srv "tcp")

/-- `asyncns_new` succeeds and the request can be sent. -/
def Succeeds (lookup : Lookup) (sys : SysResults) : Prop :=
  (∃ fd, sys.asyncnsNew = some fd) ∧ sys.submission.accepted (requestLength lookup) = true

/-- The worker does not die before it has answered, and its answer fits the
buffer of the client, unless the lookup has reported meanwhile, and no handler
of `finished` lets the main loop dispatch the watch of the resolver. -/
def Steady (w : World) : Label → Prop
  | .answer r => reports w.obj.log ≠ [] ∨ r.whole = true
  | .workerDies _ =>
      reports w.obj.log ≠ [] ∨
        ∀ asyncns, w.priv.asyncnsCtx = some asyncns → asyncns.requests = []
  | .dispatch _ _ _ => w.obj.emissions = []
  | _ => True

/-! ## Waiting for the answer -/

theorem isdone_handle {asyncns asyncns' : Asyncns} {r : AsyncnsResponse}
    (h : asyncnsIsdone asyncns = true) (hhandle : handleResponse r asyncns = some asyncns') :
    asyncnsIsdone asyncns' = true := by
  obtain ⟨q, hq, hdone⟩ := asyncnsIsdone_iff.mp h
  rw [asyncnsIsdone_iff]
  rcases handleResponse_some hhandle with
    ⟨-, rfl⟩ | ⟨ret, ai, -, rfl⟩ | ⟨ret, errno, serv, -, rfl⟩
  · exact ⟨q, hq, hdone⟩
  · exact ⟨_, Option.map_eq_some_iff.mpr ⟨q, hq, rfl⟩, rfl⟩
  · exact ⟨_, Option.map_eq_some_iff.mpr ⟨q, hq, rfl⟩, rfl⟩

theorem isdone_wait {asyncns asyncns' : Asyncns} {recvs : Nat}
    (h : asyncnsIsdone asyncns = true) (hwait : asyncnsWait recvs asyncns = some asyncns') :
    asyncnsIsdone asyncns' = true := by
  refine wait_preserves (P := fun asyncns => asyncnsIsdone asyncns = true) ?_ h hwait
  intro asyncns asyncns' r responses _ hdone hhandle
  have hrest : asyncnsIsdone { asyncns with responses } = true := hdone
  exact isdone_handle hrest hhandle

/-- An answer that is received completes the query. -/
theorem isdone_answered {asyncns : Asyncns} {r : AsyncnsResponse}
    (hquery : asyncns.query.isSome = true) (htype : r.queryType.isSome = true)
    (hwhole : r.whole = true) :
    ∃ asyncns', handleResponse r asyncns = some asyncns' ∧ asyncnsIsdone asyncns' = true ∧
      asyncns'.responses = asyncns.responses := by
  obtain ⟨q, hq⟩ := Option.isSome_iff_exists.mp hquery
  unfold handleResponse
  rw [hwhole]
  cases r with
  | died => cases htype
  | addrinfo ret ai =>
      exact ⟨_, rfl, asyncnsIsdone_iff.mpr
        ⟨_, Option.map_eq_some_iff.mpr ⟨q, hq, rfl⟩, rfl⟩, rfl⟩
  | res ret errno serv =>
      exact ⟨_, rfl, asyncnsIsdone_iff.mpr
        ⟨_, Option.map_eq_some_iff.mpr ⟨q, hq, rfl⟩, rfl⟩, rfl⟩

/-- Responses that fit the buffer fail no assertion. -/
theorem exists_wait {asyncns : Asyncns} (h : ∀ r ∈ asyncns.responses, r.whole = true)
    (recvs : Nat) : ∃ asyncns', asyncnsWait recvs asyncns = some asyncns' := by
  induction recvs generalizing asyncns with
  | zero => exact ⟨asyncns, rfl⟩
  | succ recvs ih =>
      unfold asyncnsWait
      split
      · exact ⟨asyncns, rfl⟩
      · split
        · exact ⟨asyncns, rfl⟩
        · next r responses hresp =>
            have hwhole : r.whole = true := h r (hresp ▸ List.mem_cons_self ..)
            have hrest : ∀ r' ∈ responses, r'.whole = true := fun r' hr' =>
              h r' (hresp ▸ List.mem_cons_of_mem _ hr')
            unfold handleResponse
            rw [hwhole]
            cases r with
            | died => exact ih hrest
            | addrinfo ret ai => exact ih hrest
            | res ret errno serv => exact ih hrest

/-- The context of a lookup that waits: the worker has the request and has sent
nothing, or it has sent the answer first of all. -/
structure Asked (asyncns : Asyncns) : Prop where
  query : asyncns.query.isSome = true
  live : asyncns.dead = false
  whole : ∀ r ∈ asyncns.responses, r.whole = true
  progress : (asyncns.worker = true ∧ asyncns.requests.length = 1 ∧ asyncns.responses = []) ∨
    (asyncns.requests = [] ∧
      ∃ r rest, asyncns.responses = r :: rest ∧ r.queryType.isSome = true)

theorem Asked.answerable {asyncns : Asyncns} (h : Asked asyncns) : Answerable asyncns := by
  refine ⟨h.query, ?_⟩
  rcases h.progress with ⟨hworker, hreq, -⟩ | ⟨-, r, rest, hresp, hr⟩
  · exact Or.inl ⟨hworker, List.ne_nil_of_length_eq_add_one hreq⟩
  · have hmem : r ∈ asyncns.responses := hresp ▸ List.mem_cons_self ..
    exact Or.inr ⟨r, hmem, hr, h.whole r hmem⟩

/-- When there is something to read, the first read gets the answer. -/
theorem Asked.wait {asyncns asyncns' : Asyncns} {recvs : Nat} (h : Asked asyncns)
    (hresp : asyncns.responses ≠ [])
    (hwait : asyncnsWait (recvs + 1) asyncns = some asyncns') :
    asyncnsIsdone asyncns' = true := by
  rcases h.progress with ⟨-, -, hnone⟩ | ⟨-, r, rest, hcons, hr⟩
  · exact absurd hnone hresp
  · have hwhole : r.whole = true := h.whole r (hcons ▸ List.mem_cons_self ..)
    obtain ⟨received, hhandle, hdone, -⟩ :=
      @isdone_answered { asyncns with responses := rest } r h.query hr hwhole
    unfold asyncnsWait at hwait
    rw [if_neg (by simp [h.live]), hcons] at hwait
    dsimp only at hwait
    rw [hhandle] at hwait
    exact isdone_wait hdone hwait

/-- The answer is the end of it when it does not fit the buffer. -/
theorem Asked.answer {asyncns asyncns' : Asyncns} {r : AsyncnsResponse} (h : Asked asyncns)
    (ha : asyncns.answer r = some asyncns') :
    (Answerable asyncns' ↔ r.whole = true) ∧ (r.whole = true → Asked asyncns') := by
  obtain ⟨type, requests, hreq, -, htype, rfl⟩ := answer_some ha
  rcases h.progress with ⟨-, hlen, hnone⟩ | ⟨hdone, -⟩
  · have hnil : requests = [] := by
      rw [hreq, List.length_cons] at hlen
      have hzero : requests.length = 0 := by omega
      exact List.eq_nil_of_length_eq_zero hzero
    have honly : asyncns.responses ++ [r] = [r] := by rw [hnone, List.nil_append]
    have hasked (hwhole : r.whole = true) :
        Asked { asyncns with requests, responses := asyncns.responses ++ [r] } := by
      refine ⟨h.query, h.live, fun r' hr' => ?_, Or.inr ⟨hnil, r, [], honly, ?_⟩⟩
      · have hr' : r' ∈ asyncns.responses ++ [r] := hr'
        rw [honly, List.mem_singleton] at hr'
        exact hr' ▸ hwhole
      · rw [htype]
        rfl
    refine ⟨⟨?_, fun hwhole => (hasked hwhole).answerable⟩, hasked⟩
    rintro ⟨-, ⟨-, hpending⟩ | ⟨r', hr', -, hwhole⟩⟩
    · exact absurd hnil hpending
    · have hr' : r' ∈ asyncns.responses ++ [r] := hr'
      rw [honly, List.mem_singleton] at hr'
      exact hr' ▸ hwhole
  · rw [hreq] at hdone
    cases hdone

/-- The death of the worker is the end of it just when the answer has not been
sent. -/
theorem Asked.workerDies {asyncns asyncns' : Asyncns} {told : Bool} (h : Asked asyncns)
    (hd : asyncns.workerDies told = some asyncns') :
    (Answerable asyncns' ↔ asyncns.requests = []) ∧
      (asyncns.requests = [] → Asked asyncns') := by
  obtain ⟨-, rfl⟩ := workerDies_some hd
  rcases h.progress with ⟨-, hlen, hnone⟩ | ⟨hdone, r, rest, hresp, hr⟩
  · have hne : asyncns.requests ≠ [] := List.ne_nil_of_length_eq_add_one hlen
    refine ⟨iff_of_false ?_ hne, fun hnil => absurd hnil hne⟩
    rintro ⟨-, hans⟩
    rcases hans with ⟨hworker, -⟩ | ⟨r, hr, htype, -⟩
    · cases hworker
    · have hmem : r ∈ asyncns.responses ++ if told then [.died] else [] := hr
      rw [hnone, List.nil_append] at hmem
      cases told with
      | false => cases hmem
      | true =>
          rw [List.mem_singleton.mp hmem] at htype
          cases htype
  · have hasked : Asked
        { asyncns with
          worker := false
          responses := asyncns.responses ++ if told then [.died] else [] } := by
      refine ⟨h.query, h.live, fun r' hr' => ?_, Or.inr ⟨hdone, r, ?_⟩⟩
      · rcases List.mem_append.mp hr' with hold | hnew
        · exact h.whole r' hold
        · cases told with
          | false => cases hnew
          | true =>
              rw [List.mem_singleton.mp hnew]
              rfl
      · rw [hresp]
        exact ⟨_, rfl, hr⟩
    exact ⟨iff_of_true hasked.answerable hdone, fun _ => hasked⟩

theorem answer_fd {asyncns asyncns' : Asyncns} {r : AsyncnsResponse}
    (h : asyncns.answer r = some asyncns') : asyncns'.fd = asyncns.fd := by
  obtain ⟨type, requests, -, -, -, rfl⟩ := answer_some h
  rfl

theorem workerDies_fd {asyncns asyncns' : Asyncns} {told : Bool}
    (h : asyncns.workerDies told = some asyncns') : asyncns'.fd = asyncns.fd := by
  obtain ⟨-, rfl⟩ := workerDies_some h
  rfl

/-! ## One step -/

/-- Until it reports the lookup waits and its initial reference is there; once
it has reported and cleaned up, its context is gone. -/
structure LiveInv (w : World) : Prop where
  query : QueryInv w
  running : w.aborted = false
  idle : reports w.obj.log = [] → w.obj.emissions = [] ∧ w.obj.refCount = w.obj.held + 1
  waits : reports w.obj.log = [] → w.priv.resolvQuery = true ∧
    ∃ asyncns, w.priv.asyncnsCtx = some asyncns ∧ Asked asyncns ∧ Watched w asyncns
  ended : reports w.obj.log ≠ [] → w.obj.emissions = [] → w.priv.asyncnsCtx = none

theorem LiveInv.neverStuck {w : World} (h : LiveInv w) : NeverStuck w := by
  refine ⟨h.running, fun _ => ?_⟩
  by_cases hnone : reports w.obj.log = []
  · obtain ⟨hquery, asyncns, hctx, hasked, hwatch⟩ := h.waits hnone
    exact Or.inr ⟨asyncns, hctx, hquery, hasked.answerable, hwatch⟩
  · exact Or.inl hnone

/-- A lookup that has reported has nothing more to keep going. -/
theorem LiveInv.reported {w : World} (hquery : QueryInv w) (hrunning : w.aborted = false)
    (hne : reports w.obj.log ≠ [])
    (hover : w.obj.emissions = [] → w.priv.asyncnsCtx = none) : LiveInv w :=
  ⟨hquery, hrunning, fun hnone => absurd hnone hne, fun hnone => absurd hnone hne,
    fun _ => hover⟩

/-- The other side of the context moved on without the resolver. -/
theorem LiveInv.put {w : World} (h : LiveInv w) {asyncns asyncns' : Asyncns}
    (hctx : w.priv.asyncnsCtx = some asyncns) (hfd : asyncns'.fd = asyncns.fd)
    (hasked : reports w.obj.log = [] → Asked asyncns') : LiveInv (w.put asyncns') where
  query := ⟨h.query.returned, nofun, h.query.spent⟩
  running := h.running
  idle := h.idle
  waits hnone := by
    obtain ⟨hquery, a, ha, -, id, s, hid, hs, hsfd, hcond⟩ := h.waits hnone
    rw [hctx, Option.some.injEq] at ha
    subst ha
    exact ⟨hquery, asyncns', rfl, hasked hnone, id, s, hid, hs, hsfd.trans hfd.symm, hcond⟩
  ended hne hem := by
    have hgone := h.ended hne hem
    rw [hctx] at hgone
    cases hgone

theorem steady_of_live {w w' : World} {l : Label} (hl : Steady w l) (h : LiveInv w') :
    (NeverStuck w' ↔ Steady w l) ∧ (Steady w l → LiveInv w') :=
  ⟨iff_of_true h.neverStuck hl, fun _ => h⟩

/-- What the other side does keeps the lookup going just when it keeps the query
answerable. -/
theorem LiveInv.steady_put {w : World} {l : Label} {P : Prop} (h : LiveInv w)
    {asyncns asyncns' : Asyncns} (hctx : w.priv.asyncnsCtx = some asyncns)
    (hfd : asyncns'.fd = asyncns.fd) (hnone : reports w.obj.log = [])
    (hanswerable : Answerable asyncns' ↔ P) (hasked : P → Asked asyncns')
    (hsteady : Steady w l ↔ P) :
    (NeverStuck (w.put asyncns') ↔ Steady w l) ∧ (Steady w l → LiveInv (w.put asyncns')) := by
  have hlive : P → LiveInv (w.put asyncns') := fun hp => h.put hctx hfd fun _ => hasked hp
  rw [hsteady]
  refine ⟨⟨fun hnever => ?_, fun hp => (hlive hp).neverStuck⟩, hlive⟩
  rcases hnever.alive (h.idle hnone).1 with hne | ⟨a, ha, -, hanswer, -⟩
  · exact absurd hnone hne
  · injection ha with ha
    subst ha
    exact hanswerable.mp hanswer

/-- The watch of the resolver is dispatched while a handler of `finished` runs,
and the process is gone. -/
theorem LiveInv.gone {w v : World} {src recvs : Nat} {name : List UInt8}
    (haborted : v.aborted = true) (hbusy : w.obj.emissions ≠ []) :
    (NeverStuck v ↔ Steady w (.dispatch src recvs name)) ∧
      (Steady w (.dispatch src recvs name) → LiveInv v) := by
  refine ⟨iff_of_false (fun hp => ?_) hbusy, fun hidle => absurd hidle hbusy⟩
  have hrunning := hp.running
  rw [haborted] at hrunning
  cases hrunning

/-- Between callbacks a context is there for a lookup that waits. -/
theorem LiveInv.context {w : World} (h : LiveInv w) (hidle : w.obj.emissions = [])
    {asyncns : Asyncns} (hctx : w.priv.asyncnsCtx = some asyncns) :
    w.priv.resolvQuery = true ∧ Asked asyncns := by
  by_cases hnone : reports w.obj.log = []
  · obtain ⟨hquery, a, ha, hasked, -⟩ := h.waits hnone
    rw [hctx, Option.some.injEq] at ha
    exact ⟨hquery, ha ▸ hasked⟩
  · have hgone := h.ended hnone hidle
    rw [hctx] at hgone
    cases hgone

theorem LiveInv.drop {w : World} (h : LiveInv w) (husable : w.obj.usable = true)
    (hquery : QueryInv ({ w with obj := { w.obj with held := w.obj.held - 1 } } : World).unref) :
    LiveInv ({ w with obj := { w.obj with held := w.obj.held - 1 } } : World).unref := by
  have hheld : w.obj.held ≠ 0 := by
    unfold ResolverObject.usable at husable
    simp only [Bool.and_eq_true, decide_eq_true_eq] at husable
    exact husable.1
  unfold World.unref at hquery ⊢
  split
  · next hlast =>
      rw [if_pos hlast] at hquery
      have hone : w.obj.refCount = 1 := hlast
      refine .reported hquery h.running (fun hnone => ?_) fun _ => rfl
      have hcount := (h.idle hnone).2
      omega
  · next hlast =>
      rw [if_neg hlast] at hquery
      refine ⟨hquery, h.running, fun hnone => ⟨(h.idle hnone).1, ?_⟩, h.waits, h.ended⟩
      have hcount := (h.idle hnone).2
      show w.obj.refCount - 1 = w.obj.held - 1 + 1
      omega

theorem cancel_aborted (w : World) : (asyncnsResolverCancel w).aborted = w.aborted := by
  obtain ⟨_, -, h⟩ := cancel_frame w
  rw [h]

theorem Answered.aborted {w v : World} {asyncns : Asyncns} {result : LmResolverResult}
    (h : Answered w asyncns result v) : v.aborted = w.aborted := by
  cases h with
  | failed => rfl
  | host _ _ _ _ => rfl
  | srv _ _ => rfl

theorem live_step {dnExpand : DnExpand} {w w' : World} {l : Label} (h : LiveInv w)
    (hs : step dnExpand w l = some w') :
    (NeverStuck w' ↔ Steady w l) ∧ (Steady w l → LiveInv w') := by
  have hquery := (once_step h.query hs).1
  cases step_cases hs with
  | hold _ =>
      refine steady_of_live trivial
        ⟨hquery, h.running, fun hnone => ⟨(h.idle hnone).1, ?_⟩, h.waits, h.ended⟩
      show w.obj.refCount + 1 = w.obj.held + 1 + 1
      rw [(h.idle hnone).2]
  | drop husable => exact steady_of_live trivial (h.drop husable hquery)
  | cancel _ =>
      refine steady_of_live trivial (.reported hquery ?_ ?_ ?_)
      · rw [cancel_aborted]
        exact h.running
      · rw [cancel_obj]
        exact ResolverObject.reports_emitFinished _ _ _ _
      · rw [cancel_obj]
        exact fun hnil => absurd hnil (List.cons_ne_nil _ _)
  | @resumed k rest hem =>
      have hne : reports w.obj.log ≠ [] := by
        intro hnone
        rw [(h.idle hnone).1] at hem
        cases hem
      refine steady_of_live trivial (.reported hquery ?_ ?_ fun _ => ?_)
      · rw [resume_aborted]
        exact h.running
      · rw [resume_obj]
        show reports (w.obj.log ++ _) ≠ []
        rw [reports_append]
        exact List.append_ne_nil_of_left_ne_nil hne _
      · rw [resume_priv]
        rfl
  | @answer resp asyncns asyncns' hctx hans =>
      by_cases hnone : reports w.obj.log = []
      · obtain ⟨-, a, ha, hasked, -⟩ := h.waits hnone
        rw [hctx, Option.some.injEq] at ha
        subst ha
        obtain ⟨hanswerable, hstill⟩ := hasked.answer hans
        exact h.steady_put hctx (answer_fd hans) hnone hanswerable hstill
          ⟨fun hsteady => hsteady.resolve_left fun hne => hne hnone, Or.inr⟩
      · exact steady_of_live (Or.inl hnone)
          (h.put hctx (answer_fd hans) fun hnil => absurd hnil hnone)
  | @workerDies told asyncns asyncns' hctx hdies =>
      by_cases hnone : reports w.obj.log = []
      · obtain ⟨-, a, ha, hasked, -⟩ := h.waits hnone
        rw [hctx, Option.some.injEq] at ha
        subst ha
        obtain ⟨hans, hstill⟩ := hasked.workerDies hdies
        refine h.steady_put hctx (workerDies_fd hdies) hnone hans hstill ⟨fun hsteady => ?_, ?_⟩
        · exact (hsteady.resolve_left fun hne => hne hnone) asyncns hctx
        · intro hsent
          refine Or.inr fun a ha => ?_
          rw [hctx, Option.some.injEq] at ha
          exact ha ▸ hsent
      · exact steady_of_live (Or.inl hnone)
          (h.put hctx (workerDies_fd hdies) fun hnil => absurd hnil hnone)
  | @cutOff src recvs name asyncns hctx hwait =>
      refine LiveInv.gone rfl fun hidle => ?_
      obtain ⟨asyncns', hsome⟩ := exists_wait (h.context hidle hctx).2.whole recvs
      rw [hwait] at hsome
      cases hsome
  | aborted hctx _ hnull =>
      refine LiveInv.gone rfl fun hidle => ?_
      have hquery := (h.context hidle hctx).1
      rw [hnull] at hquery
      cases hquery
  | @polled src recvs name asyncns asyncns' hctx hwait hq hresp hdone =>
      have hnone := h.query.pending hq
      have hidle := (h.idle hnone).1
      have hasked := (h.context hidle hctx).2
      refine steady_of_live hidle ?_
      cases recvs with
      | zero =>
          obtain rfl := Option.some.inj hwait
          exact h.put hctx rfl fun _ => hasked
      | succ recvs =>
          rw [hasked.wait hresp hwait] at hdone
          cases hdone
  | @answered src recvs name asyncns asyncns' result v hctx hwait hq hresult =>
      have hnone := h.query.pending hq
      refine steady_of_live (h.idle hnone).1 (.reported hquery ?_ ?_ ?_)
      · exact hresult.aborted.trans h.running
      · exact ResolverObject.reports_emitFinished _ _ _ _
      · exact fun hnil => absurd hnil (List.cons_ne_nil _ _)

/-! ## A whole lookup -/

theorem submit_fresh (lookup : Lookup) (o : Submission) (fd : Int) :
    lookup.submit o { fd } =
      if o.accepted (requestLength lookup) then
        (true, { fd, query := some {}, requests := [lookup.queryType] })
      else (false, { fd }) := by
  cases lookup with
  | host sa => rfl
  | service domain srv => rfl

theorem liveInv_lookup {lookup : Lookup} {sys : SysResults} (h : Succeeds lookup sys) :
    LiveInv (lmResolverLookup lookup sys) := by
  obtain ⟨⟨fd, hnew⟩, hacc⟩ := h
  have hquery := queryInv_lookup lookup sys
  rw [lookup_started hnew, submit_fresh, if_pos hacc] at hquery ⊢
  have hasked : Asked { fd, query := some {}, requests := [lookup.queryType] } :=
    ⟨rfl, rfl, nofun, Or.inl ⟨rfl, rfl, rfl⟩⟩
  exact ⟨hquery, rfl, fun _ => ⟨rfl, rfl⟩,
    fun _ => ⟨rfl, _, rfl, hasked, 0, ⟨0, ⟨0, fd⟩, .inn⟩, rfl, rfl, rfl, rfl⟩,
    fun hne => absurd rfl hne⟩

/-- A lookup that is not stuck when the call returns was submitted. -/
theorem succeeds_of_neverStuck {lookup : Lookup} {sys : SysResults}
    (h : NeverStuck (lmResolverLookup lookup sys)) : Succeeds lookup sys := by
  cases hnew : sys.asyncnsNew with
  | none =>
      rw [lookup_failed hnew] at h
      rcases h.alive rfl with hne | ⟨asyncns, hctx, -⟩
      · exact absurd rfl hne
      · cases hctx
  | some fd =>
      refine ⟨⟨fd, hnew⟩, ?_⟩
      by_contra hacc
      rw [lookup_started hnew, submit_fresh, if_neg hacc] at h
      rcases h.alive rfl with hne | ⟨asyncns, -, hquery, -⟩
      · exact absurd rfl hne
      · cases hquery

/-- A lookup never hangs and never aborts just when it could be submitted, the
worker lives until it has answered, its answer fits the buffer it is received
into, and no handler of `finished` dispatches the watch of the resolver
again. -/
theorem lookup_never_stuck (dnExpand : DnExpand) (lookup : Lookup) (sys : SysResults)
    (as : List Label) :
    (NeverStuck (lmResolverLookup lookup sys) ∧
        Along (step dnExpand) (fun _ _ w => NeverStuck w) (lmResolverLookup lookup sys) as) ↔
      Succeeds lookup sys ∧ Meets (step dnExpand) Steady (lmResolverLookup lookup sys) as := by
  have hrun (hstart : Succeeds lookup sys) :=
    @along_iff_meets _ _ (step dnExpand) (fun _ _ w => NeverStuck w) Steady LiveInv
      (fun _ _ _ hinv hs => live_step hinv hs) _ as (liveInv_lookup hstart)
  constructor
  · rintro ⟨hstart, hnever⟩
    have hsucceeds := succeeds_of_neverStuck hstart
    exact ⟨hsucceeds, (hrun hsucceeds).mp hnever⟩
  · rintro ⟨hsucceeds, hsteady⟩
    exact ⟨(liveInv_lookup hsucceeds).neverStuck, (hrun hsucceeds).mpr hsteady⟩

/-- The ways to get stuck: `asyncns_new` fails; `send` fails, and then the
worker announces its end, so that the callback asks `asyncns_isdone` about
`NULL`; the worker is killed before it has answered; the answer is one byte too
long. -/
theorem lookup_stuck :
    ¬NeverStuck (lmResolverLookup (.host (lmSocketAddressNew "host" 5222))
        ⟨none, ⟨true, true⟩⟩) ∧
      (∃ w, exec (step dnExpandFails)
          (lmResolverLookup (.host (lmSocketAddressNew "host" 5222)) ⟨some 7, ⟨true, false⟩⟩)
          [.workerDies true, .dispatch 0 1 []] = some w ∧ ¬NeverStuck w) ∧
      (∃ w, exec (step dnExpandFails)
          (lmResolverLookup (.host (lmSocketAddressNew "host" 5222)) ⟨some 7, ⟨true, true⟩⟩)
          [.workerDies false] = some w ∧ ¬NeverStuck w) ∧
      ∃ w, exec (step dnExpandFails)
          (lmResolverLookup (.service "host" "xmpp") ⟨some 7, ⟨true, true⟩⟩)
          [.answer (.res 10225 0 fun _ => 0), .dispatch 0 1 []] = some w ∧ ¬NeverStuck w := by
  refine ⟨fun h => ?_, ⟨_, rfl, fun h => ?_⟩, ⟨_, rfl, fun h => ?_⟩, _, rfl, fun h => ?_⟩
  · rcases h.alive rfl with hne | ⟨asyncns, hctx, -⟩
    · exact absurd rfl hne
    · cases hctx
  · cases h.running
  · rcases h.alive rfl with hne | ⟨asyncns, hctx, -, hanswer, -⟩
    · exact absurd rfl hne
    · injection hctx with hctx
      subst hctx
      rcases hanswer.2 with ⟨hworker, -⟩ | ⟨r, hr, -⟩
      · cases hworker
      · cases hr
  · cases h.running

end LmTransport.Ref.AsyncnsResolver
