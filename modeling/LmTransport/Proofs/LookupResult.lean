import LmTransport.Proofs.LookupOnce

/-!
# What a host lookup reports is what it did to the address

At the first `finished` of a host lookup the address has the list the name
server delivered, if the result is `OK`, and is as the caller gave it
otherwise. Nothing the resolver does later changes it: whatever reported took
the query or the idle source away, so an answer still in the pipe finds nobody
to store it.
-/

namespace LmTransport.Ref

open Lts

/-- The first report of a lookup of `sa` agrees with the lists stored in the
address, and with the address it came with. `delivered` are the lists of
successful answers. -/
def ReportMatches (delivered : List (List AddrInfo)) (sa : LmSocketAddress)
    (o : ResolverObject) : Prop :=
  match (reports o.log).head? with
  | none => stored o.log = [] ∧ o.given = some sa
  | some (.ok, address) =>
      ∃ ai ∈ delivered, stored o.log = [ai] ∧
        o.given = some (lmSocketAddressSetResults sa ai) ∧ address = o.given
  | some (_, address) => stored o.log = [] ∧ o.given = some sa ∧ address = o.given

section
variable {delivered : List (List AddrInfo)} {sa : LmSocketAddress} {o o' : ResolverObject}

theorem ReportMatches.congr (h : ReportMatches delivered sa o)
    (hreports : reports o'.log = reports o.log) (hstored : stored o'.log = stored o.log)
    (hgiven : o'.given = o.given) : ReportMatches delivered sa o' := by
  unfold ReportMatches
  rw [hreports, hstored, hgiven]
  exact h

/-- A second report adds nothing to the first. -/
theorem ReportMatches.again (h : ReportMatches delivered sa o) (hne : reports o.log ≠ [])
    (result : LmResolverResult) (p : Option SaPtr) (k : ResolverCaller) :
    ReportMatches delivered sa (o.emitFinished result p k) := by
  have hhead : (reports (o.emitFinished result p k).log).head? = (reports o.log).head? := by
    show (reports (o.log ++ _)).head? = _
    rw [reports_append, List.head?_append_of_ne_nil _ hne]
  have hstored : stored (o.emitFinished result p k).log = stored o.log := by
    simp [ResolverObject.emitFinished, stored]
  unfold ReportMatches
  rw [hhead, hstored]
  exact h

theorem ReportMatches.untouched (h : ReportMatches delivered sa o) (hnone : reports o.log = []) :
    stored o.log = [] ∧ o.given = some sa := by
  unfold ReportMatches at h
  rw [hnone] at h
  exact h

theorem ReportMatches.without (h : ReportMatches delivered sa o) (hnone : reports o.log = [])
    {result : LmResolverResult} (hresult : result ≠ .ok) (k : ResolverCaller) :
    ReportMatches delivered sa (o.emitFinished result (some .given) k) := by
  obtain ⟨hstored, hgiven⟩ := h.untouched hnone
  have hreports : reports (o.emitFinished result (some .given) k).log = [(result, o.given)] := by
    show reports (o.log ++ _) = _
    rw [reports_append, hnone]
    rfl
  have hst : stored (o.emitFinished result (some .given) k).log = [] := by
    show stored (o.log ++ _) = _
    rw [stored_append, hstored]
    rfl
  unfold ReportMatches
  rw [hreports, hst]
  cases result with
  | ok => exact absurd rfl hresult
  | failed => exact ⟨rfl, hgiven, rfl⟩
  | cancelled => exact ⟨rfl, hgiven, rfl⟩

theorem ReportMatches.success (h : ReportMatches delivered sa o) (hnone : reports o.log = [])
    {ai : List AddrInfo} (hai : ai ∈ delivered) (k : ResolverCaller) :
    ReportMatches delivered sa
      ((o.setResults (some .given) ai).emitFinished .ok (some .given) k) := by
  obtain ⟨hstored, hgiven⟩ := h.untouched hnone
  have hset : o.setResults (some .given) ai =
      { o with
        given := some (lmSocketAddressSetResults sa ai)
        log := o.log ++ [.setResults ai] } := by
    unfold ResolverObject.setResults
    rw [hgiven]
    rfl
  rw [hset]
  unfold ReportMatches
  have hreports : reports (o.log ++ [.setResults ai] ++
      [.finished .ok (some (lmSocketAddressSetResults sa ai))]) =
        [(.ok, some (lmSocketAddressSetResults sa ai))] := by
    rw [reports_append, reports_append, hnone]
    rfl
  have hst : stored (o.log ++ [.setResults ai] ++
      [.finished .ok (some (lmSocketAddressSetResults sa ai))]) = [ai] := by
    rw [stored_append, stored_append, hstored]
    rfl
  simp only [ResolverObject.emitFinished, ResolverObject.deref]
  rw [hreports, hst]
  exact ⟨ai, hai, rfl, rfl, rfl⟩

/-- The end of an emission reports and stores nothing. -/
theorem ReportMatches.endEmission (h : ReportMatches delivered sa o)
    (rest : List ResolverCaller) :
    ReportMatches delivered sa
      ({ o with emissions := rest }.unref.note .initialUnref).unref := by
  refine h.congr ?_ ?_ rfl
  · show reports (o.log ++ _) = _
    rw [reports_append]
    exact List.append_nil _
  · show stored (o.log ++ _) = _
    rw [stored_append]
    exact List.append_nil _

end

/-! ## The asyncns backend -/

/-- A response to a host lookup, whose list is a delivered one if it is a
success. -/
def HostResponse (delivered : List (List AddrInfo)) (r : AsyncnsResponse) : Prop :=
  r = .died ∨ ∃ ret ai, r = .addrinfo ret ai ∧ (ret = 0 → ai ∈ delivered)

/-- What a context for a host lookup may carry. -/
structure Carries (delivered : List (List AddrInfo)) (asyncns : Asyncns) : Prop where
  requests : ∀ type ∈ asyncns.requests, type = .addrinfo
  responses : ∀ r ∈ asyncns.responses, HostResponse delivered r
  query : ∀ q, asyncns.query = some q → q.done = true → q.ret = 0 → q.addrinfo ∈ delivered

section
variable {delivered : List (List AddrInfo)} {asyncns asyncns' : Asyncns}

theorem Carries.completeQuery (h : Carries delivered asyncns) {ret : Int} {ai : List AddrInfo}
    (hai : ret = 0 → ai ∈ delivered) :
    Carries delivered
      (completeQuery (fun q => { q with ret, addrinfo := ai }) asyncns) where
  requests := h.requests
  responses := h.responses
  query q hq _ hret := by
    obtain ⟨q', -, rfl⟩ := Option.map_eq_some_iff.mp hq
    exact hai hret

theorem Carries.handleResponse (h : Carries delivered asyncns) {r : AsyncnsResponse}
    (hr : HostResponse delivered r) (hhandle : handleResponse r asyncns = some asyncns') :
    Carries delivered asyncns' := by
  obtain rfl | ⟨ret, ai, rfl, hai⟩ := hr
  · obtain rfl := Option.some.inj hhandle
    exact ⟨h.requests, h.responses, h.query⟩
  · obtain rfl := Option.some.inj hhandle
    exact h.completeQuery hai

theorem Carries.wait (h : Carries delivered asyncns) {recvs : Nat}
    (hwait : asyncnsWait recvs asyncns = some asyncns') : Carries delivered asyncns' := by
  refine AsyncnsResolver.wait_preserves ?_ h hwait
  intro asyncns asyncns' r responses hresp h hhandle
  have hrest : Carries delivered { asyncns with responses } := by
    refine ⟨h.requests, fun r' hr' => h.responses r' ?_, h.query⟩
    rw [hresp]
    exact List.mem_cons_of_mem _ hr'
  refine hrest.handleResponse (h.responses r ?_) hhandle
  rw [hresp]
  exact List.mem_cons_self ..

theorem Carries.answer (h : Carries delivered asyncns) {r : AsyncnsResponse}
    (hr : ∀ ai, r = .addrinfo 0 ai → ai ∈ delivered) (ha : asyncns.answer r = some asyncns') :
    Carries delivered asyncns' := by
  obtain ⟨type, requests, hreq, -, htype, rfl⟩ := answer_some ha
  refine ⟨fun t ht => h.requests t ?_, fun r' hr' => ?_, h.query⟩
  · rw [hreq]
    exact List.mem_cons_of_mem _ ht
  · rcases List.mem_append.mp hr' with hold | hnew
    · exact h.responses r' hold
    · rw [List.mem_singleton.mp hnew]
      have hmem : type ∈ asyncns.requests := by
        rw [hreq]
        exact List.mem_cons_self ..
      rw [h.requests type hmem] at htype
      cases r with
      | addrinfo ret ai => exact Or.inr ⟨ret, ai, rfl, fun h0 => hr ai (by rw [h0])⟩
      | res ret errno serv => cases htype
      | died => exact Or.inl rfl

theorem Carries.workerDies (h : Carries delivered asyncns) {told : Bool}
    (hd : asyncns.workerDies told = some asyncns') : Carries delivered asyncns' := by
  obtain ⟨-, rfl⟩ := workerDies_some hd
  refine ⟨h.requests, fun r hr => ?_, h.query⟩
  rcases List.mem_append.mp hr with hold | hnew
  · exact h.responses r hold
  · cases told with
    | false => cases hnew
    | true => exact Or.inl (List.mem_singleton.mp hnew)

end

namespace AsyncnsResolver

/-- The list of a successful answer. -/
def deliveredBy : Label → Option (List AddrInfo)
  | .answer (.addrinfo 0 ai) => some ai
  | _ => none

/-- Until a host lookup reports it has its address and its initial reference, and
its context carries what was delivered. -/
structure Pending (delivered : List (List AddrInfo)) (w : World) : Prop where
  sa : w.priv.sa = some .given
  emissions : w.obj.emissions = []
  refCount : w.obj.refCount = w.obj.held + 1
  carries : ∀ asyncns, w.priv.asyncnsCtx = some asyncns → Carries delivered asyncns

/-- A host lookup of `sa`, in a run that delivers these lists. -/
structure HostInv (delivered : List (List AddrInfo)) (sa : LmSocketAddress) (w : World) :
    Prop where
  once : QueryInv w
  report : ReportMatches delivered sa w.obj
  type : w.priv.resolveType = .host
  pending : reports w.obj.log = [] → Pending delivered w

variable {delivered : List (List AddrInfo)} {sa : LmSocketAddress} {w w' : World}

/-- From the first report on only the report matters. -/
theorem HostInv.reported {v : World} (h : HostInv delivered sa w) (hq : QueryInv v)
    (hreport : ReportMatches delivered sa v.obj)
    (hne : reports v.obj.log ≠ []) (htype : v.priv.resolveType = w.priv.resolveType) :
    HostInv delivered sa v :=
  ⟨hq, hreport, htype.trans h.type, fun hnone => absurd hnone hne⟩

theorem HostInv.put {asyncns asyncns' : Asyncns} (h : HostInv delivered sa w)
    (hctx : w.priv.asyncnsCtx = some asyncns)
    (hcarries : Carries delivered asyncns → Carries delivered asyncns') :
    HostInv delivered sa (w.put asyncns') where
  once := ⟨h.once.returned, nofun, h.once.spent⟩
  report := h.report
  type := h.type
  pending hnone := by
    have hp := h.pending hnone
    refine ⟨hp.sa, hp.emissions, hp.refCount, fun a ha => ?_⟩
    injection ha with ha
    exact ha ▸ hcarries (hp.carries asyncns hctx)

theorem HostInv.drop (h : HostInv delivered sa w) (husable : w.obj.usable = true) :
    HostInv delivered sa
      ({ w with obj := { w.obj with held := w.obj.held - 1 } } : World).unref := by
  have hq : QueryInv ({ w with obj := { w.obj with held := w.obj.held - 1 } } : World).unref :=
    QueryInv.unref ⟨h.once.returned, h.once.context, h.once.spent⟩
  unfold World.unref at hq ⊢
  have hheld : w.obj.held ≠ 0 := by
    unfold ResolverObject.usable at husable
    simp only [Bool.and_eq_true, decide_eq_true_eq] at husable
    exact husable.1
  split
  · next hlast =>
      rw [if_pos hlast] at hq
      refine ⟨hq, h.report.congr rfl rfl rfl, h.type, fun hnone => ?_⟩
      have hcount := (h.pending hnone).refCount
      have hone : w.obj.refCount = 1 := hlast
      omega
  · next hlast =>
      rw [if_neg hlast] at hq
      refine ⟨hq, h.report.congr rfl rfl rfl, h.type, fun hnone => ?_⟩
      have hp := h.pending hnone
      refine ⟨hp.sa, hp.emissions, ?_, hp.carries⟩
      have hcount := hp.refCount
      show w.obj.refCount - 1 = w.obj.held - 1 + 1
      omega

theorem cancel_type (w : World) :
    (asyncnsResolverCancel w).priv.resolveType = w.priv.resolveType := by
  obtain ⟨_, htype, h⟩ := cancel_frame w
  rw [h]
  exact htype

theorem HostInv.cancel (h : HostInv delivered sa w) (hq : QueryInv (asyncnsResolverCancel w)) :
    HostInv delivered sa (asyncnsResolverCancel w) := by
  refine h.reported hq ?_ ?_ (cancel_type w)
  · rw [cancel_obj]
    by_cases hnone : reports w.obj.log = []
    · rw [(h.pending hnone).sa]
      exact h.report.without hnone (by simp) .cancel
    · exact h.report.again hnone .cancelled w.priv.sa .cancel
  · rw [cancel_obj]
    exact ResolverObject.reports_emitFinished _ _ _ _

/-- A step of the lookup, whose successful answers are among the delivered
lists. -/
theorem hostInv_step {dnExpand : DnExpand} {l : Label} (h : HostInv delivered sa w)
    (hl : ∀ ai, deliveredBy l = some ai → ai ∈ delivered)
    (hs : step dnExpand w l = some w') : HostInv delivered sa w' := by
  have hq := (once_step h.once hs).1
  cases step_cases hs with
  | hold _ =>
      refine ⟨hq, h.report.congr rfl rfl rfl, h.type, fun hnone => ?_⟩
      have hp := h.pending hnone
      refine ⟨hp.sa, hp.emissions, ?_, hp.carries⟩
      show w.obj.refCount + 1 = w.obj.held + 1 + 1
      rw [hp.refCount]
  | drop husable => exact h.drop husable
  | cancel _ => exact h.cancel hq
  | @resumed k rest hem =>
      have hne : reports w.obj.log ≠ [] := by
        intro hnone
        rw [(h.pending hnone).emissions] at hem
        cases hem
      have hobj := resume_obj k { w with obj := { w.obj with emissions := rest } }
      have hpriv := resume_priv k { w with obj := { w.obj with emissions := rest } }
      refine h.reported hq ?_ ?_ ?_
      · rw [hobj]
        exact h.report.endEmission rest
      · rw [hobj]
        show reports (w.obj.log ++ _) ≠ []
        rw [reports_append]
        exact List.append_ne_nil_of_left_ne_nil hne _
      · rw [hpriv]
        rfl
  | @answer resp asyncns asyncns' hctx hans =>
      refine h.put hctx fun hc => hc.answer (fun ai hresp => hl ai ?_) hans
      rw [hresp]
      rfl
  | workerDies hctx hdies => exact h.put hctx fun hc => hc.workerDies hdies
  | cutOff _ _ =>
      refine ⟨hq, h.report, h.type, fun hnone => ?_⟩
      have hp := h.pending hnone
      exact ⟨hp.sa, hp.emissions, hp.refCount, hp.carries⟩
  | aborted hctx hwait _ =>
      have hput := h.put hctx fun hc => hc.wait hwait
      refine ⟨hq, hput.report, hput.type, fun hnone => ?_⟩
      have hp := hput.pending hnone
      exact ⟨hp.sa, hp.emissions, hp.refCount, hp.carries⟩
  | polled hctx hwait _ _ _ => exact h.put hctx fun hc => hc.wait hwait
  | @answered src recvs name asyncns asyncns' result v hctx hwait hquery hresult =>
      have hnone := h.once.pending hquery
      have hp := h.pending hnone
      have hrep : reports (asyncnsResolverFinished result (.source src) v).obj.log ≠ [] :=
        ResolverObject.reports_emitFinished _ _ _ _
      cases hresult with
      | @failed a =>
          refine h.reported hq ?_ hrep rfl
          show ReportMatches delivered sa (w.obj.emitFinished .failed w.priv.sa (.source src))
          rw [hp.sa]
          exact h.report.without hnone (by simp) _
      | @host q a htype hask hdone hret =>
          refine h.reported hq ?_ hrep rfl
          have hai := ((hp.carries asyncns hctx).wait hwait).query q hask hdone hret
          show ReportMatches delivered sa
            ((w.obj.setResults w.priv.sa q.addrinfo).emitFinished .ok w.priv.sa (.source src))
          rw [hp.sa]
          exact h.report.success hnone hai _
      | srv htype _ =>
          have hhost : w.priv.resolveType = .srv := htype
          rw [h.type] at hhost
          cases hhost

/-- The context right after the submission of a host lookup. -/
theorem carries_submit (delivered : List (List AddrInfo)) (length : Nat) (o : Submission)
    (fd : Int) : Carries delivered (asyncnsSubmit .addrinfo length o { fd }).2 := by
  unfold asyncnsSubmit
  split
  · exact ⟨nofun, nofun, nofun⟩
  · split
    · refine ⟨fun type ht => List.mem_singleton.mp ht, nofun, fun q hq hdone => ?_⟩
      injection hq with hq
      subst hq
      cases hdone
    · exact ⟨nofun, nofun, nofun⟩

theorem hostInv_lookup (delivered : List (List AddrInfo)) (sa : LmSocketAddress)
    (sys : SysResults) : HostInv delivered sa (lmResolverLookup (.host sa) sys) := by
  have hq := queryInv_lookup (.host sa) sys
  cases hnew : sys.asyncnsNew with
  | none =>
      rw [lookup_failed hnew] at hq ⊢
      exact ⟨hq, ⟨rfl, rfl⟩, rfl, fun _ => ⟨rfl, rfl, rfl, nofun⟩⟩
  | some fd =>
      rw [lookup_started hnew] at hq ⊢
      refine ⟨hq, ⟨rfl, rfl⟩, rfl, fun _ => ⟨rfl, rfl, rfl, fun asyncns ha => ?_⟩⟩
      injection ha with ha
      subst ha
      exact carries_submit delivered _ sys.submission fd

/-- Once the lookup has reported, no step changes the address. -/
theorem given_step {dnExpand : DnExpand} {l : Label} (h : QueryInv w)
    (hne : reports w.obj.log ≠ []) (hs : step dnExpand w l = some w') :
    w'.obj.given = w.obj.given ∧ reports w'.obj.log ≠ [] := by
  cases step_cases hs with
  | hold _ => exact ⟨rfl, hne⟩
  | drop _ =>
      rw [unref_obj]
      exact ⟨rfl, hne⟩
  | cancel _ =>
      rw [cancel_obj]
      exact ⟨rfl, ResolverObject.reports_emitFinished _ _ _ _⟩
  | @resumed k rest hem =>
      rw [resume_obj]
      refine ⟨rfl, ?_⟩
      rw [ResolverObject.reports_endEmission]
      exact hne
  | answer _ _ => exact ⟨rfl, hne⟩
  | workerDies _ _ => exact ⟨rfl, hne⟩
  | cutOff _ _ => exact ⟨rfl, hne⟩
  | aborted _ _ _ => exact ⟨rfl, hne⟩
  | polled _ _ _ _ _ => exact ⟨rfl, hne⟩
  | answered _ _ hquery _ => exact absurd (h.pending hquery) hne

end AsyncnsResolver

namespace BlockingResolver

/-- The list of a successful answer. -/
def deliveredBy : Label → Option (List AddrInfo)
  | .dispatch _ (.getaddrinfo 0 ans) => some ans
  | _ => none

/-- A host lookup of `sa`, in a run that delivers these lists. -/
structure HostInv (delivered : List (List AddrInfo)) (sa : LmSocketAddress) (w : World) :
    Prop where
  once : IdleInv w
  report : ReportMatches delivered sa w.obj
  type : ∀ s ∈ w.ctx.sources, s.callback = .host
  pending : reports w.obj.log = [] → w.priv.sa = some .given

variable {delivered : List (List AddrInfo)} {sa : LmSocketAddress} {w w' : World}

theorem HostInv.unref (h : HostInv delivered sa w) : HostInv delivered sa w.unref where
  once := h.once.unref
  report := by
    rw [unref_obj]
    exact h.report.congr rfl rfl rfl
  type s hs := h.type s (mem_of_unref hs)
  pending := by
    rw [unref_obj, unref_priv]
    exact h.pending

theorem hostInv_step {dnExpand : DnExpand} {l : Label} (h : HostInv delivered sa w)
    (hl : ∀ ai, deliveredBy l = some ai → ai ∈ delivered)
    (hs : step dnExpand w l = some w') : HostInv delivered sa w' := by
  have hinv := (once_step h.once hs).1
  cases step_cases hs with
  | hold _ => exact ⟨hinv, h.report.congr rfl rfl rfl, h.type, h.pending⟩
  | drop _ =>
      refine HostInv.unref ⟨?_, h.report.congr rfl rfl rfl, h.type, h.pending⟩
      exact ⟨h.once.returned, h.once.idle, h.once.begun, h.once.spent⟩
  | cancel _ =>
      refine ⟨hinv, ?_, fun s hs => h.type s (mem_destroyIdle.mp hs).1,
        fun hnone => absurd hnone (ResolverObject.reports_emitFinished _ _ _ _)⟩
      show ReportMatches delivered sa ((destroyIdle w).obj.emitFinished .cancelled
        (destroyIdle w).priv.sa .cancel)
      rw [destroyIdle_obj, destroyIdle_priv]
      by_cases hnone : reports w.obj.log = []
      · rw [h.pending hnone]
        exact h.report.without hnone (by simp) .cancel
      · exact h.report.again hnone .cancelled w.priv.sa .cancel
  | @resumed k rest hem =>
      have hne : reports w.obj.log ≠ [] := h.once.begun (by rw [hem]; exact List.cons_ne_nil _ _)
      have hobj := resume_obj k { w with obj := { w.obj with emissions := rest } }
      refine ⟨hinv, ?_, fun s hs => h.type s (mem_of_resume hs).1, fun hnone => ?_⟩
      · rw [hobj]
        exact h.report.endEmission rest
      · rw [hobj, ResolverObject.reports_endEmission] at hnone
        exact absurd hnone hne
  | @host src err ans idle hidle _ hnew =>
      obtain ⟨hnone, hrun⟩ := h.once.running hidle hnew
      have hsa := h.pending hnone
      refine ⟨hinv, ?_, ?_, ?_⟩
      · unfold blockingResolverIdleLookupHost blockingResolverFinished
        rw [hsa]
        split
        · exact h.report.without hnone (by simp) _
        · next hans =>
            rw [not_or, not_not] at hans
            refine h.report.success hnone (hl ans ?_) _
            rw [hans.1]
            rfl
      · unfold blockingResolverIdleLookupHost
        split
        · exact h.type
        · exact h.type
      · unfold blockingResolverIdleLookupHost
        split
        · exact fun hnil => absurd hnil (ResolverObject.reports_emitFinished _ _ _ _)
        · exact fun hnil => absurd hnil (ResolverObject.reports_emitFinished _ _ _ _)
  | @srv src len srvAns name idle hidle hcallback hnew =>
      have hhost := h.type idle (IdleContext.find_some hidle).1
      rw [hcallback] at hhost
      cases hhost

theorem hostInv_lookup (delivered : List (List AddrInfo)) (sa : LmSocketAddress) :
    HostInv delivered sa (lmResolverLookup (.host sa)) := by
  refine ⟨idleInv_lookup _, ⟨rfl, rfl⟩, fun s hs => ?_, fun _ => rfl⟩
  rw [List.mem_singleton.mp hs]

theorem given_step {dnExpand : DnExpand} {l : Label} (h : IdleInv w)
    (hne : reports w.obj.log ≠ []) (hs : step dnExpand w l = some w') :
    w'.obj.given = w.obj.given ∧ reports w'.obj.log ≠ [] := by
  cases step_cases hs with
  | hold _ => exact ⟨rfl, hne⟩
  | drop _ =>
      rw [unref_obj]
      exact ⟨rfl, hne⟩
  | cancel _ =>
      refine ⟨?_, ResolverObject.reports_emitFinished _ _ _ _⟩
      show (destroyIdle w).obj.given = w.obj.given
      rw [destroyIdle_obj]
  | @resumed k rest hem =>
      rw [resume_obj]
      refine ⟨rfl, ?_⟩
      rw [ResolverObject.reports_endEmission]
      exact hne
  | host hidle _ hnew => exact absurd (h.running hidle hnew).1 hne
  | srv hidle _ hnew => exact absurd (h.running hidle hnew).1 hne

end BlockingResolver

/-- For either backend and every run of a host lookup of `sa`: the first report
agrees with what was done to the address, and from then on the address stays as
it is. -/
theorem host_result_matches_address (dnExpand : DnExpand) (sa : LmSocketAddress) :
    (∀ (sys : AsyncnsResolver.SysResults) (as bs : List AsyncnsResolver.Label)
        (w w' : AsyncnsResolver.World),
      exec (AsyncnsResolver.step dnExpand) (AsyncnsResolver.lmResolverLookup (.host sa) sys) as =
          some w →
        exec (AsyncnsResolver.step dnExpand) w bs = some w' →
          ReportMatches (as.filterMap AsyncnsResolver.deliveredBy) sa w.obj ∧
            (reports w.obj.log ≠ [] → w'.obj.given = w.obj.given)) ∧
    ∀ (as bs : List BlockingResolver.Label) (w w' : BlockingResolver.World),
      exec (BlockingResolver.step dnExpand) (BlockingResolver.lmResolverLookup (.host sa)) as =
          some w →
        exec (BlockingResolver.step dnExpand) w bs = some w' →
          ReportMatches (as.filterMap BlockingResolver.deliveredBy) sa w.obj ∧
            (reports w.obj.log ≠ [] → w'.obj.given = w.obj.given) := by
  constructor
  · intro sys as bs w w' has hbs
    have hinv : AsyncnsResolver.HostInv (as.filterMap AsyncnsResolver.deliveredBy) sa w :=
      exec_invariant
        (fun _ l _ h hl hs => @AsyncnsResolver.hostInv_step _ _ _ _ dnExpand l h hl hs)
        (AsyncnsResolver.hostInv_lookup _ sa sys)
        (meets_of_labels fun l hl ai hai => List.mem_filterMap.mpr ⟨l, hl, hai⟩) has
    refine ⟨hinv.report, fun hne => ?_⟩
    have hfinal := exec_preserves
      (I := fun v => AsyncnsResolver.QueryInv v ∧ reports v.obj.log ≠ [] ∧
        v.obj.given = w.obj.given)
      (fun v l v' hv hs => ?_) ⟨hinv.once, hne, rfl⟩ hbs
    · exact hfinal.2.2
    · obtain ⟨hq, hrep, hgiven⟩ := hv
      obtain ⟨hsame, hrep'⟩ := AsyncnsResolver.given_step hq hrep hs
      exact ⟨(AsyncnsResolver.once_step hq hs).1, hrep', hsame.trans hgiven⟩
  · intro as bs w w' has hbs
    have hinv : BlockingResolver.HostInv (as.filterMap BlockingResolver.deliveredBy) sa w :=
      exec_invariant
        (fun _ l _ h hl hs => @BlockingResolver.hostInv_step _ _ _ _ dnExpand l h hl hs)
        (BlockingResolver.hostInv_lookup _ sa)
        (meets_of_labels fun l hl ai hai => List.mem_filterMap.mpr ⟨l, hl, hai⟩) has
    refine ⟨hinv.report, fun hne => ?_⟩
    have hfinal := exec_preserves
      (I := fun v => BlockingResolver.IdleInv v ∧ reports v.obj.log ≠ [] ∧
        v.obj.given = w.obj.given)
      (fun v l v' hv hs => ?_) ⟨hinv.once, hne, rfl⟩ hbs
    · exact hfinal.2.2
    · obtain ⟨hq, hrep, hgiven⟩ := hv
      obtain ⟨hsame, hrep'⟩ := BlockingResolver.given_step hq hrep hs
      exact ⟨(BlockingResolver.once_step hq hs).1, hrep', hsame.trans hgiven⟩

def sampleAnswer : AddrInfo := ⟨0, 2, 1, 6, [2, 0, 0, 0, 127, 0, 0, 1], none⟩

/-- A lookup with each backend that is answered. -/
theorem host_result_matches_address_answered :
    (∃ w, exec (AsyncnsResolver.step dnExpandFails)
        (AsyncnsResolver.lmResolverLookup (.host (lmSocketAddressNew "host" 5222))
          ⟨some 7, ⟨true, true⟩⟩)
        [.answer (.addrinfo 0 [sampleAnswer]), .dispatch 0 1 []] = some w ∧
      reports w.obj.log ≠ [] ∧
      ReportMatches [[sampleAnswer]] (lmSocketAddressNew "host" 5222) w.obj) ∧
    ∃ w, exec (BlockingResolver.step dnExpandFails)
        (BlockingResolver.lmResolverLookup (.host (lmSocketAddressNew "host" 5222)))
        [.dispatch 0 (.getaddrinfo 0 [sampleAnswer])] = some w ∧
      reports w.obj.log ≠ [] ∧
      ReportMatches [[sampleAnswer]] (lmSocketAddressNew "host" 5222) w.obj :=
  ⟨⟨_, rfl, List.cons_ne_nil _ _,
      ((host_result_matches_address dnExpandFails _).1 ⟨some 7, ⟨true, true⟩⟩
        [.answer (.addrinfo 0 [sampleAnswer]), .dispatch 0 1 []] [] _ _ rfl rfl).1⟩,
    _, rfl, List.cons_ne_nil _ _,
    ((host_result_matches_address dnExpandFails _).2
      [.dispatch 0 (.getaddrinfo 0 [sampleAnswer])] [] _ _ rfl rfl).1⟩

end LmTransport.Ref
