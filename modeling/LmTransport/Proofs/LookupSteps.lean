import LmTransport.Ref.AsyncnsResolver
import LmTransport.Ref.BlockingResolver
import LmTransport.Lib.OneShot

/-!
# One step of a lookup

For each backend, what a step does: an inversion of the step function, with a
constructor for each thing that can happen, and what the functions behind it
leave alone. The tally of `finished` emissions is the same for both, since it
is read off the object they share.
-/

namespace LmTransport.Ref

open OneShot

/-! ## The tally of a resolver -/

namespace ResolverObject

/-- An emission of `finished` ends with the loss of the initial reference. -/
def tally (o : ResolverObject) : Tally where
  begun := (reports o.log).length
  ended := initialUnrefs o.log
  underWay := o.emissions.length

@[simp] theorem tally_unref (o : ResolverObject) : o.unref.tally = o.tally := rfl

theorem tally_emitFinished (result : LmResolverResult) (sa : Option SaPtr)
    (k : ResolverCaller) (o : ResolverObject) :
    (o.emitFinished result sa k).tally =
      ⟨o.tally.begun + 1, o.tally.ended, o.tally.underWay + 1⟩ := by
  simp [tally, emitFinished, reports, initialUnrefs]

theorem reports_emitFinished (result : LmResolverResult) (sa : Option SaPtr)
    (k : ResolverCaller) (o : ResolverObject) :
    reports (o.emitFinished result sa k).log ≠ [] := by
  simp [emitFinished, reports]

theorem setResults_emissions (sa : Option SaPtr) (ai : List AddrInfo) (o : ResolverObject) :
    (o.setResults sa ai).emissions = o.emissions := by
  unfold setResults
  split
  · rfl
  · rfl

theorem tally_setResults (sa : Option SaPtr) (ai : List AddrInfo) (o : ResolverObject) :
    (o.setResults sa ai).tally = o.tally := by
  unfold setResults
  split
  · simp [tally, reports, initialUnrefs]
  · rfl

theorem tally_endEmission (o : ResolverObject) (rest : List ResolverCaller) :
    (({ o with emissions := rest }.unref.note .initialUnref).unref).tally =
      ⟨o.tally.begun, o.tally.ended + 1, rest.length⟩ := by
  simp [tally, note, unref, reports, initialUnrefs]

theorem reports_endEmission (o : ResolverObject) (rest : List ResolverCaller) :
    reports (({ o with emissions := rest }.unref.note .initialUnref).unref).log =
      reports o.log := by
  show reports (o.log ++ [.initialUnref]) = _
  rw [reports_append]
  exact List.append_nil _

end ResolverObject

/-! ## The asyncns backend -/

theorem asyncnsIsdone_iff {asyncns : Asyncns} :
    asyncnsIsdone asyncns = true ↔ ∃ q, asyncns.query = some q ∧ q.done = true := by
  unfold asyncnsIsdone
  cases asyncns.query with
  | none => simp
  | some q => simp

theorem answer_some {asyncns asyncns' : Asyncns} {r : AsyncnsResponse}
    (h : asyncns.answer r = some asyncns') :
    ∃ type requests, asyncns.requests = type :: requests ∧ asyncns.worker = true ∧
      r.queryType = some type ∧
      asyncns' = { asyncns with requests, responses := asyncns.responses ++ [r] } := by
  unfold Asyncns.answer at h
  split at h
  · cases h
  · next type requests hreq =>
      split at h
      · next hw =>
          rw [Option.some.injEq] at h
          exact ⟨type, requests, hreq, hw.1, hw.2, h.symm⟩
      · cases h

theorem workerDies_some {asyncns asyncns' : Asyncns} {told : Bool}
    (h : asyncns.workerDies told = some asyncns') :
    asyncns.worker = true ∧
      asyncns' =
        { asyncns with
          worker := false
          responses := asyncns.responses ++ if told then [.died] else [] } := by
  unfold Asyncns.workerDies at h
  split at h
  · next hw =>
      rw [Option.some.injEq] at h
      exact ⟨hw, h.symm⟩
  · cases h

namespace Lookup

def resolveType : Lookup → ResolveType
  | .host _ => .host
  | .service _ _ => .srv

def given : Lookup → Option LmSocketAddress
  | .host sa => some sa
  | .service _ _ => none

def queryType : Lookup → QueryType
  | .host _ => .addrinfo
  | .service _ _ => .resQuery

/-- The submission of the query the lookup needs. -/
def submit : Lookup → Submission → Asyncns → Bool × Asyncns
  | .host sa => asyncnsGetaddrinfo sa.hostname
  | .service domain srv => asyncnsResQuery (resolverCreateSrvString domain srv "tcp")

end Lookup

namespace AsyncnsResolver

theorem readable_iff {w : World} : w.readable = true ↔
    ∃ asyncns, w.priv.asyncnsCtx = some asyncns ∧ asyncns.responses ≠ [] := by
  unfold World.readable
  cases w.priv.asyncnsCtx with
  | none => simp
  | some asyncns => simp

@[simp] theorem cleanup_obj (w : World) : (asyncnsResolverCleanup w).obj = w.obj := rfl

@[simp] theorem unref_obj (w : World) : w.unref.obj = w.obj.unref := by
  unfold World.unref
  split
  · rfl
  · rfl

@[simp] theorem unref_aborted (w : World) : w.unref.aborted = w.aborted := by
  unfold World.unref
  split
  · rfl
  · rfl

@[simp] theorem returnTo_priv (k : ResolverCaller) (w : World) :
    (returnTo k w).priv = w.priv := by
  cases k with
  | cancel => rfl
  | source id => rfl

@[simp] theorem returnTo_obj (k : ResolverCaller) (w : World) :
    (returnTo k w).obj = w.obj := by
  cases k with
  | cancel => rfl
  | source id => rfl

theorem resume_obj (k : ResolverCaller) (w : World) :
    (resume k w).obj = (w.obj.unref.note .initialUnref).unref := by
  unfold resume
  rw [returnTo_obj, unref_obj, cleanup_obj, unref_obj]

theorem unref_priv (w : World) :
    w.unref.priv = w.priv ∨ w.unref.priv = (asyncnsResolverCleanup w).priv := by
  unfold World.unref
  split
  · exact Or.inr rfl
  · exact Or.inl rfl

/-- However often the resolver has cleaned up by then, it has. -/
theorem resume_priv (k : ResolverCaller) (w : World) :
    (resume k w).priv = (asyncnsResolverCleanup w).priv := by
  have hclean : (asyncnsResolverCleanup w.unref).priv = (asyncnsResolverCleanup w).priv := by
    unfold asyncnsResolverCleanup
    rcases unref_priv w with h | h
    · rw [h]
    · rw [h]
      rfl
  unfold resume
  rw [returnTo_priv]
  rcases unref_priv
    { asyncnsResolverCleanup w.unref with
      obj := (asyncnsResolverCleanup w.unref).obj.note .initialUnref } with h | h
  · rw [h]
    exact hclean
  · rw [h]
    exact hclean

@[simp] theorem returnTo_aborted (k : ResolverCaller) (w : World) :
    (returnTo k w).aborted = w.aborted := by
  cases k with
  | cancel => rfl
  | source id => rfl

theorem resume_aborted (k : ResolverCaller) (w : World) : (resume k w).aborted = w.aborted := by
  unfold resume
  rw [returnTo_aborted, unref_aborted]
  exact unref_aborted w

/-! A lookup leaves either no context at all, or one with its watch and, if the
submission got through, a query. -/

theorem lookup_failed {lookup : Lookup} {sys : SysResults} (hnew : sys.asyncnsNew = none) :
    lmResolverLookup lookup sys =
      { priv := { resolveType := lookup.resolveType, sa := lookup.given.map fun _ => .given }
        obj := { given := lookup.given, log := [.lookupReturned] } } := by
  cases lookup with
  | host sa =>
      simp [lmResolverLookup, asyncnsResolverLookupHost, asyncnsResolverPrep, hnew,
        Lookup.resolveType, Lookup.given, ResolverObject.note]
  | service domain srv =>
      simp [lmResolverLookup, asyncnsResolverLookupSrv, asyncnsResolverPrep, hnew,
        Lookup.resolveType, Lookup.given, ResolverObject.note]

theorem lookup_started {lookup : Lookup} {sys : SysResults} {fd : Int}
    (hnew : sys.asyncnsNew = some fd) :
    lmResolverLookup lookup sys =
      { priv :=
          { watchResolv := some 0
            resolvQuery := (lookup.submit sys.submission { fd }).1
            asyncnsCtx := some (lookup.submit sys.submission { fd }).2
            resolvChannel := some ⟨0, fd⟩
            resolveType := lookup.resolveType
            sa := lookup.given.map fun _ => .given }
        obj := { given := lookup.given, log := [.lookupReturned] }
        ctx := { sources := [⟨0, ⟨0, fd⟩, .inn⟩], nextId := 1 } } := by
  cases lookup with
  | host sa =>
      simp [lmResolverLookup, asyncnsResolverLookupHost, asyncnsResolverPrep, hnew,
        Lookup.resolveType, Lookup.given, ResolverObject.note, Lookup.submit, World.submit,
        asyncnsNew, asyncnsFd, lmMiscAddIoWatch, lmSocketAddressGetHost]
  | service domain srv =>
      simp [lmResolverLookup, asyncnsResolverLookupSrv, asyncnsResolverPrep, hnew,
        Lookup.resolveType, Lookup.given, ResolverObject.note, Lookup.submit, World.submit,
        asyncnsNew, asyncnsFd, lmMiscAddIoWatch]

/-- What the callback makes of an answer: the result, and the world when
`finished` is about to be emitted. -/
inductive Answered (w : World) (asyncns : Asyncns) : LmResolverResult → World → Prop
  | failed {asyncns' : Asyncns} :
      Answered w asyncns .failed
        { w with priv := { w.priv with asyncnsCtx := some asyncns', resolvQuery := false } }
  | host {q : AsyncnsQuery} {asyncns' : Asyncns} (htype : w.priv.resolveType = .host)
      (hq : asyncns.query = some q) (hdone : q.done = true) (hret : q.ret = 0) :
      Answered w asyncns .ok
        { w with
          priv := { w.priv with asyncnsCtx := some asyncns', resolvQuery := false }
          obj := w.obj.setResults w.priv.sa q.addrinfo }
  | srv {asyncns' : Asyncns} (htype : w.priv.resolveType = .srv) (sa : LmSocketAddress) :
      Answered w asyncns .ok
        { w with
          priv :=
            { w.priv with
              asyncnsCtx := some asyncns', resolvQuery := false, sa := some (.made sa) } }

theorem hostDone_answered {w : World} {asyncns : Asyncns} (k : ResolverCaller)
    (htype : w.priv.resolveType = .host) (hdone : asyncnsIsdone asyncns = true) :
    ∃ result v, Answered w asyncns result v ∧
      asyncnsResolverHostDone k asyncns w = asyncnsResolverFinished result k v := by
  obtain ⟨q, hq, hqdone⟩ := asyncnsIsdone_iff.mp hdone
  unfold asyncnsResolverHostDone asyncnsGetaddrinfoDone
  cases hdead : asyncns.dead with
  | true => exact ⟨.failed, _, .failed, rfl⟩
  | false =>
      rw [hq]
      simp only [hqdone, Bool.false_eq_true, if_false, if_true]
      by_cases hret : q.ret = 0
      · rw [if_neg (not_not_intro hret)]
        exact ⟨.ok, _, .host htype hq hqdone hret, rfl⟩
      · rw [if_pos hret]
        exact ⟨.failed, _, .failed, rfl⟩

theorem srvDone_answered {dnExpand : DnExpand} {w : World} {asyncns : Asyncns}
    (name : List UInt8) (k : ResolverCaller) (htype : w.priv.resolveType = .srv) :
    ∃ result v, Answered w asyncns result v ∧
      asyncnsResolverSrvDone dnExpand name k asyncns w = asyncnsResolverFinished result k v := by
  unfold asyncnsResolverSrvDone
  split
  next srvLen srvAns asyncns' hres =>
    by_cases hlen : srvLen ≤ 0
    · rw [if_pos hlen]
      exact ⟨.failed, _, .failed, rfl⟩
    · rw [if_neg hlen]
      split
      · next newServer newPort hparse => exact ⟨.ok, _, .srv htype _, rfl⟩
      · next hparse => exact ⟨.failed, _, .failed, rfl⟩

/-- The world with its context in this state. -/
abbrev World.put (asyncns : Asyncns) (w : World) : World :=
  { w with priv := { w.priv with asyncnsCtx := some asyncns } }

/-- Everything that can happen in one step. -/
inductive Happens (w : World) : Label → World → Prop
  | hold (h : w.obj.refCount ≠ 0) : Happens w .hold { w with obj := w.obj.hold }
  | drop (h : w.obj.usable = true) :
      Happens w .drop ({ w with obj := { w.obj with held := w.obj.held - 1 } } : World).unref
  | cancel (h : w.obj.usable = true) : Happens w .cancel (asyncnsResolverCancel w)
  | resumed {k : ResolverCaller} {rest : List ResolverCaller} (h : w.obj.emissions = k :: rest) :
      Happens w .handlersDone (resume k { w with obj := { w.obj with emissions := rest } })
  | answer {resp : AsyncnsResponse} {asyncns asyncns' : Asyncns}
      (hctx : w.priv.asyncnsCtx = some asyncns) (h : asyncns.answer resp = some asyncns') :
      Happens w (.answer resp) (w.put asyncns')
  | workerDies {told : Bool} {asyncns asyncns' : Asyncns}
      (hctx : w.priv.asyncnsCtx = some asyncns) (h : asyncns.workerDies told = some asyncns') :
      Happens w (.workerDies told) (w.put asyncns')
  | cutOff {src recvs : Nat} {name : List UInt8} {asyncns : Asyncns}
      (hctx : w.priv.asyncnsCtx = some asyncns) (hwait : asyncnsWait recvs asyncns = none) :
      Happens w (.dispatch src recvs name) { w with aborted := true }
  | aborted {src recvs : Nat} {name : List UInt8} {asyncns asyncns' : Asyncns}
      (hctx : w.priv.asyncnsCtx = some asyncns) (hwait : asyncnsWait recvs asyncns = some asyncns')
      (hquery : w.priv.resolvQuery = false) :
      Happens w (.dispatch src recvs name) { w.put asyncns' with aborted := true }
  | polled {src recvs : Nat} {name : List UInt8} {asyncns asyncns' : Asyncns}
      (hctx : w.priv.asyncnsCtx = some asyncns) (hwait : asyncnsWait recvs asyncns = some asyncns')
      (hquery : w.priv.resolvQuery = true) (hresp : asyncns.responses ≠ [])
      (hdone : asyncnsIsdone asyncns' = false) :
      Happens w (.dispatch src recvs name) (w.put asyncns')
  | answered {src recvs : Nat} {name : List UInt8} {asyncns asyncns' : Asyncns}
      {result : LmResolverResult} {v : World}
      (hctx : w.priv.asyncnsCtx = some asyncns) (hwait : asyncnsWait recvs asyncns = some asyncns')
      (hquery : w.priv.resolvQuery = true) (hresult : Answered (w.put asyncns') asyncns' result v) :
      Happens w (.dispatch src recvs name) (asyncnsResolverFinished result (.source src) v)

theorem dispatch_cases {dnExpand : DnExpand} {src recvs : Nat} {name : List UInt8}
    {w w' : World} (h : dispatchWatch dnExpand src recvs name w = some w') :
    Happens w (.dispatch src recvs name) w' := by
  unfold dispatchWatch at h
  split at h
  · next hready =>
      obtain ⟨asyncns, hctx, hresp⟩ := readable_iff.mp hready.2.1
      rw [Option.some.injEq, asyncnsResolverIoCb, hctx] at h
      simp only [] at h
      subst h
      split
      · next hwait => exact .cutOff hctx hwait
      · next asyncns' hwait =>
          split
          · next hquery => exact .aborted hctx hwait (by simpa using hquery)
          · next hquery =>
              have hq : w.priv.resolvQuery = true := by simpa using hquery
              split
              · next hdone => exact .polled hctx hwait hq hresp (by simpa using hdone)
              · next hdone =>
                  have hd : asyncnsIsdone asyncns' = true := by simpa using hdone
                  split
                  · next htype =>
                      obtain ⟨result, v, hresult, heq⟩ :=
                        hostDone_answered (w := w.put asyncns') (.source src) htype hd
                      rw [heq]
                      exact .answered hctx hwait hq hresult
                  · next htype =>
                      obtain ⟨result, v, hresult, heq⟩ :=
                        @srvDone_answered dnExpand (w.put asyncns') asyncns' name (.source src)
                          htype
                      rw [heq]
                      exact .answered hctx hwait hq hresult
  · cases h

theorem remote_some {f : Asyncns → Option Asyncns} {w w' : World}
    (h : w.remote f = some w') :
    ∃ asyncns asyncns', w.priv.asyncnsCtx = some asyncns ∧ f asyncns = some asyncns' ∧
      w' = w.put asyncns' := by
  unfold World.remote at h
  split at h
  · cases h
  · next asyncns hctx =>
      obtain ⟨asyncns', hf, rfl⟩ := Option.map_eq_some_iff.mp h
      exact ⟨asyncns, asyncns', hctx, hf, rfl⟩

theorem step_cases {dnExpand : DnExpand} {w w' : World} {l : Label}
    (h : step dnExpand w l = some w') : Happens w l w' := by
  unfold step at h
  split at h
  · cases h
  · cases l with
    | hold =>
        simp only [] at h
        split at h
        · cases h
        · next href =>
            rw [Option.some.injEq] at h
            subst h
            exact .hold href
    | drop =>
        simp only [] at h
        split at h
        · next husable =>
            rw [Option.some.injEq] at h
            subst h
            exact .drop husable
        · cases h
    | cancel =>
        simp only [] at h
        split at h
        · next husable =>
            rw [Option.some.injEq] at h
            subst h
            exact .cancel husable
        · cases h
    | handlersDone =>
        simp only [] at h
        split at h
        · cases h
        · next k rest hem =>
            rw [Option.some.injEq] at h
            subst h
            exact .resumed hem
    | answer resp =>
        obtain ⟨asyncns, asyncns', hctx, hans, rfl⟩ := remote_some h
        exact .answer hctx hans
    | workerDies told =>
        obtain ⟨asyncns, asyncns', hctx, hdies, rfl⟩ := remote_some h
        exact .workerDies hctx hdies
    | dispatch src recvs name => exact dispatch_cases h

end AsyncnsResolver

/-! ## The blocking backend -/

namespace BlockingResolver

@[simp] theorem destroyIdle_obj (w : World) : (destroyIdle w).obj = w.obj := by
  unfold destroyIdle
  split
  · rfl
  · rfl

@[simp] theorem destroyIdle_priv (w : World) : (destroyIdle w).priv = w.priv := by
  unfold destroyIdle
  split
  · rfl
  · rfl

@[simp] theorem unref_obj (w : World) : w.unref.obj = w.obj.unref := by
  unfold World.unref
  split
  · rw [destroyIdle_obj]
  · rfl

@[simp] theorem returnTo_obj (k : ResolverCaller) (w : World) :
    (returnTo k w).obj = w.obj := by
  cases k with
  | cancel => rfl
  | source id => rfl

theorem resume_obj (k : ResolverCaller) (w : World) :
    (resume k w).obj = (w.obj.unref.note .initialUnref).unref := by
  unfold resume
  rw [returnTo_obj, unref_obj, unref_obj]

theorem mem_destroyIdle {w : World} {s : IdleSource ResolveType} :
    s ∈ (destroyIdle w).ctx.sources ↔ s ∈ w.ctx.sources ∧ w.priv.idleSource ≠ some s.id := by
  unfold destroyIdle
  split
  · next hidle => simp [hidle]
  · next id hidle =>
      rw [IdleContext.mem_destroy, hidle, ne_eq, ne_eq, Option.some.injEq, eq_comm]

theorem mem_of_unref {w : World} {s : IdleSource ResolveType}
    (h : s ∈ w.unref.ctx.sources) : s ∈ w.ctx.sources := by
  unfold World.unref at h
  split at h
  · exact (mem_destroyIdle.mp h).1
  · exact h

/-- When the rest of an emission is over, the source whose callback emitted is
gone. -/
theorem mem_of_resume {k : ResolverCaller} {w : World} {s : IdleSource ResolveType}
    (h : s ∈ (resume k w).ctx.sources) : s ∈ w.ctx.sources ∧ k ≠ .source s.id := by
  unfold resume at h
  cases k with
  | cancel =>
      have hs := mem_of_unref h
      exact ⟨mem_of_unref hs, nofun⟩
  | source id =>
      obtain ⟨hs, hid⟩ := IdleContext.mem_destroy.mp h
      have hs := mem_of_unref hs
      refine ⟨mem_of_unref hs, fun hk => hid ?_⟩
      injection hk with hk
      exact hk.symm

/-- Everything that can happen in one step. -/
inductive Happens (dnExpand : DnExpand) (w : World) : Label → World → Prop
  | hold (h : w.obj.refCount ≠ 0) : Happens dnExpand w .hold { w with obj := w.obj.hold }
  | drop (h : w.obj.usable = true) :
      Happens dnExpand w .drop
        ({ w with obj := { w.obj with held := w.obj.held - 1 } } : World).unref
  | cancel (h : w.obj.usable = true) : Happens dnExpand w .cancel (blockingResolverCancel w)
  | resumed {k : ResolverCaller} {rest : List ResolverCaller} (h : w.obj.emissions = k :: rest) :
      Happens dnExpand w .handlersDone
        (resume k { w with obj := { w.obj with emissions := rest } })
  | host {src : Nat} {err : Int} {ans : List AddrInfo} {idle : IdleSource ResolveType}
      (hidle : w.ctx.find src = some idle) (hcallback : idle.callback = .host)
      (hnew : .source src ∉ w.obj.emissions) :
      Happens dnExpand w (.dispatch src (.getaddrinfo err ans))
        (blockingResolverIdleLookupHost (.source src) err ans w)
  | srv {src : Nat} {len : Int} {srvAns : Memory} {name : List UInt8}
      {idle : IdleSource ResolveType} (hidle : w.ctx.find src = some idle)
      (hcallback : idle.callback = .srv) (hnew : .source src ∉ w.obj.emissions) :
      Happens dnExpand w (.dispatch src (.resQuery len srvAns name))
        (blockingResolverIdleLookupSrv dnExpand name (.source src) len srvAns w)

theorem dispatch_cases {dnExpand : DnExpand} {src : Nat} {answer : Answer} {w w' : World}
    (h : dispatchIdle dnExpand src answer w = some w') :
    Happens dnExpand w (.dispatch src answer) w' := by
  unfold dispatchIdle at h
  split at h
  · cases h
  · next hnew =>
      split at h
      · next id err ans hidle =>
          rw [Option.some.injEq] at h
          subst h
          exact .host hidle rfl hnew
      · next id len srvAns name hidle =>
          rw [Option.some.injEq] at h
          subst h
          exact .srv hidle rfl hnew
      · cases h

theorem step_cases {dnExpand : DnExpand} {w w' : World} {l : Label}
    (h : step dnExpand w l = some w') : Happens dnExpand w l w' := by
  unfold step at h
  cases l with
  | hold =>
      simp only [] at h
      split at h
      · cases h
      · next href =>
          rw [Option.some.injEq] at h
          subst h
          exact .hold href
  | drop =>
      simp only [] at h
      split at h
      · next husable =>
          rw [Option.some.injEq] at h
          subst h
          exact .drop husable
      · cases h
  | cancel =>
      simp only [] at h
      split at h
      · next husable =>
          rw [Option.some.injEq] at h
          subst h
          exact .cancel husable
      · cases h
  | handlersDone =>
      simp only [] at h
      split at h
      · cases h
      · next k rest hem =>
          rw [Option.some.injEq] at h
          subst h
          exact .resumed hem
  | dispatch src answer => exact dispatch_cases h

end BlockingResolver

end LmTransport.Ref
