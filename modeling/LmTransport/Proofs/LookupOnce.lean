import LmTransport.Proofs.LookupSteps

/-!
# A lookup finishes once

Completion and cancellation end in the same function, which emits `finished`,
cleans up, and drops the reference the resolver owns on itself. It does not
record that it ran. The completion of a lookup cannot come second, since
whatever ran first took the query or the idle source away; a cancel can, and
then the signal is emitted again and a reference is dropped that belongs to
someone else.

So each backend is one-shot as long as nobody cancels a lookup that has
reported, also from a handler of that report.
-/

namespace LmTransport.Ref

open Lts OneShot

/-- Nothing is reported before the lookup function has returned, and the report
is made once. -/
def FinishesOnce (o : ResolverObject) : Prop :=
  o.log.head? = some .lookupReturned ∧ o.tally.Once

instance (o : ResolverObject) : Decidable (FinishesOnce o) :=
  inferInstanceAs (Decidable (_ ∧ _))

theorem head?_append_of_some {α : Type} {a : α} {l l' : List α} (h : l.head? = some a) :
    (l ++ l').head? = some a := by
  rw [List.head?_append, h]
  rfl

theorem setResults_log (sa : Option SaPtr) (ai : List AddrInfo) (o : ResolverObject) :
    ∃ evs, (o.setResults sa ai).log = o.log ++ evs := by
  unfold ResolverObject.setResults
  split
  · exact ⟨_, rfl⟩
  · exact ⟨[], (List.append_nil _).symm⟩

theorem ResolverObject.moves_emit {C : Prop} {o : ResolverObject}
    (hC : C ↔ reports o.log = []) (result : LmResolverResult) (sa : Option SaPtr)
    (k : ResolverCaller) : Tally.Moves C o.tally (o.emitFinished result sa k).tally := by
  rw [ResolverObject.tally_emitFinished]
  exact .begins (hC.trans List.length_eq_zero_iff.symm)

theorem ResolverObject.moves_resume {C : Prop} (hC : C) {o : ResolverObject}
    {k : ResolverCaller} {rest : List ResolverCaller} (hem : o.emissions = k :: rest) :
    Tally.Moves C o.tally
      (({ o with emissions := rest }.unref.note .initialUnref).unref).tally := by
  rw [ResolverObject.tally_endEmission]
  refine .ends hC ?_
  show o.emissions.length = rest.length + 1
  rw [hem, List.length_cons]

namespace AsyncnsResolver

/-- The caller cancels only a lookup that has not reported. -/
def CancelsPending (w : World) (l : Label) : Prop :=
  match l with
  | .cancel => reports w.obj.log = []
  | _ => True

/-- `resolv_query` is the query of a context, and it is `NULL` from the first
report on. -/
structure QueryInv (w : World) : Prop where
  returned : w.obj.log.head? = some .lookupReturned
  context : w.priv.asyncnsCtx = none → w.priv.resolvQuery = false
  spent : reports w.obj.log ≠ [] → w.priv.resolvQuery = false

theorem QueryInv.of_null {w : World} (hret : w.obj.log.head? = some .lookupReturned)
    (hq : w.priv.resolvQuery = false) : QueryInv w :=
  ⟨hret, fun _ => hq, fun _ => hq⟩

/-- While there is a query nothing has been reported. -/
theorem QueryInv.pending {w : World} (h : QueryInv w) (hquery : w.priv.resolvQuery = true) :
    reports w.obj.log = [] := by
  by_contra hne
  have hnull := h.spent hne
  rw [hquery] at hnull
  cases hnull

theorem QueryInv.unref {w : World} (h : QueryInv w) : QueryInv w.unref := by
  unfold World.unref
  split
  · exact .of_null h.returned rfl
  · exact ⟨h.returned, h.context, h.spent⟩

theorem Answered.resolvQuery {w v : World} {asyncns : Asyncns} {result : LmResolverResult}
    (h : Answered w asyncns result v) : v.priv.resolvQuery = false := by
  cases h with
  | failed => rfl
  | host _ _ _ _ => rfl
  | srv _ _ => rfl

theorem Answered.tally {w v : World} {asyncns : Asyncns} {result : LmResolverResult}
    (h : Answered w asyncns result v) : v.obj.tally = w.obj.tally := by
  cases h with
  | failed => rfl
  | host _ _ _ _ => exact ResolverObject.tally_setResults _ _ _
  | srv _ _ => rfl

theorem Answered.log {w v : World} {asyncns : Asyncns} {result : LmResolverResult}
    (h : Answered w asyncns result v) : ∃ evs, v.obj.log = w.obj.log ++ evs := by
  cases h with
  | failed => exact ⟨[], (List.append_nil _).symm⟩
  | host _ _ _ _ => exact setResults_log _ _ _
  | srv _ _ => exact ⟨[], (List.append_nil _).symm⟩

theorem cancel_resolvQuery {w : World} (h : QueryInv w) :
    (asyncnsResolverCancel w).priv.resolvQuery = false := by
  unfold asyncnsResolverCancel asyncnsResolverFinished
  cases hctx : w.priv.asyncnsCtx with
  | none => exact h.context hctx
  | some asyncns =>
      cases hquery : w.priv.resolvQuery with
      | true => rfl
      | false => exact hquery

/-- Cancelling emits, and at most the query is different in `priv`. -/
theorem cancel_frame (w : World) :
    ∃ priv, priv.resolveType = w.priv.resolveType ∧ asyncnsResolverCancel w =
      { w with priv, obj := w.obj.emitFinished .cancelled w.priv.sa .cancel } := by
  unfold asyncnsResolverCancel asyncnsResolverFinished
  split
  · exact ⟨w.priv, rfl, rfl⟩
  · split
    · refine ⟨_, ?_, rfl⟩
      rfl
    · exact ⟨w.priv, rfl, rfl⟩

theorem cancel_obj (w : World) :
    (asyncnsResolverCancel w).obj = w.obj.emitFinished .cancelled w.priv.sa .cancel := by
  obtain ⟨_, -, h⟩ := cancel_frame w
  rw [h]

theorem handleResponse_some {r : AsyncnsResponse} {asyncns asyncns' : Asyncns}
    (h : handleResponse r asyncns = some asyncns') :
    r = .died ∧ asyncns' = { asyncns with dead := true } ∨
      (∃ ret ai, r = .addrinfo ret ai ∧
        asyncns' = completeQuery (fun q => { q with ret, addrinfo := ai }) asyncns) ∨
      ∃ ret errno serv, r = .res ret errno serv ∧
        asyncns' = completeQuery (fun q => { q with ret, errno, serv }) asyncns := by
  unfold handleResponse at h
  split at h
  · cases h
  · cases r with
    | died => exact Or.inl ⟨rfl, (Option.some.inj h).symm⟩
    | addrinfo ret ai => exact Or.inr (Or.inl ⟨ret, ai, rfl, (Option.some.inj h).symm⟩)
    | res ret errno serv =>
        exact Or.inr (Or.inr ⟨ret, errno, serv, rfl, (Option.some.inj h).symm⟩)

/-- What every response keeps, waiting for any number of them keeps. -/
theorem wait_preserves {P : Asyncns → Prop}
    (hreceive : ∀ asyncns asyncns' r responses, asyncns.responses = r :: responses → P asyncns →
      handleResponse r { asyncns with responses } = some asyncns' → P asyncns')
    {asyncns asyncns' : Asyncns} {recvs : Nat} (h : P asyncns)
    (hwait : asyncnsWait recvs asyncns = some asyncns') : P asyncns' := by
  induction recvs generalizing asyncns with
  | zero => exact Option.some.inj hwait ▸ h
  | succ recvs ih =>
      unfold asyncnsWait at hwait
      split at hwait
      · exact Option.some.inj hwait ▸ h
      · split at hwait
        · exact Option.some.inj hwait ▸ h
        · next r responses hresp =>
            split at hwait
            · cases hwait
            · next received hhandle => exact ih (hreceive _ _ r responses hresp h hhandle) hwait

theorem queryInv_lookup (lookup : Lookup) (sys : SysResults) :
    QueryInv (lmResolverLookup lookup sys) := by
  cases hnew : sys.asyncnsNew with
  | none =>
      rw [lookup_failed hnew]
      exact .of_null rfl rfl
  | some fd =>
      rw [lookup_started hnew]
      exact ⟨rfl, nofun, fun h => absurd rfl h⟩

/-- One step of the resolver, as a step of something that may run once. -/
theorem once_step {dnExpand : DnExpand} {w w' : World} {l : Label} (hinv : QueryInv w)
    (h : step dnExpand w l = some w') :
    QueryInv w' ∧ Tally.Moves (CancelsPending w l) w.obj.tally w'.obj.tally := by
  cases step_cases h with
  | hold _ => exact ⟨⟨hinv.returned, hinv.context, hinv.spent⟩, .stays trivial⟩
  | drop _ =>
      refine ⟨QueryInv.unref ⟨hinv.returned, hinv.context, hinv.spent⟩, ?_⟩
      rw [unref_obj, ResolverObject.tally_unref]
      exact .stays trivial
  | cancel _ =>
      have hobj := cancel_obj w
      refine ⟨.of_null ?_ (cancel_resolvQuery hinv), ?_⟩
      · rw [hobj]
        exact head?_append_of_some hinv.returned
      · rw [hobj]
        exact ResolverObject.moves_emit Iff.rfl _ _ _
  | @resumed k rest hem =>
      have hobj := resume_obj k { w with obj := { w.obj with emissions := rest } }
      refine ⟨.of_null ?_ ?_, ?_⟩
      · rw [hobj]
        exact head?_append_of_some hinv.returned
      · rw [resume_priv]
        rfl
      · rw [hobj]
        exact ResolverObject.moves_resume trivial hem
  | answer hctx _ => exact ⟨⟨hinv.returned, nofun, hinv.spent⟩, .stays trivial⟩
  | workerDies hctx _ => exact ⟨⟨hinv.returned, nofun, hinv.spent⟩, .stays trivial⟩
  | cutOff _ _ => exact ⟨⟨hinv.returned, hinv.context, hinv.spent⟩, .stays trivial⟩
  | aborted hctx _ _ => exact ⟨⟨hinv.returned, nofun, hinv.spent⟩, .stays trivial⟩
  | polled hctx _ _ _ _ => exact ⟨⟨hinv.returned, nofun, hinv.spent⟩, .stays trivial⟩
  | @answered src recvs name asyncns asyncns' result v hctx hwait hquery hresult =>
      refine ⟨.of_null ?_ hresult.resolvQuery, ?_⟩
      · obtain ⟨evs, hlog⟩ := hresult.log
        show (v.obj.log ++ _).head? = _
        rw [hlog]
        exact head?_append_of_some (head?_append_of_some hinv.returned)
      · show Tally.Moves _ _ (v.obj.emitFinished result v.priv.sa (.source src)).tally
        rw [ResolverObject.tally_emitFinished, hresult.tally]
        refine .begins (iff_of_true trivial ?_)
        exact List.length_eq_zero_iff.mpr (hinv.pending hquery)

end AsyncnsResolver

namespace BlockingResolver

def CancelsPending (w : World) (l : Label) : Prop :=
  match l with
  | .cancel => reports w.obj.log = []
  | _ => True

/-- Only the recorded idle source can still be dispatched, and after the first
report none can: one that is still attached is running its callback. -/
structure IdleInv (w : World) : Prop where
  returned : w.obj.log.head? = some .lookupReturned
  idle : ∀ s ∈ w.ctx.sources, w.priv.idleSource = some s.id ∨ .source s.id ∈ w.obj.emissions
  begun : w.obj.emissions ≠ [] → reports w.obj.log ≠ []
  spent : reports w.obj.log ≠ [] → ∀ s ∈ w.ctx.sources, .source s.id ∈ w.obj.emissions

theorem idleLookupHost_finished (k : ResolverCaller) (err : Int) (ans : List AddrInfo)
    (w : World) :
    ∃ result o, (∃ evs, o.log = w.obj.log ++ evs) ∧ o.tally = w.obj.tally ∧
      o.emissions = w.obj.emissions ∧
      blockingResolverIdleLookupHost k err ans w =
        blockingResolverFinished result k { w with obj := o } := by
  unfold blockingResolverIdleLookupHost
  split
  · exact ⟨.failed, w.obj, ⟨[], (List.append_nil _).symm⟩, rfl, rfl, rfl⟩
  · exact ⟨.ok, _, setResults_log _ _ _, ResolverObject.tally_setResults _ _ _,
      ResolverObject.setResults_emissions _ _ _, rfl⟩

theorem idleLookupSrv_finished (dnExpand : DnExpand) (name : List UInt8) (k : ResolverCaller)
    (len : Int) (srvAns : Memory) (w : World) :
    ∃ result priv, blockingResolverIdleLookupSrv dnExpand name k len srvAns w =
      blockingResolverFinished result k { w with priv } := by
  unfold blockingResolverIdleLookupSrv
  split
  · exact ⟨.failed, w.priv, rfl⟩
  · exact ⟨.ok, _, rfl⟩

theorem unref_priv (w : World) : w.unref.priv = w.priv := by
  unfold World.unref
  split
  · rw [destroyIdle_priv]
  · rfl

theorem IdleInv.unref {w : World} (h : IdleInv w) : IdleInv w.unref where
  returned := by
    rw [unref_obj]
    exact h.returned
  idle s hs := by
    rw [unref_obj, unref_priv]
    exact h.idle s (mem_of_unref hs)
  begun := by
    rw [unref_obj]
    exact h.begun
  spent hne s hs := by
    rw [unref_obj] at hne ⊢
    exact h.spent hne s (mem_of_unref hs)

/-- An emission from which every attached source is running its callback. -/
theorem IdleInv.emit {w : World} (h : w.obj.log.head? = some .lookupReturned)
    (k : ResolverCaller) (result : LmResolverResult)
    (hrun : ∀ s ∈ w.ctx.sources, .source s.id ∈ k :: w.obj.emissions) :
    IdleInv (blockingResolverFinished result k w) where
  returned := head?_append_of_some h
  idle s hs := Or.inr (hrun s hs)
  begun _ := ResolverObject.reports_emitFinished result w.priv.sa k w.obj
  spent _ := hrun

/-- The source about to be dispatched is the only one that is not running. -/
theorem IdleInv.running {w : World} (h : IdleInv w) {src : Nat}
    {idle : IdleSource ResolveType} (hidle : w.ctx.find src = some idle)
    (hnew : .source src ∉ w.obj.emissions) :
    reports w.obj.log = [] ∧
      ∀ s ∈ w.ctx.sources, .source s.id ∈ .source src :: w.obj.emissions := by
  obtain ⟨hmem, hid⟩ := IdleContext.find_some hidle
  subst hid
  constructor
  · by_contra hne
    exact hnew (h.spent hne idle hmem)
  · intro s hs
    have hrec := (h.idle idle hmem).resolve_right hnew
    rcases h.idle s hs with heq | hrun
    · rw [hrec, Option.some.injEq] at heq
      rw [heq]
      exact List.mem_cons_self ..
    · exact List.mem_cons_of_mem _ hrun

theorem idleInv_lookup (lookup : Lookup) : IdleInv (lmResolverLookup lookup) := by
  cases lookup with
  | host sa =>
      refine ⟨rfl, fun s hs => Or.inl ?_, fun h => absurd rfl h, fun h => absurd rfl h⟩
      rw [List.mem_singleton.mp hs]
      rfl
  | service domain srv =>
      refine ⟨rfl, fun s hs => Or.inl ?_, fun h => absurd rfl h, fun h => absurd rfl h⟩
      rw [List.mem_singleton.mp hs]
      rfl

theorem once_step {dnExpand : DnExpand} {w w' : World} {l : Label} (hinv : IdleInv w)
    (h : step dnExpand w l = some w') :
    IdleInv w' ∧ Tally.Moves (CancelsPending w l) w.obj.tally w'.obj.tally := by
  cases step_cases h with
  | hold _ => exact ⟨⟨hinv.returned, hinv.idle, hinv.begun, hinv.spent⟩, .stays trivial⟩
  | drop _ =>
      refine ⟨IdleInv.unref ⟨hinv.returned, hinv.idle, hinv.begun, hinv.spent⟩, ?_⟩
      rw [unref_obj, ResolverObject.tally_unref]
      exact .stays trivial
  | cancel _ =>
      constructor
      · refine IdleInv.emit ?_ .cancel .cancelled fun s hs => List.mem_cons_of_mem _ ?_
        · rw [destroyIdle_obj]
          exact hinv.returned
        · obtain ⟨hs, hne⟩ := mem_destroyIdle.mp hs
          rw [destroyIdle_obj]
          exact (hinv.idle s hs).resolve_left hne
      · show Tally.Moves _ _ ((destroyIdle w).obj.emitFinished _ _ _).tally
        rw [destroyIdle_obj]
        exact ResolverObject.moves_emit Iff.rfl _ _ _
  | @resumed k rest hem =>
      have hobj := resume_obj k { w with obj := { w.obj with emissions := rest } }
      have hbegun : reports w.obj.log ≠ [] := hinv.begun (by rw [hem]; exact List.cons_ne_nil _ _)
      have hrest : ∀ s ∈ (resume k { w with obj := { w.obj with emissions := rest } }).ctx.sources,
          .source s.id ∈ rest := by
        intro s hs
        obtain ⟨hs, hne⟩ := mem_of_resume hs
        have hrun := hinv.spent hbegun s hs
        rw [hem] at hrun
        exact (List.mem_cons.mp hrun).resolve_left fun heq => hne heq.symm
      refine ⟨⟨?_, ?_, ?_, ?_⟩, ?_⟩
      · rw [hobj]
        exact head?_append_of_some hinv.returned
      · rw [hobj]
        exact fun s hs => Or.inr (hrest s hs)
      · rw [hobj]
        intro _
        rw [ResolverObject.reports_endEmission]
        exact hbegun
      · rw [hobj]
        exact fun _ s hs => hrest s hs
      · rw [hobj]
        exact ResolverObject.moves_resume trivial hem
  | @host src err ans idle hidle _ hnew =>
      obtain ⟨hnone, hrun⟩ := hinv.running hidle hnew
      obtain ⟨result, o, hlog, htally, hem, heq⟩ :=
        idleLookupHost_finished (.source src) err ans w
      rw [heq]
      refine ⟨IdleInv.emit (w := { w with obj := o }) ?_ _ result ?_, ?_⟩
      · obtain ⟨evs, hlog⟩ := hlog
        show o.log.head? = _
        rw [hlog]
        exact head?_append_of_some hinv.returned
      · show ∀ s ∈ w.ctx.sources, _ ∈ _ :: o.emissions
        rw [hem]
        exact hrun
      · show Tally.Moves _ _ (o.emitFinished result w.priv.sa (.source src)).tally
        rw [ResolverObject.tally_emitFinished, htally]
        exact .begins (iff_of_true trivial (List.length_eq_zero_iff.mpr hnone))
  | @srv src len srvAns name idle hidle _ hnew =>
      obtain ⟨hnone, hrun⟩ := hinv.running hidle hnew
      obtain ⟨result, priv, heq⟩ :=
        idleLookupSrv_finished dnExpand name (.source src) len srvAns w
      rw [heq]
      refine ⟨IdleInv.emit (w := { w with priv }) hinv.returned _ result hrun, ?_⟩
      exact ResolverObject.moves_emit (iff_of_true trivial hnone) _ _ _

end BlockingResolver

/-- For either backend: a lookup finishes once, and drops its initial reference
once, when that emission ends, just when no cancel comes after the report. -/
theorem lookup_finishes_once (dnExpand : DnExpand) (lookup : Lookup) :
    (∀ (sys : AsyncnsResolver.SysResults) (as : List AsyncnsResolver.Label),
      Along (AsyncnsResolver.step dnExpand) (fun _ _ w => FinishesOnce w.obj)
          (AsyncnsResolver.lmResolverLookup lookup sys) as ↔
        Meets (AsyncnsResolver.step dnExpand) AsyncnsResolver.CancelsPending
          (AsyncnsResolver.lmResolverLookup lookup sys) as) ∧
    ∀ as : List BlockingResolver.Label,
      Along (BlockingResolver.step dnExpand) (fun _ _ w => FinishesOnce w.obj)
          (BlockingResolver.lmResolverLookup lookup) as ↔
        Meets (BlockingResolver.step dnExpand) BlockingResolver.CancelsPending
          (BlockingResolver.lmResolverLookup lookup) as := by
  constructor
  · intro sys as
    have htally : (AsyncnsResolver.lmResolverLookup lookup sys).obj.tally = ⟨0, 0, 0⟩ := by
      cases hnew : sys.asyncnsNew with
      | none => rw [AsyncnsResolver.lookup_failed hnew]; rfl
      | some fd => rw [AsyncnsResolver.lookup_started hnew]; rfl
    exact @along_once_iff _ _ _ (·.obj.tally) _ AsyncnsResolver.QueryInv
      (·.obj.log.head? = some .lookupReturned) (fun _ hinv => hinv.returned)
      (fun _ _ _ hinv ht => AsyncnsResolver.once_step hinv ht) _ as
      (AsyncnsResolver.queryInv_lookup lookup sys) (by rw [htally]; rfl)
      (by rw [htally]; exact Nat.zero_le 1)
  · intro as
    have htally : (BlockingResolver.lmResolverLookup lookup).obj.tally = ⟨0, 0, 0⟩ := by
      cases lookup with
      | host sa => rfl
      | service domain srv => rfl
    exact @along_once_iff _ _ _ (·.obj.tally) _ BlockingResolver.IdleInv
      (·.obj.log.head? = some .lookupReturned) (fun _ hinv => hinv.returned)
      (fun _ _ _ hinv ht => BlockingResolver.once_step hinv ht) _ as
      (BlockingResolver.idleInv_lookup lookup) (by rw [htally]; rfl)
      (by rw [htally]; exact Nat.zero_le 1)

/-- Host lookups do not call `dn_expand`, so for them this one will do. -/
def dnExpandFails : DnExpand := fun _ _ _ _ name => (-1, name)

/-- A holder cancels from inside a handler of its first cancel, and gives back
its own reference only after both emissions: the signal is emitted twice, and
by then its reference has been taken away. -/
theorem cancelled_twice :
    (∃ w, exec (AsyncnsResolver.step dnExpandFails)
        (AsyncnsResolver.lmResolverLookup (.host (lmSocketAddressNew "host" 5222))
          ⟨some 7, ⟨true, true⟩⟩)
        [.hold, .cancel, .cancel, .handlersDone, .handlersDone] = some w ∧
      ¬FinishesOnce w.obj ∧ w.obj.held = 1 ∧ w.obj.refCount = 0) ∧
    ∃ w, exec (BlockingResolver.step dnExpandFails)
        (BlockingResolver.lmResolverLookup (.host (lmSocketAddressNew "host" 5222)))
        [.hold, .cancel, .cancel, .handlersDone, .handlersDone] = some w ∧
      ¬FinishesOnce w.obj ∧ w.obj.held = 1 ∧ w.obj.refCount = 0 :=
  ⟨⟨_, rfl, by decide⟩, _, rfl, by decide⟩

end LmTransport.Ref
