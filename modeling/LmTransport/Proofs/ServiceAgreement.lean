import LmTransport.Proofs.AnswerFrames
import LmTransport.Proofs.LookupOnce

/-!
# Where the backends agree on services

The asyncns backend refuses an answer without a positive length before it
parses; the blocking one hands whatever `res_query` returned to the parser. On
an answer no longer than a header the parser takes its counts from bytes nobody
wrote, but then the cursor starts at or behind the end, `dn_expand` fails at
once in both loops, and no server is found. On a longer answer both run the
same parser on the same bytes, each in its own memory.
-/

namespace LmTransport.Ref

open Lts

/-! ## The address before the report

A service lookup has no address of its own until it makes one. -/

namespace AsyncnsResolver

/-- Nothing is reported yet and there is no address. -/
theorem service_step {dnExpand : DnExpand} {w w' : World} {l : Label}
    (hsa : reports w.obj.log = [] → w.priv.sa = none) (hs : step dnExpand w l = some w') :
    reports w'.obj.log = [] → w'.priv.sa = none := by
  intro hnone
  cases step_cases hs with
  | hold _ => exact hsa hnone
  | drop _ =>
      rw [unref_obj] at hnone
      rcases unref_priv { w with obj := { w.obj with held := w.obj.held - 1 } } with hp | hp
      · rw [hp]
        exact hsa hnone
      · rw [hp]
        rfl
  | cancel _ =>
      rw [cancel_obj] at hnone
      exact absurd hnone (ResolverObject.reports_emitFinished _ _ _ _)
  | resumed _ =>
      rw [resume_priv]
      rfl
  | answer _ _ => exact hsa hnone
  | workerDies _ _ => exact hsa hnone
  | cutOff _ _ => exact hsa hnone
  | aborted _ _ _ => exact hsa hnone
  | polled _ _ _ _ _ => exact hsa hnone
  | answered _ _ _ _ => exact absurd hnone (ResolverObject.reports_emitFinished _ _ _ _)

theorem service_run {dnExpand : DnExpand} {domain srv : String} {sys : SysResults}
    {as : List Label} {w : World}
    (h : exec (step dnExpand) (lmResolverLookup (.service domain srv) sys) as = some w) :
    reports w.obj.log = [] → w.priv.sa = none := by
  have hfirst : (lmResolverLookup (.service domain srv) sys).priv.sa = none := by
    cases hnew : sys.asyncnsNew with
    | none => rw [lookup_failed hnew]; rfl
    | some fd => rw [lookup_started hnew]; rfl
  exact exec_preserves (I := fun w => reports w.obj.log = [] → w.priv.sa = none)
    (fun _ _ _ hv hs => service_step hv hs) (fun _ => hfirst) h

end AsyncnsResolver

namespace BlockingResolver

theorem resume_sa (k : ResolverCaller) (w : World) : (resume k w).priv.sa = w.priv.sa := by
  unfold resume
  cases k with
  | cancel =>
      simp only [returnTo]
      rw [unref_priv]
      show w.unref.priv.sa = w.priv.sa
      rw [unref_priv]
  | source id =>
      simp only [returnTo]
      rw [unref_priv]
      show w.unref.priv.sa = w.priv.sa
      rw [unref_priv]

theorem service_step {dnExpand : DnExpand} {w w' : World} {l : Label}
    (hsa : reports w.obj.log = [] → w.priv.sa = none) (hs : step dnExpand w l = some w') :
    reports w'.obj.log = [] → w'.priv.sa = none := by
  intro hnone
  cases step_cases hs with
  | hold _ => exact hsa hnone
  | drop _ =>
      rw [unref_obj] at hnone
      rw [unref_priv]
      exact hsa hnone
  | cancel _ => exact absurd hnone (ResolverObject.reports_emitFinished _ _ _ _)
  | @resumed k rest _ =>
      rw [resume_obj, ResolverObject.reports_endEmission] at hnone
      rw [resume_sa]
      exact hsa hnone
  | @host src err ans idle _ _ _ =>
      obtain ⟨result, o, -, -, -, heq⟩ := idleLookupHost_finished (.source src) err ans w
      rw [heq] at hnone
      exact absurd hnone (ResolverObject.reports_emitFinished _ _ _ _)
  | @srv src len srvAns name idle _ _ _ =>
      obtain ⟨result, priv, heq⟩ := idleLookupSrv_finished dnExpand name (.source src) len srvAns w
      rw [heq] at hnone
      exact absurd hnone (ResolverObject.reports_emitFinished _ _ _ _)

theorem service_run {dnExpand : DnExpand} {domain srv : String} {as : List Label} {w : World}
    (h : exec (step dnExpand) (lmResolverLookup (.service domain srv)) as = some w) :
    reports w.obj.log = [] → w.priv.sa = none :=
  exec_preserves (I := fun w => reports w.obj.log = [] → w.priv.sa = none)
    (fun _ _ _ hv hs => service_step hv hs) (fun _ => rfl) h

end BlockingResolver

/-! ## Agreement -/

/-- What a backend reports about the answer of the parser. -/
def serviceReport : Option (List UInt8 × Nat) → LmResolverResult × Option LmSocketAddress
  | some (server, port) => (.ok, some (lmSocketAddressNew (hostString server) port))
  | none => (.failed, none)

theorem ResolverObject.reports_first {o : ResolverObject} (hnone : reports o.log = [])
    (result : LmResolverResult) (sa : Option SaPtr) (k : ResolverCaller) :
    reports (o.emitFinished result sa k).log = [(result, o.deref sa)] := by
  show reports (o.log ++ [.finished result (o.deref sa)]) = _
  rw [reports_append, hnone]
  rfl

theorem asyncnsSrvDone_report {dnExpand : DnExpand} (hdn : ReadsAnswer dnExpand)
    {w : AsyncnsResolver.World} (hnone : reports w.obj.log = []) (hsa : w.priv.sa = none)
    {asyncns asyncns' : Asyncns} {len : Int} {srvAns : Memory}
    (hres : asyncnsResDone asyncns = (len, srvAns, asyncns')) (name : List UInt8)
    (k : ResolverCaller) :
    reports (AsyncnsResolver.asyncnsResolverSrvDone dnExpand name k asyncns w).obj.log =
      [serviceReport (lmResolverParseSrvResponse dnExpand srvAns len name)] := by
  unfold AsyncnsResolver.asyncnsResolverSrvDone
  rw [hres]
  simp only []
  split
  · next hlen =>
      rw [parse_short hdn (show len ≤ 12 by omega)]
      refine (ResolverObject.reports_first hnone .failed w.priv.sa k).trans ?_
      rw [hsa]
      rfl
  · cases lmResolverParseSrvResponse dnExpand srvAns len name with
    | none =>
        refine (ResolverObject.reports_first hnone .failed w.priv.sa k).trans ?_
        rw [hsa]
        rfl
    | some found => exact ResolverObject.reports_first hnone .ok (some (.made _)) k

theorem blockingLookupSrv_report {dnExpand : DnExpand} {w : BlockingResolver.World}
    (hnone : reports w.obj.log = []) (hsa : w.priv.sa = none) (len : Int) (srvAns : Memory)
    (name : List UInt8) (k : ResolverCaller) :
    reports (BlockingResolver.blockingResolverIdleLookupSrv dnExpand name k len srvAns w).obj.log =
      [serviceReport (lmResolverParseSrvResponse dnExpand srvAns len name)] := by
  unfold BlockingResolver.blockingResolverIdleLookupSrv
  cases lmResolverParseSrvResponse dnExpand srvAns len name with
  | none =>
      refine (ResolverObject.reports_first hnone .failed w.priv.sa k).trans ?_
      rw [hsa]
      rfl
  | some found => exact ResolverObject.reports_first hnone .ok (some (.made _)) k

/-- Two lookups of services that have not reported, one with each backend, are
given the same answer, in memory that is otherwise not the same, and both make
the same report, without an address unless it is `OK`. The `dn_expand` may be
any that decodes the same names. -/
def ServicesAgree (dnExpand : DnExpand) (len : Int) (answer : Memory) : Prop :=
  ∀ dnExpand', Alike dnExpand dnExpand' →
    ∀ (domain srv domain' srv' : String) (sys : AsyncnsResolver.SysResults)
      (as : List AsyncnsResolver.Label) (w : AsyncnsResolver.World)
      (as' : List BlockingResolver.Label) (w' : BlockingResolver.World),
    exec (AsyncnsResolver.step dnExpand')
        (AsyncnsResolver.lmResolverLookup (.service domain srv) sys) as = some w →
    exec (BlockingResolver.step dnExpand')
        (BlockingResolver.lmResolverLookup (.service domain' srv')) as' = some w' →
    reports w.obj.log = [] → reports w'.obj.log = [] →
    ∀ (asyncns asyncns' : Asyncns) (srvAns srvAns' : Memory) (name name' : List UInt8)
      (k k' : ResolverCaller),
    asyncnsResDone asyncns = (len, srvAns, asyncns') →
    SameBytes len answer srvAns → SameBytes len answer srvAns' →
    ∃ result sa,
      reports (AsyncnsResolver.asyncnsResolverSrvDone dnExpand' name k asyncns w).obj.log =
          [(result, sa)] ∧
        reports (BlockingResolver.blockingResolverIdleLookupSrv dnExpand' name' k' len srvAns'
          w').obj.log = [(result, sa)] ∧
        (result ≠ .ok → sa = none)

/-- Both backends report about the parser's answer, each in its own frame. -/
theorem servicesAgree_of_parse {dnExpand : DnExpand} (hdn : ReadsAnswer dnExpand) {len : Int}
    {answer : Memory} (found : Option (List UInt8 × Nat))
    (hparse : ∀ dnExpand', Alike dnExpand dnExpand' → ∀ srv, SameBytes len answer srv →
      ∀ name, lmResolverParseSrvResponse dnExpand' srv len name = found) :
    ServicesAgree dnExpand len answer := by
  intro dnExpand' halike domain srv domain' srv' sys as w as' w' hw hw' hnone hnone' asyncns
    asyncns' srvAns srvAns' name name' k k' hres hbytes hbytes'
  have hleft := asyncnsSrvDone_report (hdn.of_alike halike) hnone
    (AsyncnsResolver.service_run hw hnone) hres name k
  have hright := @blockingLookupSrv_report dnExpand' w' hnone'
    (BlockingResolver.service_run hw' hnone') len srvAns' name' k'
  rw [hparse dnExpand' halike srvAns hbytes] at hleft
  rw [hparse dnExpand' halike srvAns' hbytes'] at hright
  refine ⟨_, _, hleft, hright, ?_⟩
  cases found with
  | none => exact fun _ => rfl
  | some found => exact fun h => absurd rfl h

/-- The answer has arrived from the worker. -/
def withAnswer (len : Int) (srv : Memory) : Asyncns :=
  { fd := 7, query := some { done := true, ret := len, serv := srv } }

theorem asyncnsResDone_withAnswer {len : Int} (hnonneg : 0 ≤ len) (srv : Memory) :
    ∃ asyncns', asyncnsResDone (withAnswer len srv) = (len, srv, asyncns') := by
  simp [asyncnsResDone, withAnswer, Int.not_lt.mpr hnonneg]

/-- The backends agree on an answer exactly when the record that is chosen, with
zeros for the bytes that are missing at the end, is one whose target decodes. -/
theorem services_agree_iff {dnExpand : DnExpand} (hdn : ReadsAnswer dnExpand) (len : Int)
    (answer : Memory) :
    ServicesAgree dnExpand len answer ↔
      BestDecoded dnExpand (zeroOutside len answer) len
        (answerTurns dnExpand (zeroOutside len answer) len []) := by
  by_cases hlen : sizeofHeader < len
  · refine ⟨fun hagree => ?_, fun hbest => servicesAgree_of_parse hdn _
      fun dnExpand' halike srv hbytes name => parse_same hdn halike hbytes hlen hbest name⟩
    by_contra hbad
    obtain ⟨hnotFound, port, hfound⟩ := parse_marked hdn hlen hbad
    have hnonneg : 0 ≤ len := by simp only [sizeofHeader] at hlen; omega
    obtain ⟨asyncns', hres⟩ := asyncnsResDone_withAnswer hnonneg (zeroOutside len answer)
    have hbytes : SameBytes len answer (zeroOutside len answer) := fun i hi hlt =>
      (zeroOutside_same len answer i hi hlt).symm
    obtain ⟨result, sa, hleft, hright, -⟩ := hagree (marked dnExpand) (marked_alike hdn)
      "" "" "" "" ⟨some 7, ⟨true, true⟩⟩ [] _ [] _ rfl rfl rfl rfl _ asyncns' _ _ [0] [1]
      (.source 0) (.source 0) hres hbytes hbytes
    rw [asyncnsSrvDone_report (hdn.of_alike (marked_alike hdn)) rfl rfl hres, hnotFound] at hleft
    rw [blockingLookupSrv_report rfl rfl, hfound] at hright
    have hsame := hleft.trans hright.symm
    simp [serviceReport] at hsame
  · have hshort : len ≤ sizeofHeader := by omega
    refine ⟨fun _ => ?_, fun _ => servicesAgree_of_parse hdn none
      fun dnExpand' halike srv _ name => parse_short (hdn.of_alike halike) hshort name⟩
    rw [answerTurns_short hdn hshort]
    exact fun _ _ _ h => absurd h (by simp)

/-! ## An answer that ends behind an owner -/

/-- A header that promises one answer, and `a` as its owner. -/
def ownerAnswer : List UInt8 := [0, 1, 0x81, 0x80, 0, 0, 0, 1, 0, 0, 0, 0, 1, 0x61, 0]

/-- The answer with other bytes behind it. -/
def ownerAnswerElsewhere : Memory := fun i => if i < 15 then memoryOf ownerAnswer i else 0xff

/-- The asyncns backend finds zeros behind the answer and takes the owner for a
server; the blocking one finds something else there and no server. -/
theorem services_disagree :
    ReadsAnswer dnExpandOf ∧ SameBytes 15 (memoryOf ownerAnswer) ownerAnswerElsewhere ∧
      reports (AsyncnsResolver.asyncnsResolverSrvDone dnExpandOf [] (.source 0)
          (withAnswer 15 (memoryOf ownerAnswer))
          (AsyncnsResolver.lmResolverLookup (.service "example" "xmpp-client")
            ⟨some 7, ⟨true, true⟩⟩)).obj.log = [(.ok, some (lmSocketAddressNew "a" 0))] ∧
      reports (BlockingResolver.blockingResolverIdleLookupSrv dnExpandOf [] (.source 0) 15
          ownerAnswerElsewhere
          (BlockingResolver.lmResolverLookup (.service "example" "xmpp-client"))).obj.log =
        [(.failed, none)] ∧
      ¬ ServicesAgree dnExpandOf 15 (memoryOf ownerAnswer) := by
  have hbytes : SameBytes 15 (memoryOf ownerAnswer) ownerAnswerElsewhere :=
    fun i _ hlt => (if_pos hlt).symm
  obtain ⟨asyncns', hres⟩ := @asyncnsResDone_withAnswer 15 (by decide) (memoryOf ownerAnswer)
  have hfound : lmResolverParseSrvResponse dnExpandOf (memoryOf ownerAnswer) 15 [] =
      some ([0x61], 0) := by decide +kernel
  have hnotFound : lmResolverParseSrvResponse dnExpandOf ownerAnswerElsewhere 15 [] = none := by
    decide +kernel
  have hleft := @asyncnsSrvDone_report dnExpandOf dnExpandOf_readsAnswer
    (AsyncnsResolver.lmResolverLookup (.service "example" "xmpp-client") ⟨some 7, ⟨true, true⟩⟩)
    rfl rfl _ _ _ _ hres [] (.source 0)
  have hright := @blockingLookupSrv_report dnExpandOf
    (BlockingResolver.lmResolverLookup (.service "example" "xmpp-client")) rfl rfl 15
    ownerAnswerElsewhere [] (.source 0)
  rw [hfound] at hleft
  rw [hnotFound] at hright
  refine ⟨dnExpandOf_readsAnswer, hbytes, hleft, hright, fun hagree => ?_⟩
  obtain ⟨result, sa, hleft', hright', -⟩ := hagree dnExpandOf dnExpandOf_readsAnswer.alike
    "example" "xmpp-client" "example" "xmpp-client" ⟨some 7, ⟨true, true⟩⟩ [] _ [] _ rfl rfl rfl
    rfl _ _ _ _ [] [] (.source 0) (.source 0) hres (.refl _ _) hbytes
  have hsame := (hleft.symm.trans hleft').trans (hright'.symm.trans hright)
  simp [serviceReport] at hsame

/-- A record with a broken target does not matter when a better one comes
before it. -/
theorem services_agree_harmless : ServicesAgree dnExpandOf 53 (memoryOf harmlessAnswer) := by
  refine (services_agree_iff dnExpandOf_readsAnswer 53 (memoryOf harmlessAnswer)).mpr ?_
  have hzero : zeroOutside 53 (memoryOf harmlessAnswer) = memoryOf harmlessAnswer :=
    zeroOutside_memoryOf harmlessAnswer
  rw [hzero]
  intro seen rest t hts hbad
  rcases (harmlessAnswer_harmless seen rest t hts hbad).1 with hhigh | hbeaten
  · exact Or.inl hhigh
  · exact Or.inr (Or.inl hbeaten)

end LmTransport.Ref
