import LmTransport.Proofs.LookupSteps
import LmTransport.Proofs.SocketGone
import LmTransport.Proofs.SrvChoice
import LmTransport.Ref.MainContexts

/-!
# Staying in the caller's main context

A socket keeps the context it is given, and all its watches go there. A
resolver does not: it takes its reference with `g_object_ref`, gets `NULL` back
and has no context from then on, so its source goes to the default context.
That is where it belongs only if the caller asked for the default context, by
`NULL` or by its pointer, and a socket hands its own context to the lookup it
starts.

With the references it is the other way round. A resolver never has one, and
gives none back. A socket takes one, and `channel_finalize` does not give it
back. Only a socket that was created with `NULL` can be finalized without loss.
-/

namespace LmTransport.Ref.Contexts

open Lts

/-! ## The properties -/

/-- Each source the object has made is attached to the context the object was
created with, and once it is finalized it has given back the references it
took. -/
structure Hosted.InContext {ω : Type} (o : Hosted ω) (sources : Nat) (finalized : Bool) :
    Prop where
  attached : ∀ id < sources, o.attached[id]? = some (gSourceAttach o.given)
  balanced : finalized = true → ∀ c, o.refs.count (.release c) = o.refs.count (.acquire c)

def LmSocket.Stays (socket : LmSocket) : Prop :=
  socket.InContext socket.world.ctx.nextId socket.world.finalized

def LmResolver.Stays (resolver : LmResolver) : Prop :=
  resolver.InContext resolver.world.sources resolver.world.finalized

structure InCallersContext (w : World) : Prop where
  sockets : ∀ socket ∈ w.sockets, LmSocket.Stays socket
  resolvers : ∀ resolver ∈ w.resolvers, LmResolver.Stays resolver

/-- `NULL`, or a pointer to the default context. -/
def IsDefault (context : Option Nat) : Prop := context = none ∨ context = some defaultContext

/-- The lookup gets as far as making its source. -/
def Backend.installs : Backend → Bool
  | .asyncns sys => sys.asyncnsNew.isSome
  | .blocking => true

/-- The last reference of a socket goes. -/
def finalizes : Process.Label → Bool
  | .socket .finalize | .lastUnref => true
  | _ => false

/-- No socket with a context of its own is finalized, and every lookup that
makes a source was asked to use the default context. -/
def ContextKept (w : World) : Label → Prop
  | .socket k l backend =>
      ∀ socket, w.sockets[k]? = some socket →
        (finalizes l = true → socket.given = none) ∧
          (startsLookup socket.world l = true → backend.installs = true →
            IsDefault socket.given)
  | .lookup context backend _ => backend.installs = true → IsDefault context
  | _ => True

theorem gSourceAttach_eq_default {context : Option Nat} :
    gSourceAttach context = defaultContext ↔ IsDefault context := by
  unfold gSourceAttach IsDefault
  cases context with
  | none => simp
  | some c => simp

/-! ## Attaching -/

section
variable {ω : Type} {sources : ω → Nat} {o : Hosted ω} {m : Nat}

theorem install_length (sources : ω → Nat) (o : Hosted ω) :
    sources o.world ≤ (o.install sources).attached.length := by
  show _ ≤ (o.attached ++ List.replicate _ _).length
  rw [List.length_append, List.length_replicate]
  omega

theorem mem_install (h : m ∈ (o.install sources).attached) :
    m ∈ o.attached ∨ m = gSourceAttach o.context := by
  rcases List.mem_append.mp h with hold | hnew
  · exact Or.inl hold
  · exact Or.inr (List.eq_of_mem_replicate hnew)

/-- Nothing is attached when there is nothing new. -/
theorem install_of_le (h : sources o.world ≤ o.attached.length) : o.install sources = o := by
  unfold Hosted.install
  rw [Nat.sub_eq_zero_of_le h, List.replicate_zero, List.append_nil]

/-- Sources that are all in one place are each in that place. -/
theorem attached_of_mem {attached : List Nat} {c n id : Nat}
    (h : ∀ m ∈ attached, m = c) (hlen : n ≤ attached.length) (hid : id < n) :
    attached[id]? = some c := by
  have hlt : id < attached.length := by omega
  rw [List.getElem?_eq_getElem hlt, h _ (List.getElem_mem hlt)]

end

/-! ## Sockets -/

/-- The references `lm_socket_new` takes on the context. -/
def refsTaken : Option Nat → List (Lifecycle.Ev Nat)
  | none => []
  | some context => [.acquire context]

/-- A socket keeps its context, and the reference it took. -/
structure SocketInv (socket : LmSocket) : Prop where
  context : socket.context = socket.given
  refs : socket.refs = refsTaken socket.given
  attached : ∀ m ∈ socket.attached, m = gSourceAttach socket.given
  counted : socket.world.ctx.nextId ≤ socket.attached.length
  gone : socket.world.finalized = true → socket.given = none

theorem SocketInv.stays {socket : LmSocket} (h : SocketInv socket) : LmSocket.Stays socket where
  attached := fun _ hid => attached_of_mem h.attached h.counted hid
  balanced := by
    intro hgone c
    rw [h.refs, h.gone hgone]
    rfl

theorem socketInv_new (context : Option Nat) (address : LmSocketAddress) :
    SocketInv (lmSocketNew context address) := by
  cases context with
  | none =>
      exact ⟨rfl, rfl, fun _ hm => absurd hm List.not_mem_nil, Nat.le_refl 0, fun h => by cases h⟩
  | some c =>
      exact ⟨rfl, rfl, fun _ hm => absurd hm List.not_mem_nil, Nat.le_refl 0, fun h => by cases h⟩

/-- Finalizing or not, `channel_finalize` does nothing. -/
theorem LmSocket.ran_eq (world : Ref.World) (socket : LmSocket) :
    LmSocket.ran world socket = { socket with world }.install (·.ctx.nextId) := by
  unfold LmSocket.ran
  dsimp only
  split
  · rfl
  · rfl

/-- A socket is finalized by the loss of its last reference and by nothing
else. -/
theorem finalized_process {w w' : Ref.World} {l : Process.Label}
    (hs : Process.step w l = some w') :
    (finalizes l = true → w'.finalized = true) ∧
      (finalizes l = false → w'.finalized = true → w.finalized = true) := by
  cases Process.step_cases hs with
  | @socket l _ hs =>
      constructor
      · intro hfin
        cases l with
        | finalize =>
            cases step_cases hs with
            | finalize _ _ => rfl
        | _ => cases hfin
      · intro hnot hgone
        by_contra hlive
        rw [Bool.not_eq_true] at hlive
        obtain rfl := finalized_step hlive hgone hs
        cases hnot
  | lastUnref _ _ =>
      refine ⟨fun _ => ?_, fun hnot _ => by cases hnot⟩
      rw [returnTo_finalized]
      rfl
  | openOther _ _ => exact ⟨fun hfin => absurd hfin Bool.false_ne_true, fun _ hgone => hgone⟩

/-- A step of a socket keeps its sources in the caller's context. What it may
lose is the reference. -/
theorem SocketInv.ran {socket : LmSocket} {world : Ref.World} {l : Process.Label}
    (h : SocketInv socket) (hs : Process.step socket.world l = some world) :
    (LmSocket.Stays (socket.ran world) ↔ (finalizes l = true → socket.given = none)) ∧
      ((finalizes l = true → socket.given = none) → SocketInv (socket.ran world)) := by
  have hinv : (finalizes l = true → socket.given = none) → SocketInv (socket.ran world) := by
    intro hkept
    have hcounted := install_length (·.ctx.nextId) { socket with world }
    rw [LmSocket.ran_eq]
    refine ⟨h.context, h.refs, ?_, hcounted, ?_⟩
    · intro m hm
      rcases mem_install hm with hold | hnew
      · exact h.attached m hold
      · rw [hnew, ← h.context]
        rfl
    · intro hgone
      cases hfin : finalizes l with
      | true => exact hkept hfin
      | false => exact h.gone ((finalized_process hs).2 hfin hgone)
  refine ⟨⟨fun hstays hfin => ?_, fun hkept => (hinv hkept).stays⟩, hinv⟩
  rw [LmSocket.ran_eq] at hstays
  have hbalanced := hstays.balanced ((finalized_process hs).1 hfin)
  have hrefs : socket.refs = refsTaken socket.given := h.refs
  cases hgiven : socket.given with
  | none => rfl
  | some c =>
      have hc : socket.refs.count (.release c) = socket.refs.count (.acquire c) := hbalanced c
      rw [hrefs, hgiven] at hc
      simp [refsTaken] at hc

/-- The rest of the process does not touch what the socket keeps. -/
theorem SocketInv.elsewhere {socket : LmSocket} (h : SocketInv socket) (sa : LmSocketAddress)
    (kernel : Kernel) :
    SocketInv { socket with world := { socket.world with sa, kernel } } :=
  ⟨h.context, h.refs, h.attached, h.counted, h.gone⟩

end LmTransport.Ref.Contexts

/-! ## Sources of a resolver

A lookup makes its source before it returns, and after that there are no new
ones. -/

namespace LmTransport.Ref.AsyncnsResolver

theorem cleanup_nextId (w : World) : (asyncnsResolverCleanup w).ctx.nextId = w.ctx.nextId := by
  unfold asyncnsResolverCleanup
  cases w.priv.watchResolv with
  | none => rfl
  | some id => rfl

theorem unref_nextId (w : World) : w.unref.ctx.nextId = w.ctx.nextId := by
  unfold World.unref
  split
  · rw [cleanup_nextId]
  · rfl

theorem returnTo_nextId (k : ResolverCaller) (w : World) :
    (returnTo k w).ctx.nextId = w.ctx.nextId := by
  cases k with
  | cancel => rfl
  | source id => rfl

theorem resume_nextId (k : ResolverCaller) (w : World) :
    (resume k w).ctx.nextId = w.ctx.nextId := by
  unfold resume
  rw [returnTo_nextId, unref_nextId]
  show (asyncnsResolverCleanup w.unref).ctx.nextId = _
  rw [cleanup_nextId, unref_nextId]

theorem Answered.nextId {w v : World} {asyncns : Asyncns} {result : LmResolverResult}
    (h : Answered w asyncns result v) : v.ctx.nextId = w.ctx.nextId := by
  cases h with
  | failed => rfl
  | host _ _ _ _ => rfl
  | srv _ _ => rfl

theorem step_nextId {dnExpand : DnExpand} {w w' : World} {l : Label}
    (h : step dnExpand w l = some w') : w'.ctx.nextId = w.ctx.nextId := by
  cases step_cases h with
  | hold _ => rfl
  | drop _ => exact unref_nextId _
  | cancel _ =>
      unfold asyncnsResolverCancel
      cases w.priv.asyncnsCtx with
      | none => rfl
      | some asyncns =>
          cases hquery : w.priv.resolvQuery with
          | true => rfl
          | false => rfl
  | resumed _ => exact resume_nextId _ _
  | answer _ _ => rfl
  | workerDies _ _ => rfl
  | cutOff _ _ => rfl
  | aborted _ _ _ => rfl
  | polled _ _ _ _ _ => rfl
  | answered _ _ _ hresult => exact hresult.nextId

end LmTransport.Ref.AsyncnsResolver

namespace LmTransport.Ref.BlockingResolver

theorem destroyIdle_nextId (w : World) : (destroyIdle w).ctx.nextId = w.ctx.nextId := by
  unfold destroyIdle
  split
  · rfl
  · rfl

theorem unref_nextId (w : World) : w.unref.ctx.nextId = w.ctx.nextId := by
  unfold World.unref
  split
  · rw [destroyIdle_nextId]
  · rfl

theorem returnTo_nextId (k : ResolverCaller) (w : World) :
    (returnTo k w).ctx.nextId = w.ctx.nextId := by
  cases k with
  | cancel => rfl
  | source id => rfl

theorem resume_nextId (k : ResolverCaller) (w : World) :
    (resume k w).ctx.nextId = w.ctx.nextId := by
  unfold resume
  rw [returnTo_nextId, unref_nextId]
  exact unref_nextId w

theorem step_nextId {dnExpand : DnExpand} {w w' : World} {l : Label}
    (h : step dnExpand w l = some w') : w'.ctx.nextId = w.ctx.nextId := by
  cases step_cases h with
  | hold _ => rfl
  | drop _ => exact unref_nextId _
  | cancel _ => exact destroyIdle_nextId w
  | resumed _ => exact resume_nextId _ _
  | host _ _ _ =>
      unfold blockingResolverIdleLookupHost
      split
      · rfl
      · rfl
  | srv _ _ _ =>
      unfold blockingResolverIdleLookupSrv
      split
      · rfl
      · rfl

end LmTransport.Ref.BlockingResolver

namespace LmTransport.Ref.Contexts

open Lts

theorem ResolverWorld.step_sources {dnExpand : DnExpand} {w w' : ResolverWorld}
    {l : ResolverLabel} (h : w.step dnExpand l = some w') : w'.sources = w.sources := by
  cases w with
  | asyncns w =>
      cases l with
      | asyncns l =>
          obtain ⟨v, hv, rfl⟩ := Option.map_eq_some_iff.mp h
          exact AsyncnsResolver.step_nextId hv
      | blocking l => cases h
  | blocking w =>
      cases l with
      | asyncns l => cases h
      | blocking l =>
          obtain ⟨v, hv, rfl⟩ := Option.map_eq_some_iff.mp h
          exact BlockingResolver.step_nextId hv

theorem lookup_sources (backend : Backend) (lookup : Lookup) :
    (backend.lookup lookup).sources = if backend.installs then 1 else 0 := by
  cases backend with
  | asyncns sys =>
      show (AsyncnsResolver.lmResolverLookup lookup sys).ctx.nextId = _
      cases hnew : sys.asyncnsNew with
      | none =>
          rw [AsyncnsResolver.lookup_failed hnew]
          simp [Backend.installs, hnew]
      | some fd =>
          rw [AsyncnsResolver.lookup_started hnew]
          simp [Backend.installs, hnew]
  | blocking =>
      cases lookup with
      | host sa => rfl
      | service domain srv => rfl

/-! ## Resolvers -/

/-- A resolver has no context and no reference to one. Its sources are where
they should be as long as it has none, or was asked to use the default
context. -/
structure ResolverInv (resolver : LmResolver) : Prop where
  context : resolver.context = none
  refs : resolver.refs = []
  attached : ∀ m ∈ resolver.attached, m = gSourceAttach resolver.given
  counted : resolver.world.sources ≤ resolver.attached.length

theorem ResolverInv.stays {resolver : LmResolver} (h : ResolverInv resolver) :
    LmResolver.Stays resolver where
  attached := fun _ hid => attached_of_mem h.attached h.counted hid
  balanced := by
    intro _ c
    rw [h.refs]
    rfl

/-- What a lookup leaves behind: an object without a context, and its source, if
it got that far, in the default one. -/
theorem lmResolverLookup_eq (backend : Backend) (context : Option Nat) (lookup : Lookup) :
    lmResolverLookup backend context lookup =
      { given := context
        world := backend.lookup lookup
        attached := List.replicate (if backend.installs then 1 else 0) defaultContext } := by
  have hset : resolverSetProperty context
      ({ given := context, world := backend.lookup lookup } : LmResolver) =
      { given := context, world := backend.lookup lookup } := by
    cases context with
    | none => rfl
    | some c => rfl
  unfold lmResolverLookup Hosted.install
  simp only [hset, List.length_nil, Nat.sub_zero, lookup_sources, List.nil_append]
  rfl

theorem resolver_new (backend : Backend) (context : Option Nat) (lookup : Lookup) :
    (LmResolver.Stays (lmResolverLookup backend context lookup) ↔
        (backend.installs = true → IsDefault context)) ∧
      ((backend.installs = true → IsDefault context) →
        ResolverInv (lmResolverLookup backend context lookup)) := by
  rw [lmResolverLookup_eq]
  have hinv : (backend.installs = true → IsDefault context) →
      ResolverInv
        { given := context
          world := backend.lookup lookup
          attached := List.replicate (if backend.installs then 1 else 0) defaultContext } := by
    intro hdefault
    refine ⟨rfl, rfl, fun m hm => ?_, ?_⟩
    · obtain ⟨hne, rfl⟩ := List.mem_replicate.mp hm
      have hinstalls : backend.installs = true := by simpa using hne
      exact (gSourceAttach_eq_default.mpr (hdefault hinstalls)).symm
    · rw [List.length_replicate, lookup_sources]
  refine ⟨⟨fun hstays hinstalls => ?_, fun hdefault => (hinv hdefault).stays⟩, hinv⟩
  have hfirst := hstays.attached 0 (by rw [lookup_sources, if_pos hinstalls]; exact Nat.one_pos)
  rw [if_pos hinstalls] at hfirst
  exact gSourceAttach_eq_default.mp (Option.some.inj hfirst).symm

/-- A resolver without a context has nothing to give back. -/
theorem LmResolver.ran_eq {world : ResolverWorld} {resolver : LmResolver}
    (hcontext : resolver.context = none) :
    LmResolver.ran world resolver = { resolver with world }.install (·.sources) := by
  unfold LmResolver.ran
  dsimp only
  split
  · unfold resolverFinalize
    rw [show (({ resolver with world } : LmResolver).install (·.sources)).context = none from
      hcontext]
  · rfl

theorem ResolverInv.ran {dnExpand : DnExpand} {resolver : LmResolver} {world : ResolverWorld}
    {l : ResolverLabel} (h : ResolverInv resolver)
    (hs : resolver.world.step dnExpand l = some world) : ResolverInv (resolver.ran world) := by
  have hsame : world.sources ≤ resolver.attached.length := by
    rw [ResolverWorld.step_sources hs]
    exact h.counted
  rw [LmResolver.ran_eq h.context, install_of_le hsame]
  exact ⟨h.context, h.refs, h.attached, hsame⟩

/-! ## The process -/

structure Inv (w : World) : Prop where
  sockets : ∀ socket ∈ w.sockets, SocketInv socket
  resolvers : ∀ resolver ∈ w.resolvers, ResolverInv resolver

theorem Inv.stays {w : World} (h : Inv w) : InCallersContext w where
  sockets := fun socket hmem => (h.sockets socket hmem).stays
  resolvers := fun resolver hmem => (h.resolvers resolver hmem).stays

section
variable {α : Type*} {P : α → Prop} {l : List α} {k : Nat} {x y : α}

theorem forall_mem_set (h : ∀ z ∈ l, P z) (hx : P x) : ∀ z ∈ l.set k x, P z := by
  intro z hz
  rcases List.mem_or_eq_of_mem_set hz with hold | rfl
  · exact h z hold
  · exact hx

theorem mem_set_self (hk : l[k]? = some y) : x ∈ l.set k x := by
  obtain ⟨hlt, -⟩ := List.getElem?_eq_some_iff.mp hk
  exact List.mem_set hlt x

theorem forall_mem_concat (h : ∀ z ∈ l, P z) (hx : P x) : ∀ z ∈ l ++ [x], P z := by
  intro z hz
  rcases List.mem_append.mp hz with hold | hnew
  · exact h z hold
  · exact List.mem_singleton.mp hnew ▸ hx

end

/-- A condition that a good state needs and that keeps the invariant is exact. -/
theorem exact_step {w : World} {C : Prop} (hneed : InCallersContext w → C)
    (hkeep : C → Inv w) : (InCallersContext w ↔ C) ∧ (C → Inv w) :=
  ⟨⟨hneed, fun hC => (hkeep hC).stays⟩, hkeep⟩

theorem context_socket {w w' : World} {k : Nat} {l : Process.Label} {backend : Backend}
    {socket : LmSocket} (hinv : Inv w) (hget : w.sockets[k]? = some socket)
    (hs : stepSocket k l backend socket w = some w') :
    (InCallersContext w' ↔ ContextKept w (.socket k l backend)) ∧
      (ContextKept w (.socket k l backend) → Inv w') := by
  have hsocket := hinv.sockets socket (List.mem_of_getElem? hget)
  have hcontext : channelGetProperty socket = socket.given := hsocket.context
  obtain ⟨world, hworld, rfl⟩ := Option.map_eq_some_iff.mp hs
  obtain ⟨hran, hkeep⟩ := hsocket.ran hworld
  simp only [ContextKept, hget, Option.some.injEq, forall_eq']
  split
  · next hstarts =>
      obtain ⟨hnew, hnewInv⟩ := resolver_new backend socket.given (.host socket.world.sa)
      rw [hcontext]
      simp only [hstarts, true_imp_iff]
      refine exact_step (fun hstays => ⟨?_, ?_⟩) fun hkept => ⟨?_, ?_⟩
      · exact hran.mp (hstays.sockets _ (mem_set_self hget))
      · exact hnew.mp (hstays.resolvers _ List.mem_concat_self)
      · exact forall_mem_set hinv.sockets (hkeep hkept.1)
      · exact forall_mem_concat hinv.resolvers (hnewInv hkept.2)
  · next hstarts =>
      refine exact_step (fun hstays => ⟨?_, fun h => absurd h hstarts⟩) fun hkept =>
        ⟨?_, hinv.resolvers⟩
      · exact hran.mp (hstays.sockets _ (mem_set_self hget))
      · exact forall_mem_set hinv.sockets (hkeep hkept.1)

theorem context_step {dnExpand : DnExpand} {w w' : World} {l : Label} (hinv : Inv w)
    (hs : step dnExpand w l = some w') :
    (InCallersContext w' ↔ ContextKept w l) ∧ (ContextKept w l → Inv w') := by
  cases l with
  | socketNew context address =>
      obtain rfl := Option.some.inj hs
      refine exact_step (fun _ => trivial) fun _ => ⟨?_, hinv.resolvers⟩
      exact forall_mem_concat hinv.sockets (socketInv_new context address)
  | socket k l backend =>
      simp only [step] at hs
      split at hs
      · cases hs
      · next socket hget => exact context_socket hinv hget hs
  | elsewhere k sa kernel =>
      obtain ⟨socket, hget, rfl⟩ := Option.map_eq_some_iff.mp hs
      have hsocket := hinv.sockets socket (List.mem_of_getElem? hget)
      refine exact_step (fun _ => trivial) fun _ => ⟨?_, hinv.resolvers⟩
      exact forall_mem_set hinv.sockets (hsocket.elsewhere sa kernel)
  | lookup context backend lookup =>
      obtain rfl := Option.some.inj hs
      obtain ⟨hnew, hnewInv⟩ := resolver_new backend context lookup
      refine exact_step (fun hstays => ?_) fun hkept => ⟨hinv.sockets, ?_⟩
      · exact hnew.mp (hstays.resolvers _ List.mem_concat_self)
      · exact forall_mem_concat hinv.resolvers (hnewInv hkept)
  | resolver r l =>
      simp only [step] at hs
      split at hs
      · cases hs
      · next resolver hget =>
          obtain ⟨world, hworld, rfl⟩ := Option.map_eq_some_iff.mp hs
          have hresolver := hinv.resolvers resolver (List.mem_of_getElem? hget)
          refine exact_step (fun _ => trivial) fun _ => ⟨hinv.sockets, ?_⟩
          exact forall_mem_set hinv.resolvers (hresolver.ran hworld)

/-- Along a run all work stays in the callers' contexts, and the references are
balanced, if and only if no socket with a context of its own is finalized and
no lookup for any but the default context gets as far as making its source. -/
theorem callers_context_iff (dnExpand : DnExpand) (as : List Label) :
    Along (step dnExpand) (fun _ _ w => InCallersContext w) {} as ↔
      Meets (step dnExpand) ContextKept {} as :=
  @along_iff_meets _ _ (step dnExpand) (fun _ _ w => InCallersContext w) ContextKept Inv
    (fun _ _ _ hinv hs => context_step hinv hs) {} as
    ⟨fun _ h => absurd h List.not_mem_nil, fun _ h => absurd h List.not_mem_nil⟩

/-- A lookup of a host and one of a service, both asked to use the context 3,
have their sources in the default context. So has the lookup of a socket whose
watches would be in the context 3. And that socket, finalized, has taken a
reference and given none back. -/
theorem context_lost :
    (∀ lookup ∈ [Lookup.host (lmSocketAddressNew "example" 5222),
        .service "example" "xmpp-client"],
      ¬ Along (step dnExpandOf) (fun _ _ w => InCallersContext w) {}
        [.lookup (some 3) (.asyncns ⟨some 7, ⟨true, true⟩⟩) lookup]) ∧
      ¬ Along (step dnExpandOf) (fun _ _ w => InCallersContext w) {}
        [.socketNew (some 3) (lmSocketAddressNew "example" 5222),
          .socket 0 (.socket (.connect [])) (.asyncns ⟨some 7, ⟨true, true⟩⟩)] ∧
      ¬ Along (step dnExpandOf) (fun _ _ w => InCallersContext w) {}
        [.socketNew (some 3) (lmSocketAddressNew "example" 5222),
          .socket 0 (.socket .finalize) .blocking] := by
  have hlost {lookup : Lookup} : ¬ LmResolver.Stays
      (lmResolverLookup (.asyncns ⟨some 7, ⟨true, true⟩⟩) (some 3) lookup) := by
    intro hstays
    rcases (resolver_new _ _ _).1.mp hstays rfl with hnull | hdefault
    · cases hnull
    · cases hdefault
  refine ⟨fun lookup _ halong => ?_, fun halong => ?_, fun halong => ?_⟩
  · have hend := @Along.mid _ _ (step dnExpandOf) _ _ _ _ [] [] _ halong rfl rfl
    exact hlost (hend.resolvers _ List.mem_cons_self)
  · have hend := @Along.mid _ _ (step dnExpandOf) _ _ _ _ [.socketNew _ _] [] _ halong rfl rfl
    exact hlost (hend.resolvers _ List.mem_cons_self)
  · have hend := @Along.mid _ _ (step dnExpandOf) _ _ _ _ [.socketNew _ _] [] _ halong rfl rfl
    have hbalanced := (hend.sockets _ List.mem_cons_self).balanced rfl 3
    exact absurd hbalanced (by decide)

end LmTransport.Ref.Contexts
