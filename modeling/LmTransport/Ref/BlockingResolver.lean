import LmTransport.Ref.Glib
import LmTransport.Ref.LmResolver
import LmTransport.Ref.Resolver

/-!
# `LmBlockingResolver`

A translation of `lm-blocking-resolver.c`. The lookup itself is one call of the
C library, made from an idle source; what it returned comes in with the
dispatch. A run starts when `lm_resolver_lookup_host` or
`lm_resolver_lookup_service` returns, as in the other backend.
-/

namespace LmTransport.Ref.BlockingResolver

structure LmBlockingResolverPriv where
  idleSource : Option Nat := none
  sa : Option SaPtr := none
  srv : Option String := none
deriving DecidableEq, Repr

/-- An idle source runs `blocking_resolver_idle_lookup_host` or
`blocking_resolver_idle_lookup_srv`. -/
structure World where
  priv : LmBlockingResolverPriv := {}
  obj : ResolverObject := {}
  ctx : IdleContext ResolveType := {}
deriving DecidableEq, Repr

/-! ## The end of a lookup -/

/-- `g_source_destroy (priv->idle_source)`, if there is one. -/
def destroyIdle (w : World) : World :=
  match w.priv.idleSource with
  | none => w
  | some id => { w with ctx := w.ctx.destroy id }

/-- `g_object_unref`. The last one finalizes, and `blocking_resolver_finalize`
destroys the idle source; the rest of it frees memory. -/
def World.unref (w : World) : World :=
  if w.obj.refCount = 1 then destroyIdle { w with obj := w.obj.unref }
  else { w with obj := w.obj.unref }

/-- `blocking_resolver_finished`, up to the emission. What follows it is in
`resume`. -/
def blockingResolverFinished (result : LmResolverResult) (k : ResolverCaller) (w : World) :
    World :=
  { w with obj := w.obj.emitFinished result w.priv.sa k }

/-- A callback returns `FALSE` to the main loop. -/
def returnTo (k : ResolverCaller) (w : World) : World :=
  match k with
  | .cancel => w
  | .source id => { w with ctx := w.ctx.destroy id }

/-- The rest of `blocking_resolver_finished`. -/
def resume (k : ResolverCaller) (w : World) : World :=
  let w := w.unref
  let w := { w with priv := { w.priv with idleSource := none } }
  let w := { w with obj := w.obj.note .initialUnref }
  returnTo k w.unref

/-! ## The lookup -/

/-- `err` and `ans` are what `getaddrinfo` returned and stored. -/
def blockingResolverIdleLookupHost (k : ResolverCaller) (err : Int) (ans : List AddrInfo)
    (w : World) : World :=
  if err ≠ 0 ∨ ans = [] then blockingResolverFinished .failed k w
  else blockingResolverFinished .ok k { w with obj := w.obj.setResults w.priv.sa ans }

/-- `len` is what `res_query` returned and `srvAns` the memory at the buffer it
was given; `name` is what the name buffer of the parser holds at first. -/
def blockingResolverIdleLookupSrv (dnExpand : DnExpand) (name : List UInt8)
    (k : ResolverCaller) (len : Int) (srvAns : Memory) (w : World) : World :=
  match lmResolverParseSrvResponse dnExpand srvAns len name with
  | none => blockingResolverFinished .failed k w
  | some (newServer, newPort) =>
      let sa := lmSocketAddressNew (hostString newServer) newPort
      blockingResolverFinished .ok k { w with priv := { w.priv with sa := some (.made sa) } }

/-! ## Starting a lookup -/

/-- Attach the idle source that will run the lookup. -/
def World.addIdle (resolveType : ResolveType) (w : World) : World :=
  let idle := lmMiscAddIdle w.ctx resolveType
  { w with ctx := idle.2, priv := { w.priv with idleSource := some idle.1 } }

def blockingResolverLookupHost (sa : LmSocketAddress) (w : World) : World :=
  World.addIdle .host
    { w with obj := { w.obj with given := some sa }, priv := { w.priv with sa := some .given } }

def blockingResolverLookupSrv (srv : String) (w : World) : World :=
  World.addIdle .srv { w with priv := { w.priv with srv := some srv } }

/-- `lm_resolver_lookup_host` and `lm_resolver_lookup_service`, with a blocking
resolver. -/
def lmResolverLookup (lookup : Lookup) : World :=
  let w :=
    match lookup with
    | .host sa => blockingResolverLookupHost sa {}
    | .service domain srv =>
        blockingResolverLookupSrv (resolverCreateSrvString domain srv "tcp") {}
  { w with obj := w.obj.note .lookupReturned }

/-! ## The machine -/

def blockingResolverCancel (w : World) : World :=
  let w := destroyIdle w
  blockingResolverFinished .cancelled .cancel
    { w with priv := { w.priv with idleSource := none } }

/-- What the C library returned to a callback. -/
inductive Answer where
  | getaddrinfo (err : Int) (ans : List AddrInfo)
  | resQuery (len : Int) (srvAns : Memory) (name : List UInt8)

inductive Label where
  | hold
  | drop
  | cancel
  | handlersDone
  | dispatch (src : Nat) (answer : Answer)

def dispatchIdle (dnExpand : DnExpand) (src : Nat) (answer : Answer) (w : World) :
    Option World :=
  if .source src ∈ w.obj.emissions then none
  else
    match w.ctx.find src, answer with
    | some ⟨_, .host⟩, .getaddrinfo err ans =>
        some (blockingResolverIdleLookupHost (.source src) err ans w)
    | some ⟨_, .srv⟩, .resQuery len srvAns name =>
        some (blockingResolverIdleLookupSrv dnExpand name (.source src) len srvAns w)
    | _, _ => none

def step (dnExpand : DnExpand) (w : World) (l : Label) : Option World :=
  match l with
  | .hold => if w.obj.refCount = 0 then none else some { w with obj := w.obj.hold }
  | .drop =>
      if w.obj.usable then
        some ({ w with obj := { w.obj with held := w.obj.held - 1 } } : World).unref
      else none
  | .cancel => if w.obj.usable then some (blockingResolverCancel w) else none
  | .handlersDone =>
      match w.obj.emissions with
      | [] => none
      | k :: rest => some (resume k { w with obj := { w.obj with emissions := rest } })
  | .dispatch src answer => dispatchIdle dnExpand src answer w

end LmTransport.Ref.BlockingResolver
