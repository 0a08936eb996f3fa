import LmTransport.Ref.Asyncns
import LmTransport.Ref.LmResolver

/-!
# `LmAsyncnsResolver`

A translation of `lm-asyncns-resolver.c`. A run starts when
`lm_resolver_lookup_host` or `lm_resolver_lookup_service` returns; from then on
callers take and drop references and cancel, the worker answers or dies, and
the main loop dispatches the resolver's watch. Handlers of `finished` may do
all of that, and may iterate the main loop themselves; only a source whose
callback has not returned is not dispatched again.

`asyncns` asserts that its pointers are not `NULL`, and that what it receives
is a whole response. A failed assertion aborts the process and ends the run.
-/

namespace LmTransport.Ref.AsyncnsResolver

/-- `resolv_query` is `NULL` or the one query of the context, so a flag is
enough. -/
structure LmAsyncnsResolverPriv where
  watchResolv : Option Nat := none
  resolvQuery : Bool := false
  asyncnsCtx : Option Asyncns := none
  resolvChannel : Option GIOChannel := none
  resolveType : ResolveType := .host
  sa : Option SaPtr := none

structure World where
  priv : LmAsyncnsResolverPriv := {}
  obj : ResolverObject := {}
  ctx : GMainContext := {}
  aborted : Bool := false

/-! ## The end of a lookup -/

def asyncnsResolverCleanup (w : World) : World :=
  let ctx :=
    match w.priv.watchResolv with
    | none => w.ctx
    | some id => w.ctx.destroy id
  { w with
    ctx
    priv :=
      { w.priv with
        resolvChannel := none
        watchResolv := none
        asyncnsCtx := none
        sa := none
        resolvQuery := false } }

/-- `g_object_unref`. The last one finalizes, and `asyncns_resolver_finalize`
cleans up. -/
def World.unref (w : World) : World :=
  if w.obj.refCount = 1 then asyncnsResolverCleanup { w with obj := w.obj.unref }
  else { w with obj := w.obj.unref }

/-- `asyncns_resolver_finished`, up to the emission. What follows it is in
`resume`. -/
def asyncnsResolverFinished (result : LmResolverResult) (k : ResolverCaller) (w : World) :
    World :=
  { w with obj := w.obj.emitFinished result w.priv.sa k }

/-- A callback returns `FALSE` to the main loop. -/
def returnTo (k : ResolverCaller) (w : World) : World :=
  match k with
  | .cancel => w
  | .source id => { w with ctx := w.ctx.destroy id }

/-- The rest of `asyncns_resolver_finished`: the emission lets go of its
reference, then the resolver cleans up and gives up its own. -/
def resume (k : ResolverCaller) (w : World) : World :=
  let w := asyncnsResolverCleanup w.unref
  let w := { w with obj := w.obj.note .initialUnref }
  returnTo k w.unref

/-! ## The answer -/

def asyncnsResolverHostDone (k : ResolverCaller) (asyncns : Asyncns) (w : World) : World :=
  let (err, ans, asyncns) := asyncnsGetaddrinfoDone asyncns
  let w := { w with priv := { w.priv with asyncnsCtx := some asyncns, resolvQuery := false } }
  if err ≠ 0 then asyncnsResolverFinished .failed k w
  else asyncnsResolverFinished .ok k { w with obj := w.obj.setResults w.priv.sa ans }

section
variable (dnExpand : DnExpand)

/-- `name` is what the name buffer of the parser holds at first. -/
def asyncnsResolverSrvDone (name : List UInt8) (k : ResolverCaller) (asyncns : Asyncns)
    (w : World) : World :=
  let (srvLen, srvAns, asyncns) := asyncnsResDone asyncns
  let w := { w with priv := { w.priv with asyncnsCtx := some asyncns, resolvQuery := false } }
  if srvLen ≤ 0 then asyncnsResolverFinished .failed k w
  else
    match lmResolverParseSrvResponse dnExpand srvAns srvLen name with
    | some (newServer, newPort) =>
        let sa := lmSocketAddressNew (hostString newServer) newPort
        asyncnsResolverFinished .ok k { w with priv := { w.priv with sa := some (.made sa) } }
    | none => asyncnsResolverFinished .failed k w

/-- `asyncns_resolver_io_cb`, called for the source `src`. What `asyncns_wait`
returns is not looked at. -/
def asyncnsResolverIoCb (src recvs : Nat) (name : List UInt8) (w : World) : World :=
  match w.priv.asyncnsCtx with
  | none => { w with aborted := true }
  | some asyncns =>
      match asyncnsWait recvs asyncns with
      | none => { w with aborted := true }
      | some asyncns =>
          let w := { w with priv := { w.priv with asyncnsCtx := some asyncns } }
          if !w.priv.resolvQuery then
            -- `assert (q)` in `asyncns_isdone`
            { w with aborted := true }
          else if !asyncnsIsdone asyncns then w
          else
            match w.priv.resolveType with
            | .host => asyncnsResolverHostDone (.source src) asyncns w
            | .srv => asyncnsResolverSrvDone dnExpand name (.source src) asyncns w

end

/-! ## Starting a lookup -/

/-- What the calls of a lookup return: `asyncns_new`, with the descriptor of the
context, and the submission of the query. -/
structure SysResults where
  asyncnsNew : Option Int
  submission : Submission
deriving DecidableEq, Repr

def asyncnsResolverPrep (resolveType : ResolveType) (sys : SysResults) (w : World) :
    Bool × World :=
  -- "Each LmResolver can only be used once"
  if w.priv.asyncnsCtx.isSome then (false, w)
  else
    let w := { w with priv := { w.priv with resolveType } }
    match sys.asyncnsNew with
    | none => (false, w)
    | some fd =>
        let asyncns := asyncnsNew fd
        let channel : GIOChannel := ⟨0, asyncnsFd asyncns⟩
        let watch := lmMiscAddIoWatch w.ctx (some channel) .inn
        (true,
          { w with
            ctx := watch.2
            priv :=
              { w.priv with
                asyncnsCtx := some asyncns
                resolvChannel := some channel
                watchResolv := watch.1 } })

/-- Store what a submission returned in `resolv_query`. -/
def World.submit (f : Asyncns → Bool × Asyncns) (w : World) : World :=
  match w.priv.asyncnsCtx with
  | none => w
  | some asyncns =>
      { w with
        priv :=
          { w.priv with resolvQuery := (f asyncns).1, asyncnsCtx := some (f asyncns).2 } }

def asyncnsResolverLookupHost (sa : LmSocketAddress) (sys : SysResults) (w : World) : World :=
  let w :=
    { w with obj := { w.obj with given := some sa }, priv := { w.priv with sa := some .given } }
  match asyncnsResolverPrep .host sys w with
  | (false, w) => w
  | (true, w) => w.submit (asyncnsGetaddrinfo (lmSocketAddressGetHost sa) sys.submission)

def asyncnsResolverLookupSrv (srv : String) (sys : SysResults) (w : World) : World :=
  match asyncnsResolverPrep .srv sys w with
  | (false, w) => w
  | (true, w) => w.submit (asyncnsResQuery srv sys.submission)

/-- `lm_resolver_lookup_host` and `lm_resolver_lookup_service`, with the
resolver `resolver_create` makes. -/
def lmResolverLookup (lookup : Lookup) (sys : SysResults) : World :=
  let w :=
    match lookup with
    | .host sa => asyncnsResolverLookupHost sa sys {}
    | .service domain srv =>
        asyncnsResolverLookupSrv (resolverCreateSrvString domain srv "tcp") sys {}
  { w with obj := w.obj.note .lookupReturned }

/-! ## The machine -/

def asyncnsResolverCancel (w : World) : World :=
  let w :=
    match w.priv.asyncnsCtx with
    | none => w
    | some asyncns =>
        if w.priv.resolvQuery then
          { w with
            priv :=
              { w.priv with asyncnsCtx := some (asyncnsCancel asyncns), resolvQuery := false } }
        else w
  asyncnsResolverFinished .cancelled .cancel w

inductive Label where
  | hold
  | drop
  | cancel
  | handlersDone
  | answer (resp : AsyncnsResponse)
  | workerDies (told : Bool)
  | dispatch (src recvs : Nat) (name : List UInt8)

/-- Something happens on the other side of the context. -/
def World.remote (f : Asyncns → Option Asyncns) (w : World) : Option World :=
  match w.priv.asyncnsCtx with
  | none => none
  | some asyncns =>
      (f asyncns).map fun asyncns =>
        { w with priv := { w.priv with asyncnsCtx := some asyncns } }

/-- The descriptor of the context has something to read. -/
def World.readable (w : World) : Bool :=
  w.priv.asyncnsCtx.any fun asyncns => !asyncns.responses.isEmpty

def dispatchWatch (dnExpand : DnExpand) (src recvs : Nat) (name : List UInt8) (w : World) :
    Option World :=
  if (w.ctx.find src).isSome ∧ w.readable ∧ .source src ∉ w.obj.emissions then
    some (asyncnsResolverIoCb dnExpand src recvs name w)
  else none

def step (dnExpand : DnExpand) (w : World) (l : Label) : Option World :=
  if w.aborted then none
  else
    match l with
    | .hold => if w.obj.refCount = 0 then none else some { w with obj := w.obj.hold }
    | .drop =>
        if w.obj.usable then
          some ({ w with obj := { w.obj with held := w.obj.held - 1 } } : World).unref
        else none
    | .cancel => if w.obj.usable then some (asyncnsResolverCancel w) else none
    | .handlersDone =>
        match w.obj.emissions with
        | [] => none
        | k :: rest => some (resume k { w with obj := { w.obj with emissions := rest } })
    | .answer resp => w.remote (·.answer resp)
    | .workerDies told => w.remote (·.workerDies told)
    | .dispatch src recvs name => dispatchWatch dnExpand src recvs name w

end LmTransport.Ref.AsyncnsResolver
