import LmTransport.Lib.Lifecycle
import LmTransport.Lib.Run
import LmTransport.Ref.AsyncnsResolver
import LmTransport.Ref.BlockingResolver
import LmTransport.Ref.Socket

/-!
# Main contexts

A process may have many main contexts, and so far a socket and a resolver each
had one of their own to put their sources in. Here any number of sockets and
resolvers, each the machine it was, share the main contexts of the process:
what is added is where a source is attached and who holds a reference.

The context given to `lm_socket_new` or to a lookup goes into the property
`context` of the object. Every function that makes a source asks for it with
`g_object_get` just before and hands it to `lm_misc_add_io_watch` or
`lm_misc_add_idle`, and `misc_setup_source` attaches the source there. The
sources of an object are numbered in the order they are made, so a list of main
contexts says where each is.

A pointer to a main context is `NULL` or the number of one. The objects are
known by their places in two lists. They run as they like: no order is imposed
between them, a lookup reports to a socket whenever the socket's own machine
allows it, and what a socket shares with the rest of the process (its address,
the descriptors) may change at any time.
-/

namespace LmTransport.Ref.Contexts

/-- `g_main_context_default ()`. -/
def defaultContext : Nat := 0

/-- Where `g_source_attach (source, context)` puts a source. -/
def gSourceAttach (context : Option Nat) : Nat := context.getD defaultContext

/-- `g_object_ref` of a main context, which is not a `GObject`: it fails, and
returns `NULL`. -/
def gObjectRef (_context : Nat) : Option Nat := none

/-- An object with the property `context`. `given` is the context it was created
with, which no function reads; `refs` is what the object did to the reference
counts of main contexts. -/
structure Hosted (ω : Type) where
  given : Option Nat
  context : Option Nat := none
  world : ω
  attached : List Nat := []
  refs : List (Lifecycle.Ev Nat) := []

section
variable {ω : Type}

/-- The sources made since the last time, with the context of the object. -/
def Hosted.install (sources : ω → Nat) (o : Hosted ω) : Hosted ω :=
  { o with
    attached :=
      o.attached ++
        List.replicate (sources o.world - o.attached.length) (gSourceAttach o.context) }

/-! ## `LmChannel` -/

def channelGetProperty (o : Hosted ω) : Option Nat := o.context

/-- `g_main_context_ref` returns its argument. -/
def channelSetProperty (context : Option Nat) (o : Hosted ω) : Hosted ω :=
  match context with
  | none => o
  | some context => { o with context := some context, refs := o.refs ++ [.acquire context] }

/-- It only chains up. -/
def channelFinalize (o : Hosted ω) : Hosted ω := o

/-! ## `LmResolver` -/

def resolverSetProperty (context : Option Nat) (o : Hosted ω) : Hosted ω :=
  match context with
  | none => o
  | some context => { o with context := gObjectRef context }

def resolverFinalize (o : Hosted ω) : Hosted ω :=
  match o.context with
  | none => o
  | some context => { o with refs := o.refs ++ [.release context] }

end

/-! ## Sockets -/

abbrev LmSocket := Hosted Ref.World

def lmSocketNew (context : Option Nat) (address : LmSocketAddress) : LmSocket :=
  channelSetProperty context { given := context, world := Ref.lmSocketNew address }

/-- The socket did something. `socket_finalize` chains up to
`channel_finalize`. -/
def LmSocket.ran (world : Ref.World) (socket : LmSocket) : LmSocket :=
  let ran := { socket with world }.install (·.ctx.nextId)
  if !socket.world.finalized && world.finalized then channelFinalize ran else ran

/-- `lm_socket_connect` starts a lookup. -/
def startsLookup (w : Ref.World) : Process.Label → Bool
  | .socket (.connect _) => !lmSocketAddressIsResolved w.sa
  | _ => false

/-! ## Resolvers

`resolver_create` makes one of the backend the library was built with. -/

inductive ResolverWorld where
  | asyncns (w : AsyncnsResolver.World)
  | blocking (w : BlockingResolver.World)

def ResolverWorld.sources : ResolverWorld → Nat
  | .asyncns w => w.ctx.nextId
  | .blocking w => w.ctx.nextId

def ResolverWorld.finalized : ResolverWorld → Bool
  | .asyncns w => w.obj.refCount == 0
  | .blocking w => w.obj.refCount == 0

inductive ResolverLabel where
  | asyncns (l : AsyncnsResolver.Label)
  | blocking (l : BlockingResolver.Label)

def ResolverWorld.step (dnExpand : DnExpand) :
    ResolverWorld → ResolverLabel → Option ResolverWorld
  | .asyncns w, .asyncns l => (AsyncnsResolver.step dnExpand w l).map .asyncns
  | .blocking w, .blocking l => (BlockingResolver.step dnExpand w l).map .blocking
  | _, _ => none

abbrev LmResolver := Hosted ResolverWorld

/-- The backend, and what the calls of a lookup return if it is `asyncns`. -/
inductive Backend where
  | asyncns (sys : AsyncnsResolver.SysResults)
  | blocking
deriving DecidableEq, Repr

def Backend.lookup (lookup : Lookup) : Backend → ResolverWorld
  | .asyncns sys => .asyncns (AsyncnsResolver.lmResolverLookup lookup sys)
  | .blocking => .blocking (BlockingResolver.lmResolverLookup lookup)

/-- `lm_resolver_lookup_host` and `lm_resolver_lookup_service`. The property is
set before the lookup starts. -/
def lmResolverLookup (backend : Backend) (context : Option Nat) (lookup : Lookup) :
    LmResolver :=
  let resolver :=
    resolverSetProperty context { given := context, world := backend.lookup lookup }
  resolver.install (·.sources)

/-- The resolver did something. The finalizers of both backends chain up to
`resolver_finalize`. -/
def LmResolver.ran (world : ResolverWorld) (resolver : LmResolver) : LmResolver :=
  let ran := { resolver with world }.install (·.sources)
  if !resolver.world.finalized && world.finalized then resolverFinalize ran else ran

/-! ## The machine -/

structure World where
  sockets : List LmSocket := []
  resolvers : List LmResolver := []

/-- A step of a socket says which backend a lookup would use. -/
inductive Label where
  | socketNew (context : Option Nat) (address : LmSocketAddress)
  | socket (k : Nat) (l : Process.Label) (backend : Backend)
  | elsewhere (k : Nat) (sa : LmSocketAddress) (kernel : Kernel)
  | lookup (context : Option Nat) (backend : Backend) (lookup : Lookup)
  | resolver (r : Nat) (l : ResolverLabel)

def World.addResolver (resolver : LmResolver) (w : World) : World :=
  { w with resolvers := w.resolvers ++ [resolver] }

def World.setSocket (k : Nat) (socket : LmSocket) (w : World) : World :=
  { w with sockets := w.sockets.set k socket }

/-- One event of socket `k`, with the lookup it starts, if it does. -/
def stepSocket (k : Nat) (l : Process.Label) (backend : Backend) (socket : LmSocket) (w : World) :
    Option World :=
  (Process.step socket.world l).map fun world =>
    let w := w.setSocket k (socket.ran world)
    if startsLookup socket.world l then
      w.addResolver
        (lmResolverLookup backend (channelGetProperty socket) (.host socket.world.sa))
    else w

def step (dnExpand : DnExpand) (w : World) : Label → Option World
  | .socketNew context address =>
      some { w with sockets := w.sockets ++ [lmSocketNew context address] }
  | .socket k l backend =>
      match w.sockets[k]? with
      | none => none
      | some socket => stepSocket k l backend socket w
  | .elsewhere k sa kernel =>
      (w.sockets[k]?).map fun socket =>
        w.setSocket k { socket with world := { socket.world with sa, kernel } }
  | .lookup context backend lookup =>
      some (w.addResolver (lmResolverLookup backend context lookup))
  | .resolver r l =>
      match w.resolvers[r]? with
      | none => none
      | some resolver =>
          (resolver.world.step dnExpand l).map fun world =>
            { w with resolvers := w.resolvers.set r (resolver.ran world) }

end LmTransport.Ref.Contexts
