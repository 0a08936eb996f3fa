import LmTransport.Ref.SocketAddress

/-!
# `LmResolver`

What `lm-resolver.c` and GObject give to both backends: the results a lookup
can have, the reference count, the emissions of `finished` under way, and a log
of what the resolver did, which no function reads.

An emission holds a reference of its own for as long as handlers run. The
function that emits is left at that point and an entry goes on `emissions`;
when the handlers of the innermost emission are done, the rest of its function
runs. A resolver whose count has come down to zero is finalized; the count
stays there, and what code does to memory that is gone is not followed up.

A C string is a `String`, and its bytes are those of its UTF-8 encoding. The text
`dn_expand` writes is ASCII, so a byte of it is a character.
-/

namespace LmTransport.Ref

inductive LmResolverResult where
  | ok
  | failed
  | cancelled
deriving DecidableEq, Repr

/-- `RESOLVE_TYPE_HOST` and `RESOLVE_TYPE_SRV`. -/
inductive ResolveType where
  | host
  | srv
deriving DecidableEq, Repr

/-- What `lm_resolver_lookup_host` or `lm_resolver_lookup_service` asks for. -/
inductive Lookup where
  | host (sa : LmSocketAddress)
  | service (domain srv : String)
deriving DecidableEq, Repr

/-- The name the parser found, as a host name. -/
def hostString (name : List UInt8) : String := String.ofList (name.map fun c => Char.ofNat c.toNat)

def resolverCreateSrvString (domain service protocol : String) : String :=
  "_" ++ service ++ "._" ++ protocol ++ "." ++ domain

/-- The field `sa` of a resolver, when it is not `NULL`: the address the caller
gave, or one the resolver made. -/
inductive SaPtr where
  | given
  | made (sa : LmSocketAddress)
deriving DecidableEq, Repr

/-- Who called the function that emits: the user, or the main loop for a
source. -/
inductive ResolverCaller where
  | cancel
  | source (id : Nat)
deriving DecidableEq, Repr

inductive ResolverEvent where
  | lookupReturned
  | setResults (ai : List AddrInfo)
  | finished (result : LmResolverResult) (sa : Option LmSocketAddress)
  | initialUnref
deriving DecidableEq, Repr

/-! ## The object

`held` counts the references callers own; the initial reference belongs to the
resolver itself. `given` is the address of a host lookup, which belongs to the
caller. -/

structure ResolverObject where
  refCount : Nat := 1
  held : Nat := 0
  given : Option LmSocketAddress := none
  emissions : List ResolverCaller := []
  log : List ResolverEvent := []
deriving DecidableEq, Repr

namespace ResolverObject

def note (o : ResolverObject) (e : ResolverEvent) : ResolverObject :=
  { o with log := o.log ++ [e] }

/-- A caller takes a reference. -/
def hold (o : ResolverObject) : ResolverObject :=
  { o with refCount := o.refCount + 1, held := o.held + 1 }

def unref (o : ResolverObject) : ResolverObject := { o with refCount := o.refCount - 1 }

/-- There is a holder, who can call into the resolver. -/
def usable (o : ResolverObject) : Bool := o.held ≠ 0 && o.refCount ≠ 0

/-- The address behind the field `sa`. -/
def deref (o : ResolverObject) : Option SaPtr → Option LmSocketAddress
  | none => none
  | some .given => o.given
  | some (.made sa) => some sa

/-- `lm_socket_address_set_results (priv->sa, ai)`, which only host lookups
call; `NULL` is refused by the guard. -/
def setResults (sa : Option SaPtr) (ai : List AddrInfo) (o : ResolverObject) :
    ResolverObject :=
  match sa with
  | some .given =>
      { o with
        given := o.given.map fun given => lmSocketAddressSetResults given ai
        log := o.log ++ [.setResults ai] }
  | _ => o

/-- `g_signal_emit_by_name (resolver, "finished", result, priv->sa)`, up to the
point where the handlers run. -/
def emitFinished (result : LmResolverResult) (sa : Option SaPtr) (k : ResolverCaller)
    (o : ResolverObject) : ResolverObject :=
  { o with
    refCount := o.refCount + 1
    emissions := k :: o.emissions
    log := o.log ++ [.finished result (o.deref sa)] }

end ResolverObject

/-! ## Reading the log -/

/-- The `finished` emissions so far. -/
def reports (log : List ResolverEvent) : List (LmResolverResult × Option LmSocketAddress) :=
  log.filterMap fun
    | .finished result sa => some (result, sa)
    | _ => none

/-- The result lists the resolver stored in its address. -/
def stored (log : List ResolverEvent) : List (List AddrInfo) :=
  log.filterMap fun
    | .setResults ai => some ai
    | _ => none

/-- How often the resolver gave up its initial reference. -/
def initialUnrefs (log : List ResolverEvent) : Nat := log.count .initialUnref

@[simp] theorem reports_append (l l' : List ResolverEvent) :
    reports (l ++ l') = reports l ++ reports l' := List.filterMap_append

@[simp] theorem stored_append (l l' : List ResolverEvent) :
    stored (l ++ l') = stored l ++ stored l' := List.filterMap_append

end LmTransport.Ref
