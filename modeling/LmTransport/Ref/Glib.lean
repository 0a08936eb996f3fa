import Mathlib.Data.List.Basic

/-!
# What the transports use of GLib

`GIOChannel` and `GSource` are handles: a channel stands for the descriptor it
was made for, a source polls a channel for one condition. A main context is
the list of its attached sources, and `lmMiscAddIoWatch` is the one place of
the transports that attaches any. A destroyed source leaves the list for good
and its number is never given out again, so a pointer kept to it stays a
dangling pointer here too.
-/

namespace LmTransport.Ref

inductive GIOStatus where
  | error
  | normal
  | eof
  | again
deriving DecidableEq, Repr

/-- The conditions the transports watch for: `G_IO_IN`, `G_IO_OUT`, `G_IO_ERR`
and `G_IO_HUP`. -/
inductive GIOCondition where
  | inn
  | out
  | err
  | hup
deriving DecidableEq, Repr

structure GIOChannel where
  id : Nat
  fd : Int
deriving DecidableEq, Repr

/-- An I/O watch. The callback is not stored: a socket pairs each condition
with one callback of its own. -/
structure GSource where
  id : Nat
  channel : GIOChannel
  condition : GIOCondition
deriving DecidableEq, Repr

structure GMainContext where
  sources : List GSource := []
  nextId : Nat := 0
deriving DecidableEq, Repr

/-- The attached source with this number. -/
def GMainContext.find (ctx : GMainContext) (id : Nat) : Option GSource :=
  ctx.sources.find? fun s => s.id == id

/-- `g_source_destroy`, also the effect of a callback returning `FALSE`. -/
def GMainContext.destroy (ctx : GMainContext) (id : Nat) : GMainContext :=
  { ctx with sources := ctx.sources.filter fun s => s.id != id }

/-- `lm_misc_add_io_watch`. A `NULL` channel is refused by the guard and no
source is made. -/
def lmMiscAddIoWatch (ctx : GMainContext) (channel : Option GIOChannel)
    (condition : GIOCondition) : Option Nat × GMainContext :=
  match channel with
  | none => (none, ctx)
  | some channel =>
      (some ctx.nextId,
        { sources := ctx.sources ++ [⟨ctx.nextId, channel, condition⟩]
          nextId := ctx.nextId + 1 })

/-! ## Idle sources

These carry their callback, of whatever kind the module that makes them
distinguishes. -/

structure IdleSource (κ : Type) where
  id : Nat
  callback : κ
deriving DecidableEq, Repr

structure IdleContext (κ : Type) where
  sources : List (IdleSource κ) := []
  nextId : Nat := 0
deriving DecidableEq, Repr

def IdleContext.find {κ : Type} (ctx : IdleContext κ) (id : Nat) : Option (IdleSource κ) :=
  ctx.sources.find? fun s => s.id == id

def IdleContext.destroy {κ : Type} (ctx : IdleContext κ) (id : Nat) : IdleContext κ :=
  { ctx with sources := ctx.sources.filter fun s => s.id != id }

def lmMiscAddIdle {κ : Type} (ctx : IdleContext κ) (function : κ) : Nat × IdleContext κ :=
  (ctx.nextId,
    { sources := ctx.sources ++ [⟨ctx.nextId, function⟩]
      nextId := ctx.nextId + 1 })

/-! ## Attached sources -/

theorem GMainContext.find_some {ctx : GMainContext} {id : Nat} {s : GSource}
    (h : ctx.find id = some s) : s ∈ ctx.sources ∧ s.id = id := by
  refine ⟨List.mem_of_find?_eq_some h, ?_⟩
  simpa using List.find?_some h

@[simp] theorem GMainContext.mem_destroy {ctx : GMainContext} {id : Nat} {s : GSource} :
    s ∈ (ctx.destroy id).sources ↔ s ∈ ctx.sources ∧ s.id ≠ id := by
  simp [GMainContext.destroy]

theorem IdleContext.find_some {κ : Type} {ctx : IdleContext κ} {id : Nat} {s : IdleSource κ}
    (h : ctx.find id = some s) : s ∈ ctx.sources ∧ s.id = id := by
  refine ⟨List.mem_of_find?_eq_some h, ?_⟩
  simpa using List.find?_some h

@[simp] theorem IdleContext.mem_destroy {κ : Type} {ctx : IdleContext κ} {id : Nat}
    {s : IdleSource κ} : s ∈ (ctx.destroy id).sources ↔ s ∈ ctx.sources ∧ s.id ≠ id := by
  simp [IdleContext.destroy]

@[simp] theorem lmMiscAddIoWatch_none (ctx : GMainContext) (c : GIOCondition) :
    lmMiscAddIoWatch ctx none c = (none, ctx) := rfl

end LmTransport.Ref
