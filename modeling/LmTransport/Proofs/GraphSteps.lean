import LmTransport.Lib.Run
import LmTransport.Ref.ChannelGraph

/-!
# What one call can do to a graph of channels

The inversion of the graph's `step`, and what the two kinds of thing it does
leave alone. References come and go without touching the relation between
channels, unless the last one goes of a channel that has an inner one; and
every reference there is belongs to a caller, to an outer channel or to an
emission, so that a channel does not go while it emits.
-/

namespace LmTransport.Ref.Graph

open Broadcast

/-! ## The relation -/

/-- The live channel `y` has `x` as its current inner channel. -/
def Outer (w : World) (x y : Nat) : Prop :=
  w.live y = true ∧ (w.channel y).inner = some x

/-- Giving up a reference does not finalize a channel that has an inner
one. -/
def Releases (w : World) (x : Nat) : Prop :=
  (w.channel x).refCount = 1 → (w.channel x).inner = none

/-! ## One step -/

inductive Happens (w : World) : Label → World → Prop where
  | new : Happens w .new (gObjectNew w)
  | secureNull : Happens w (.secureNew none) (gObjectNew w)
  | secureNew {x} (hx : w.live x = true) :
      Happens w (.secureNew (some x)) (lmChannelSetInner w.next (some x) (gObjectNew w))
  | ref {x} (hx : w.live x = true) :
      Happens w (.ref x) (gObjectRef x (w.modify x fun c => { c with held := c.held + 1 }))
  | unref {x} (hx : w.live x = true) (hheld : 0 < (w.channel x).held) :
      Happens w (.unref x) (gObjectUnref x (w.modify x fun c => { c with held := c.held - 1 }))
  | setNull {y} : Happens w (.setInner y none) w
  | setInner {x y} (hy : w.live y = true) (hx : w.live x = true) :
      Happens w (.setInner y (some x)) (lmChannelSetInner y (some x) w)
  | emit {x s} (hx : w.live x = true) : Happens w (.emit x s) (Graph.emit none x s w)
  | ends {i x s rest} (hstack : w.stack = ⟨i, x, s, []⟩ :: rest) :
      Happens w .next (gObjectUnref x { w with stack := rest })
  | forward {i x s y pending rest} (hstack : w.stack = ⟨i, x, s, y :: pending⟩ :: rest)
      (hy : w.live y = true) :
      Happens w .next
        (Graph.emit (some i) y s { w with stack := ⟨i, x, s, pending⟩ :: rest })
  | late {i x s y pending rest} (hstack : w.stack = ⟨i, x, s, y :: pending⟩ :: rest)
      (hy : w.live y = false) :
      Happens w .next
        { w with
          stack := ⟨i, x, s, pending⟩ :: rest
          lateForwards := w.lateForwards ++ [y] }

/-- The four handlers differ only in the signal. -/
theorem channelInnerCb_eq (i : Nat) (s : ChannelSignal) (y : Nat) (w : World) :
    channelInnerCb i s y w = Graph.emit (some i) y s w := by
  cases s with
  | opened => rfl
  | readable => rfl
  | writeable => rfl
  | closed reason => rfl

theorem nextHandler_cases {w w' : World} (h : nextHandler w = some w') :
    Happens w .next w' := by
  unfold nextHandler at h
  split at h
  · cases h
  · next hstack => exact Option.some.inj h ▸ .ends hstack
  · next i x s y pending rest hstack =>
      simp only [] at h
      split at h
      · next hy =>
          rw [channelInnerCb_eq] at h
          exact Option.some.inj h ▸ .forward hstack hy
      · next hy =>
          have hgone : w.live y = false := Bool.eq_false_iff.mpr hy
          exact Option.some.inj h ▸ .late hstack hgone

theorem step_cases {w w' : World} {l : Label} (h : step w l = some w') :
    Happens w l w' := by
  cases l with
  | new => exact Option.some.inj h ▸ .new
  | secureNew inner =>
      simp only [step] at h
      split at h
      · next hx =>
          cases inner with
          | none => exact Option.some.inj h ▸ .secureNull
          | some x => exact Option.some.inj h ▸ .secureNew hx
      · cases h
  | ref x =>
      simp only [step] at h
      split at h
      · next hx => exact Option.some.inj h ▸ .ref hx
      · cases h
  | unref x =>
      simp only [step] at h
      split at h
      · next hx => exact Option.some.inj h ▸ .unref hx.1 hx.2
      · cases h
  | setInner y inner =>
      simp only [step] at h
      split at h
      · next hy =>
          cases inner with
          | none => exact Option.some.inj h ▸ .setNull
          | some x => exact Option.some.inj h ▸ .setInner hy.1 hy.2
      · cases h
  | emit x s =>
      simp only [step] at h
      split at h
      · next hx => exact Option.some.inj h ▸ .emit hx
      · cases h
  | next => exact nextHandler_cases h

/-! ## Fields -/

theorem live_iff {w : World} {x : Nat} :
    w.live x = true ↔ x < w.next ∧ (w.channel x).finalized = false := by
  simp [World.live]

theorem mem_outers {w : World} {x y : Nat} : y ∈ w.outers x ↔ Outer w x y := by
  have hlt : w.live y = true → y < w.next := fun hy => (live_iff.mp hy).1
  simp only [World.outers, List.mem_filter, List.mem_range, Bool.and_eq_true, beq_iff_eq, Outer]
  exact ⟨fun h => h.2, fun h => ⟨hlt h.1, h⟩⟩

theorem nodup_outers (w : World) (x : Nat) : (w.outers x).Nodup :=
  List.nodup_range.filter _

theorem modify_channel (w : World) (x : Nat) (f : LmChannel → LmChannel) (y : Nat) :
    (w.modify x f).channel y = if y = x then f (w.channel y) else w.channel y := rfl

theorem modify_field {β : Type} {w : World} {x : Nat} {f : LmChannel → LmChannel}
    (g : LmChannel → β) (hg : ∀ c, g (f c) = g c) (y : Nat) :
    g ((w.modify x f).channel y) = g (w.channel y) := by
  rw [modify_channel]
  split
  · exact hg _
  · rfl

theorem modify_live {w : World} {x : Nat} {f : LmChannel → LmChannel}
    (hf : ∀ c, (f c).finalized = c.finalized) (y : Nat) : (w.modify x f).live y = w.live y := by
  have hfin : ((w.modify x f).channel y).finalized = (w.channel y).finalized :=
    modify_field LmChannel.finalized hf y
  unfold World.live
  rw [hfin]
  rfl

theorem ref_live (x : Nat) (w : World) (y : Nat) : (gObjectRef x w).live y = w.live y :=
  modify_live (f := fun c => { c with refCount := c.refCount + 1 }) (fun _ => rfl) y

theorem held_live (x : Nat) (g : LmChannel → Nat) (w : World) (y : Nat) :
    (w.modify x fun c => { c with held := g c }).live y = w.live y :=
  modify_live (f := fun c => { c with held := g c }) (fun _ => rfl) y

/-- The last reference finalizes. -/
theorem unref_live {w : World} {x y : Nat} :
    (gObjectUnref x w).live y = true ↔
      w.live y = true ∧ ¬(y = x ∧ (w.channel x).refCount = 1) := by
  rw [live_iff, live_iff, gObjectUnref, modify_channel]
  show y < w.next ∧ _ ↔ _
  by_cases hy : y = x
  · subst hy
    by_cases hlast : (w.channel y).refCount = 1
    · simp [hlast]
    · simp [hlast]
  · simp [hy]

/-- A reference less is a matter of the count, and of being finalized. -/
theorem unref_field {β : Type} (g : LmChannel → β)
    (hg : ∀ c n b, g { c with refCount := n, finalized := b } = g c) (x : Nat) (w : World)
    (y : Nat) : g ((gObjectUnref x w).channel y) = g (w.channel y) := by
  refine modify_field g (fun c => ?_) y
  split
  · exact hg c 0 true
  · exact hg c (c.refCount - 1) c.finalized

theorem unref_inner (x : Nat) (w : World) (y : Nat) :
    ((gObjectUnref x w).channel y).inner = (w.channel y).inner :=
  unref_field LmChannel.inner (fun _ _ _ => rfl) x w y

theorem unref_handlers (x : Nat) (w : World) (y : Nat) :
    ((gObjectUnref x w).channel y).handlers = (w.channel y).handlers :=
  unref_field LmChannel.handlers (fun _ _ _ => rfl) x w y

theorem unref_innerRefs (x : Nat) (w : World) (y : Nat) :
    ((gObjectUnref x w).channel y).innerRefs = (w.channel y).innerRefs :=
  unref_field LmChannel.innerRefs (fun _ _ _ => rfl) x w y

theorem unref_held (x : Nat) (w : World) (y : Nat) :
    ((gObjectUnref x w).channel y).held = (w.channel y).held :=
  unref_field LmChannel.held (fun _ _ _ => rfl) x w y

theorem unref_refCount (x : Nat) (w : World) (y : Nat) :
    ((gObjectUnref x w).channel y).refCount =
      (w.channel y).refCount - if y = x then 1 else 0 := by
  rw [gObjectUnref, modify_channel]
  split
  · split
    · next hlast => rw [hlast]
    · rfl
  · rfl

/-- What a `modify` that leaves the fields of the relation alone leaves. -/
structure SameLinks (w w' : World) : Prop where
  outer : ∀ x y, Outer w' x y ↔ Outer w x y
  handlers : ∀ x, (w'.channel x).handlers = (w.channel x).handlers
  innerRefs : ∀ x, (w'.channel x).innerRefs = (w.channel x).innerRefs
  next : w.next ≤ w'.next

theorem sameLinks_modify {w : World} {x : Nat} {f : LmChannel → LmChannel}
    (hinner : ∀ c, (f c).inner = c.inner) (hfin : ∀ c, (f c).finalized = c.finalized)
    (hhandlers : ∀ c, (f c).handlers = c.handlers)
    (hrefs : ∀ c, (f c).innerRefs = c.innerRefs) : SameLinks w (w.modify x f) := by
  refine ⟨fun z y => ?_, modify_field _ hhandlers, modify_field _ hrefs, Nat.le_refl _⟩
  unfold Outer
  rw [modify_live hfin, modify_field _ hinner]

theorem SameLinks.trans {w w' w'' : World} (h : SameLinks w w') (h' : SameLinks w' w'') :
    SameLinks w w'' where
  outer x y := (h'.outer x y).trans (h.outer x y)
  handlers x := (h'.handlers x).trans (h.handlers x)
  innerRefs x := (h'.innerRefs x).trans (h.innerRefs x)
  next := Nat.le_trans h.next h'.next

theorem sameLinks_ref (x : Nat) (w : World) : SameLinks w (gObjectRef x w) :=
  sameLinks_modify (fun _ => rfl) (fun _ => rfl) (fun _ => rfl) fun _ => rfl

/-- Giving up a reference of a channel without an inner one, or not the last. -/
theorem sameLinks_unref {w : World} {x : Nat} (h : Releases w x) :
    SameLinks w (gObjectUnref x w) := by
  refine ⟨fun z y => ?_, unref_handlers x w, unref_innerRefs x w, Nat.le_refl _⟩
  unfold Outer
  rw [unref_live, unref_inner]
  refine ⟨fun ho => ⟨ho.1.1, ho.2⟩, fun ho => ⟨⟨ho.1, ?_⟩, ho.2⟩⟩
  rintro ⟨rfl, hlast⟩
  rw [h hlast] at ho
  cases ho.2

theorem setInner_channel (y x : Nat) (w : World) (z : Nat) :
    (lmChannelSetInner y (some x) w).channel z =
      { w.channel z with
        inner := if z = y then some x else (w.channel z).inner
        refCount := (w.channel z).refCount + if z = x then 1 else 0
        innerRefs := (w.channel z).innerRefs + if z = x then 1 else 0
        handlers := (w.channel z).handlers ++ if z = x then [y] else [] } := by
  by_cases hx : z = x
  · by_cases hy : z = y
    · simp only [lmChannelSetInner, World.modify, if_pos hx, if_pos hy]
    · simp only [lmChannelSetInner, World.modify, if_pos hx, if_neg hy]
  · by_cases hy : z = y
    · simp only [lmChannelSetInner, World.modify, if_neg hx, if_pos hy, Nat.add_zero,
        List.append_nil]
    · simp only [lmChannelSetInner, World.modify, if_neg hx, if_neg hy, Nat.add_zero,
        List.append_nil]

theorem setInner_live (y x : Nat) (w : World) (z : Nat) :
    (lmChannelSetInner y (some x) w).live z = w.live z := by
  unfold World.live
  rw [setInner_channel]
  rfl

theorem outer_setInner {w : World} {x y z v : Nat} :
    Outer (lmChannelSetInner y (some x) w) z v ↔
      w.live v = true ∧ if v = y then x = z else (w.channel v).inner = some z := by
  unfold Outer
  rw [setInner_live, setInner_channel]
  refine and_congr_right fun _ => ?_
  show (if v = y then some x else (w.channel v).inner) = some z ↔ _
  split
  · exact ⟨fun h => Option.some.inj h, fun h => congrArg some h⟩
  · rfl

/-! ## Counting references

A channel that is emitting is held by its emission, so it does not go before
that is over. -/

def emitting (stack : List (Broadcast.Frame Nat ChannelSignal)) (x : Nat) : Nat :=
  stack.countP fun f => f.source == x

theorem emitting_cons (f : Broadcast.Frame Nat ChannelSignal)
    (stack : List (Broadcast.Frame Nat ChannelSignal)) (x : Nat) :
    emitting (f :: stack) x = emitting stack x + if f.source = x then 1 else 0 := by
  unfold emitting
  rw [List.countP_cons]
  simp

structure Counted (w : World) : Prop where
  refCount : ∀ x, w.live x = true →
    (w.channel x).refCount = (w.channel x).held + (w.channel x).innerRefs + emitting w.stack x
  running : ∀ f ∈ w.stack, w.live f.source = true

theorem Counted.not_emitting {w : World} (h : Counted w) {x : Nat} (hx : w.live x = false) :
    emitting w.stack x = 0 := by
  unfold emitting
  rw [List.countP_eq_zero]
  intro f hf hsource
  rw [beq_iff_eq] at hsource
  have hlive := h.running f hf
  rw [hsource, hx] at hlive
  cases hlive

theorem emitting_pos {stack : List (Broadcast.Frame Nat ChannelSignal)}
    {f : Broadcast.Frame Nat ChannelSignal} (hf : f ∈ stack) : 0 < emitting stack f.source :=
  List.countP_pos_iff.mpr ⟨f, hf, beq_self_eq_true _⟩

theorem Counted.new {w : World} (h : Counted w) : Counted (gObjectNew w) := by
  have hchannel (y : Nat) :
      (gObjectNew w).channel y = if y = w.next then {} else w.channel y := rfl
  have hlive (y : Nat) (hy : y ≠ w.next) : (gObjectNew w).live y = w.live y := by
    have hlt : y < w.next + 1 ↔ y < w.next := by omega
    unfold World.live
    rw [hchannel, if_neg hy]
    show (decide (y < w.next + 1) && _) = _
    rw [decide_eq_decide.mpr hlt]
  have hgone : w.live w.next = false := by
    simp [World.live]
  refine ⟨fun x hx => ?_, fun f hf => ?_⟩
  · by_cases hnew : x = w.next
    · show _ = _ + emitting w.stack x
      rw [hnew, h.not_emitting hgone, hchannel, if_pos rfl]
      rfl
    · rw [hlive x hnew] at hx
      rw [hchannel, if_neg hnew]
      exact h.refCount x hx
  · have hsource := h.running f hf
    rw [hlive f.source fun heq => by rw [heq, hgone] at hsource; cases hsource]
    exact hsource

/-- A reference is taken and accounted for, on one side or the other. -/
theorem Counted.ref {w : World} (h : Counted w) (x : Nat) :
    Counted (gObjectRef x (w.modify x fun c => { c with held := c.held + 1 })) := by
  have hlive (y : Nat) :
      (gObjectRef x (w.modify x fun c => { c with held := c.held + 1 })).live y = w.live y :=
    (ref_live x _ y).trans (held_live x _ w y)
  refine ⟨fun y hy => ?_, fun f hf => (hlive _).trans (h.running f hf)⟩
  rw [hlive] at hy
  have hcount := h.refCount y hy
  show _ = _ + emitting w.stack y
  rw [gObjectRef, modify_channel, modify_channel]
  split
  · show (w.channel y).refCount + 1 = (w.channel y).held + 1 + (w.channel y).innerRefs + _
    omega
  · exact hcount

theorem Counted.setInner {w : World} (h : Counted w) (x y : Nat) :
    Counted (lmChannelSetInner y (some x) w) := by
  refine ⟨fun z hz => ?_, fun f hf => (setInner_live ..).trans (h.running f hf)⟩
  rw [setInner_live] at hz
  have hcount := h.refCount z hz
  show _ = _ + emitting w.stack z
  rw [setInner_channel]
  show (w.channel z).refCount + _ = (w.channel z).held + ((w.channel z).innerRefs + _) + _
  omega

theorem Counted.emit {w : World} (h : Counted w) (cause : Option Nat) {x : Nat}
    (hx : w.live x = true) (s : ChannelSignal) : Counted (Graph.emit cause x s w) := by
  have hlive (y : Nat) : (Graph.emit cause x s w).live y = w.live y := ref_live x w y
  refine ⟨fun y hy => ?_, fun f hf => ?_⟩
  · rw [hlive] at hy
    have hcount := h.refCount y hy
    show ((gObjectRef x w).channel y).refCount = ((gObjectRef x w).channel y).held +
      ((gObjectRef x w).channel y).innerRefs + emitting (_ :: w.stack) y
    rw [emitting_cons, gObjectRef, modify_channel]
    by_cases hyx : y = x
    · rw [if_pos hyx, if_pos hyx.symm]
      show (w.channel y).refCount + 1 = (w.channel y).held + (w.channel y).innerRefs + _
      omega
    · rw [if_neg hyx, if_neg fun heq => hyx heq.symm]
      exact hcount
  · rw [hlive]
    rcases List.mem_cons.mp hf with rfl | hf
    · exact hx
    · exact h.running f hf

theorem Counted.unref {w : World} (h : Counted w) {x : Nat} (hx : w.live x = true)
    (hheld : 0 < (w.channel x).held) :
    Counted (gObjectUnref x (w.modify x fun c => { c with held := c.held - 1 })) := by
  have hlive (y : Nat) : (w.modify x fun c => { c with held := c.held - 1 }).live y = w.live y :=
    held_live x _ w y
  have hcount := h.refCount x hx
  refine ⟨fun y hy => ?_, fun f hf => ?_⟩
  · rw [unref_live, hlive] at hy
    have hcounty := h.refCount y hy.1
    show _ = _ + emitting w.stack y
    rw [unref_refCount, unref_held, unref_innerRefs, modify_channel]
    by_cases hyx : y = x
    · rw [if_pos hyx, if_pos hyx]
      subst hyx
      show (w.channel y).refCount - 1 = (w.channel y).held - 1 + (w.channel y).innerRefs + _
      omega
    · rw [if_neg hyx, if_neg hyx]
      exact hcounty
  · refine unref_live.mpr ⟨(hlive _).trans (h.running f hf), ?_⟩
    rintro ⟨rfl, hlast⟩
    rw [modify_channel, if_pos rfl] at hlast
    have hlast : (w.channel f.source).refCount = 1 := hlast
    have hf : f ∈ w.stack := hf
    have hpos := emitting_pos hf
    omega

theorem Counted.ends {w : World} (h : Counted w) {i x : Nat} {s : ChannelSignal}
    {rest : List (Broadcast.Frame Nat ChannelSignal)} (hstack : w.stack = ⟨i, x, s, []⟩ :: rest) :
    Counted (gObjectUnref x { w with stack := rest }) := by
  have hx : w.live x = true := h.running ⟨i, x, s, []⟩ (by rw [hstack]; exact List.mem_cons_self ..)
  have hcount := h.refCount x hx
  rw [hstack, emitting_cons, if_pos rfl] at hcount
  refine ⟨fun y hy => ?_, fun f hf => ?_⟩
  · rw [unref_live] at hy
    have hcounty := h.refCount y hy.1
    show _ = _ + emitting rest y
    rw [unref_refCount, unref_held, unref_innerRefs]
    rw [hstack, emitting_cons] at hcounty
    by_cases hyx : y = x
    · rw [if_pos hyx]
      rw [if_pos hyx.symm] at hcounty
      show (w.channel y).refCount - 1 = (w.channel y).held + (w.channel y).innerRefs + _
      omega
    · rw [if_neg hyx]
      rw [if_neg fun heq => hyx heq.symm] at hcounty
      exact hcounty
  · refine unref_live.mpr ⟨h.running f (by rw [hstack]; exact List.mem_cons_of_mem _ hf), ?_⟩
    rintro ⟨rfl, hlast⟩
    have hlast : (w.channel f.source).refCount = 1 := hlast
    have hf : f ∈ rest := hf
    have hpos := emitting_pos hf
    omega

/-- A frame that goes on to its next handler still holds its channel. -/
theorem Counted.advance {w : World} (h : Counted w) {i x y : Nat} {s : ChannelSignal}
    {pending : List Nat} {rest : List (Broadcast.Frame Nat ChannelSignal)}
    (hstack : w.stack = ⟨i, x, s, y :: pending⟩ :: rest) :
    Counted { w with stack := ⟨i, x, s, pending⟩ :: rest } := by
  refine ⟨fun z hz => ?_, fun f hf => ?_⟩
  · have hcount := h.refCount z hz
    rw [hstack, emitting_cons] at hcount
    show _ = _ + emitting (⟨i, x, s, pending⟩ :: rest) z
    rw [emitting_cons]
    exact hcount
  · rcases List.mem_cons.mp hf with rfl | hf
    · refine h.running ⟨i, x, s, y :: pending⟩ ?_
      rw [hstack]
      exact List.mem_cons_self ..
    · refine h.running f ?_
      rw [hstack]
      exact List.mem_cons_of_mem _ hf

end LmTransport.Ref.Graph
