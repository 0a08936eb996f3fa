import LmTransport.Proofs.GraphSteps
import Mathlib.Data.List.Nodup
import Mathlib.Data.List.Perm.Subperm

/-!
# Events on their way outwards

`lm_channel_set_inner` is the only function that touches handlers and inner
references, and it only adds. So the two agree with the `inner` fields as long
as nothing is taken away from those: a channel that has an inner channel gets
no other, and is not finalized. That condition is exact. The step that misses
it leaves a reference behind, at once, which the invariant counts.

While it is met every emission calls exactly the channels that ought to hear of
it, however emissions nest, and each of them is there when its turn comes.
-/

namespace LmTransport.Ref.Graph

open Lts Broadcast

/-! ## Signals passed on -/

/-- Every emission is passed on by the channels it ought to be, once, and as
the signal it is; no handler was called for a channel that is gone; and every
inner reference belongs to a channel. -/
structure Routed (w : World) : Prop where
  fair : Fair w.rounds w.stack
  late : w.lateForwards = []
  refs : ∀ x, (w.channel x).innerRefs = (w.outers x).length

/-- Inner channels are not replaced, and what has one is not finalized. -/
def KeepsInner (w : World) : Label → Prop
  | .setInner y (some _) => (w.channel y).inner = none
  | .unref x => Releases w x
  | .next => ∀ f rest, w.stack = f :: rest → f.pending = [] → Releases w f.source
  | _ => True

/-! ## The relation and its records -/

/-- The handlers and the inner references of a channel are those of the
channels around it. -/
structure Wired (w : World) : Prop where
  nodup : ∀ x, (w.channel x).handlers.Nodup
  handlers : ∀ x y, y ∈ (w.channel x).handlers ↔ Outer w x y
  refs : ∀ x, (w.channel x).innerRefs = (w.channel x).handlers.length
  bound : ∀ x y, Outer w x y → x < w.next

theorem Wired.perm {w : World} (h : Wired w) (x : Nat) :
    (w.channel x).handlers.Perm (w.outers x) := by
  rw [List.perm_ext_iff_of_nodup (h.nodup x) (nodup_outers w x)]
  intro y
  rw [h.handlers, mem_outers]

theorem Wired.congr {w w' : World} (h : Wired w) (hs : SameLinks w w') : Wired w' where
  nodup x := by
    rw [hs.handlers]
    exact h.nodup x
  handlers x y := by
    rw [hs.handlers, hs.outer, h.handlers]
  refs x := by
    rw [hs.innerRefs, hs.handlers, h.refs]
  bound x y hy := Nat.lt_of_lt_of_le (h.bound x y ((hs.outer x y).mp hy)) hs.next

/-- A channel that is not there yet has nothing around it. -/
theorem Wired.new {w : World} (h : Wired w) : SameLinks w (gObjectNew w) := by
  have hnone : (w.channel w.next).handlers = [] := by
    refine List.eq_nil_iff_forall_not_mem.mpr fun y hy => ?_
    have hlt := h.bound _ y ((h.handlers _ y).mp hy)
    omega
  have hchannel (y : Nat) :
      (gObjectNew w).channel y = if y = w.next then {} else w.channel y := rfl
  refine ⟨fun x y => ?_, fun x => ?_, fun x => ?_, Nat.le_succ _⟩
  · unfold Outer
    rw [live_iff, live_iff, hchannel]
    show (y < w.next + 1 ∧ _) ∧ _ ↔ _
    split
    · next hy =>
        subst hy
        refine iff_of_false (fun hnew => ?_) fun hold => ?_
        · cases hnew.2
        · exact absurd hold.1.1 (Nat.lt_irrefl _)
    · next hy =>
        have hlt : y < w.next + 1 ↔ y < w.next := by omega
        rw [hlt]
  · rw [hchannel]
    split
    · next hx => rw [hx, hnone]
    · rfl
  · rw [hchannel]
    split
    · next hx =>
        rw [hx, h.refs, hnone]
        rfl
    · rfl

/-- A channel gets its first inner channel. -/
theorem Wired.setInner {w : World} (h : Wired w) {x y : Nat} (hy : w.live y = true)
    (hx : w.live x = true) (hnone : (w.channel y).inner = none) :
    Wired (lmChannelSetInner y (some x) w) := by
  have hnew (z : Nat) : y ∉ (w.channel z).handlers := by
    intro hmem
    have hinner := ((h.handlers z y).mp hmem).2
    rw [hnone] at hinner
    cases hinner
  refine ⟨fun z => ?_, fun z v => ?_, fun z => ?_, fun z v hv => ?_⟩
  · rw [setInner_channel]
    show (_ ++ if z = x then [y] else []).Nodup
    split
    · refine List.nodup_append.mpr ⟨h.nodup z, List.nodup_singleton y, fun v hv v' hv' heq => ?_⟩
      rw [heq, List.mem_singleton.mp hv'] at hv
      exact hnew z hv
    · rw [List.append_nil]
      exact h.nodup z
  · rw [setInner_channel, outer_setInner]
    show v ∈ _ ++ (if z = x then [y] else []) ↔ _
    rw [List.mem_append, h.handlers]
    by_cases hvy : v = y
    · subst hvy
      have hno : ¬Outer w z v := fun ho => hnew z ((h.handlers z v).mpr ho)
      by_cases hzx : z = x
      · simp [hzx, hy]
      · have hxz : ¬x = z := fun heq => hzx heq.symm
        simp [hzx, hxz, hno]
    · have hmem : v ∉ (if z = x then [y] else []) := by
        split
        · exact fun hv => hvy (List.mem_singleton.mp hv)
        · exact List.not_mem_nil
      rw [if_neg hvy]
      exact ⟨fun hv => hv.resolve_right hmem, Or.inl⟩
  · rw [setInner_channel]
    show (w.channel z).innerRefs + (if z = x then 1 else 0) =
      (_ ++ if z = x then [y] else []).length
    rw [List.length_append, h.refs]
    split
    · rfl
    · rfl
  · rw [outer_setInner] at hv
    show z < w.next
    split at hv
    · rw [← hv.2]
      exact (live_iff.mp hx).1
    · exact h.bound z v hv

/-! ## Emissions under way -/

structure Calling (w : World) : Prop where
  coherent : Coherent w.rounds w.stack
  fair : Fair w.rounds w.stack
  late : w.lateForwards = []
  pending : ∀ f ∈ w.stack, ∀ y ∈ f.pending, ∃ x, Outer w x y

theorem Calling.congr {w w' : World} (h : Calling w) (hs : SameLinks w w')
    (hrounds : w'.rounds = w.rounds) (hstack : w'.stack = w.stack)
    (hlate : w'.lateForwards = w.lateForwards) : Calling w' where
  coherent := by
    rw [hrounds, hstack]
    exact h.coherent
  fair := by
    rw [hrounds, hstack]
    exact h.fair
  late := hlate.trans h.late
  pending f hf y hy := by
    rw [hstack] at hf
    obtain ⟨x, hx⟩ := h.pending f hf y hy
    exact ⟨x, (hs.outer x y).mpr hx⟩

theorem Calling.setInner {w : World} (h : Calling w) {x y : Nat} :
    Calling (lmChannelSetInner y (some x) w) where
  coherent := h.coherent
  fair := h.fair
  late := h.late
  pending f hf v hv := by
    obtain ⟨z, hz⟩ := h.pending f hf v hv
    by_cases hvy : v = y
    · exact ⟨x, outer_setInner.mpr ⟨hz.1, by rw [if_pos hvy]⟩⟩
    · exact ⟨z, outer_setInner.mpr ⟨hz.1, by rw [if_neg hvy]; exact hz.2⟩⟩

theorem emit_links (cause : Option Nat) (x : Nat) (s : ChannelSignal) (w : World) :
    SameLinks w (Graph.emit cause x s w) :=
  (sameLinks_ref x w).trans
    ⟨fun _ _ => Iff.rfl, fun _ => rfl, fun _ => rfl, Nat.le_refl _⟩

/-- What an emission calls is what ought to hear of it. -/
theorem Wired.audience {w : World} (h : Wired w) (x : Nat) :
    ((gObjectRef x w).channel x).handlers.Perm ((gObjectRef x w).outers x) :=
  (h.congr (sameLinks_ref x w)).perm x

theorem Calling.emit {w : World} (h : Calling w) (hw : Wired w) (x : Nat)
    (s : ChannelSignal) : Calling (Graph.emit none x s w) where
  coherent := h.coherent.begin (r := ⟨none, x, s, _⟩) nofun _
  fair := h.fair.begin h.coherent (r := ⟨none, x, s, _⟩) rfl (hw.audience x)
  late := h.late
  pending f hf y hy := by
    have hsame := emit_links none x s w
    rcases List.mem_cons.mp hf with rfl | hf
    · refine ⟨x, (hsame.outer x y).mpr ((hw.handlers x y).mp ?_)⟩
      rw [← (sameLinks_ref x w).handlers]
      exact hy
    · obtain ⟨z, hz⟩ := h.pending f hf y hy
      exact ⟨z, (hsame.outer z y).mpr hz⟩

theorem Calling.forward {w : World} (h : Calling w) (hw : Wired w) {i x y : Nat}
    {s : ChannelSignal} {pending : List Nat} {rest : List (Broadcast.Frame Nat ChannelSignal)}
    (hstack : w.stack = ⟨i, x, s, y :: pending⟩ :: rest) :
    Calling (Graph.emit (some i) y s { w with stack := ⟨i, x, s, pending⟩ :: rest }) := by
  have hcoherent := h.coherent
  have hfair := h.fair
  rw [hstack] at hcoherent hfair
  have hi : i < w.rounds.length := hcoherent.lt (List.mem_cons_self ..)
  have hadv : Coherent w.rounds (⟨i, x, s, pending⟩ :: rest) :=
    hcoherent.advance rfl rfl rfl
  have hsame := emit_links (some i) y s { w with stack := ⟨i, x, s, pending⟩ :: rest }
  have hheard (f : Broadcast.Frame Nat ChannelSignal) (hf : f ∈ w.stack) (v : Nat)
      (hv : v ∈ f.pending) :
      ∃ z, Outer (Graph.emit (some i) y s { w with stack := ⟨i, x, s, pending⟩ :: rest }) z v := by
    obtain ⟨z, hz⟩ := h.pending f hf v hv
    exact ⟨z, (hsame.outer z v).mpr hz⟩
  refine ⟨hadv.begin (r := ⟨some i, y, s, _⟩) (fun j hj => Option.some.inj hj ▸ hi) _,
    hfair.relay hcoherent (hw.audience y), h.late, fun f hf v hv => ?_⟩
  rcases List.mem_cons.mp hf with rfl | hf
  · refine ⟨y, (hsame.outer y v).mpr ((hw.handlers y v).mp ?_)⟩
    rw [← (sameLinks_ref y w).handlers]
    exact hv
  · rcases List.mem_cons.mp hf with rfl | hf
    · refine hheard ⟨i, x, s, y :: pending⟩ ?_ v (List.mem_cons_of_mem y hv)
      rw [hstack]
      exact List.mem_cons_self ..
    · refine hheard f ?_ v hv
      rw [hstack]
      exact List.mem_cons_of_mem _ hf

theorem Calling.pop {w : World} (h : Calling w) {i x : Nat} {s : ChannelSignal}
    {rest : List (Broadcast.Frame Nat ChannelSignal)} (hstack : w.stack = ⟨i, x, s, []⟩ :: rest) :
    Calling { w with stack := rest } := by
  have hcoherent := h.coherent
  have hfair := h.fair
  rw [hstack] at hcoherent hfair
  refine ⟨hcoherent.tail, hfair.finish, h.late, fun f hf y hy => ?_⟩
  refine h.pending f ?_ y hy
  rw [hstack]
  exact List.mem_cons_of_mem _ hf

/-! ## What a step that misses the condition leaves -/

theorem length_outers_le {w w' : World} {x : Nat} (h : ∀ y, Outer w' x y → Outer w x y) :
    (w'.outers x).length ≤ (w.outers x).length := by
  refine ((nodup_outers w' x).subperm fun y hy => ?_).length_le
  exact mem_outers.mpr (h y (mem_outers.mp hy))

theorem length_outers_lt {w w' : World} {x y : Nat} (h : ∀ v, Outer w' x v → Outer w x v)
    (hold : Outer w x y) (hlost : ¬Outer w' x y) :
    (w'.outers x).length < (w.outers x).length := by
  have hnodup : (y :: w'.outers x).Nodup :=
    List.nodup_cons.mpr ⟨fun hy => hlost (mem_outers.mp hy), nodup_outers w' x⟩
  have hsub : y :: w'.outers x ⊆ w.outers x := by
    intro v hv
    rcases List.mem_cons.mp hv with rfl | hv
    · exact mem_outers.mpr hold
    · exact mem_outers.mpr (h v (mem_outers.mp hv))
  have hle := (hnodup.subperm hsub).length_le
  rw [List.length_cons] at hle
  omega

theorem Wired.count {w : World} (h : Wired w) (x : Nat) :
    (w.channel x).innerRefs = (w.outers x).length :=
  (h.refs x).trans (h.perm x).length_eq

/-- A second inner channel: the reference on the first one is lost, or there
are two on the same. -/
theorem not_routed_setInner {w : World} (h : Wired w) {x y : Nat} (hy : w.live y = true)
    (hset : (w.channel y).inner ≠ none) : ¬Routed (lmChannelSetInner y (some x) w) := by
  intro hr
  obtain ⟨x₀, hx₀⟩ := Option.ne_none_iff_exists'.mp hset
  have hcount := hr.refs x₀
  rw [setInner_channel] at hcount
  have hcount : (w.channel x₀).innerRefs + (if x₀ = x then 1 else 0) =
      ((lmChannelSetInner y (some x) w).outers x₀).length := hcount
  have hold := h.count x₀
  have hsub (v : Nat) (hv : Outer (lmChannelSetInner y (some x) w) x₀ v) : Outer w x₀ v := by
    rw [outer_setInner] at hv
    obtain ⟨hlive, hinner⟩ := hv
    split at hinner
    · next hvy =>
        rw [hvy]
        exact ⟨hy, hx₀⟩
    · exact ⟨hlive, hinner⟩
  by_cases hx : x₀ = x
  · have hle := length_outers_le hsub
    rw [if_pos hx] at hcount
    omega
  · have hlost : ¬Outer (lmChannelSetInner y (some x) w) x₀ y := by
      rw [outer_setInner, if_pos rfl]
      exact fun ho => hx ho.2.symm
    have hlt := length_outers_lt hsub ⟨hy, hx₀⟩ hlost
    rw [if_neg hx] at hcount
    omega

/-- A channel with an inner one goes: nobody gives its reference back. -/
theorem not_routed_unref {w : World} (h : Wired w) {x : Nat} (hx : w.live x = true)
    (hset : ¬Releases w x) : ¬Routed (gObjectUnref x w) := by
  intro hr
  rw [Releases, Classical.not_imp] at hset
  obtain ⟨hlast, hinner⟩ := hset
  obtain ⟨z, hz⟩ := Option.ne_none_iff_exists'.mp hinner
  have hsub (v : Nat) (hv : Outer (gObjectUnref x w) z v) : Outer w z v := by
    obtain ⟨hlive, hvz⟩ := hv
    rw [unref_inner] at hvz
    exact ⟨(unref_live.mp hlive).1, hvz⟩
  have hlost : ¬Outer (gObjectUnref x w) z x := fun ho => (unref_live.mp ho.1).2 ⟨rfl, hlast⟩
  have hlt := length_outers_lt hsub ⟨hx, hz⟩ hlost
  have hcount := hr.refs z
  rw [unref_innerRefs, h.count z] at hcount
  omega

/-! ## The run -/

structure GraphInv (w : World) : Prop where
  wired : Wired w
  calling : Calling w
  counted : Counted w

theorem GraphInv.routed {w : World} (h : GraphInv w) : Routed w :=
  ⟨h.calling.fair, h.calling.late, h.wired.count⟩

theorem graphInv_new : GraphInv {} where
  wired := ⟨fun _ => List.nodup_nil, fun _ _ => iff_of_false List.not_mem_nil nofun,
    fun _ => rfl, nofun⟩
  calling := ⟨⟨nofun, nofun⟩, ⟨nofun, nofun⟩, rfl, nofun⟩
  counted := ⟨nofun, nofun⟩

theorem keeps_of_inv {w w' : World} {l : Label} (hl : KeepsInner w l) (h : GraphInv w') :
    (Routed w' ↔ KeepsInner w l) ∧ (KeepsInner w l → GraphInv w') :=
  ⟨iff_of_true h.routed hl, fun _ => h⟩

theorem GraphInv.links {w w' : World} (h : GraphInv w) (hs : SameLinks w w')
    (hrounds : w'.rounds = w.rounds) (hstack : w'.stack = w.stack)
    (hlate : w'.lateForwards = w.lateForwards) (hcounted : Counted w') : GraphInv w' :=
  ⟨h.wired.congr hs, h.calling.congr hs hrounds hstack hlate, hcounted⟩

theorem GraphInv.setInner {w : World} (h : GraphInv w) {x y : Nat} (hy : w.live y = true)
    (hx : w.live x = true) (hnone : (w.channel y).inner = none) :
    GraphInv (lmChannelSetInner y (some x) w) :=
  ⟨h.wired.setInner hy hx hnone, h.calling.setInner, h.counted.setInner x y⟩

/-- A step that misses the condition. -/
theorem misses_of_not {w w' : World} {l : Label} (hl : ¬KeepsInner w l) (h : ¬Routed w') :
    (Routed w' ↔ KeepsInner w l) ∧ (KeepsInner w l → GraphInv w') :=
  ⟨iff_of_false h hl, fun hkeeps => absurd hkeeps hl⟩

theorem sameLinks_held (x : Nat) (g : LmChannel → Nat) (w : World) :
    SameLinks w (w.modify x fun c => { c with held := g c }) :=
  sameLinks_modify (f := fun c => { c with held := g c }) (fun _ => rfl) (fun _ => rfl)
    (fun _ => rfl) fun _ => rfl

theorem releases_held {x : Nat} {g : LmChannel → Nat} {w : World} :
    Releases (w.modify x fun c => { c with held := g c }) x ↔ Releases w x := by
  unfold Releases
  rw [modify_channel, if_pos rfl]

theorem keepsInner_next {w : World} {i x : Nat} {s : ChannelSignal} {pending : List Nat}
    {rest : List (Broadcast.Frame Nat ChannelSignal)}
    (hstack : w.stack = ⟨i, x, s, pending⟩ :: rest) :
    KeepsInner w .next ↔ (pending = [] → Releases w x) := by
  constructor
  · exact fun h => h ⟨i, x, s, pending⟩ rest hstack
  · intro h f rest' hf
    rw [hstack, List.cons.injEq] at hf
    rw [← hf.1]
    exact h

theorem GraphInv.unref {w : World} (h : GraphInv w) {x : Nat} (hx : w.live x = true)
    (hheld : 0 < (w.channel x).held) (hr : Releases w x) :
    GraphInv (gObjectUnref x (w.modify x fun c => { c with held := c.held - 1 })) :=
  h.links ((sameLinks_held x _ w).trans (sameLinks_unref (releases_held.mpr hr))) rfl rfl rfl
    (h.counted.unref hx hheld)

theorem GraphInv.ends {w : World} (h : GraphInv w) {i x : Nat} {s : ChannelSignal}
    {rest : List (Broadcast.Frame Nat ChannelSignal)} (hstack : w.stack = ⟨i, x, s, []⟩ :: rest)
    (hr : Releases w x) : GraphInv (gObjectUnref x { w with stack := rest }) := by
  have hlinks : SameLinks { w with stack := rest } (gObjectUnref x { w with stack := rest }) :=
    sameLinks_unref hr
  have hwired : Wired { w with stack := rest } :=
    ⟨h.wired.nodup, h.wired.handlers, h.wired.refs, h.wired.bound⟩
  exact ⟨hwired.congr hlinks, (h.calling.pop hstack).congr hlinks rfl rfl rfl,
    h.counted.ends hstack⟩

theorem GraphInv.emit {w : World} (h : GraphInv w) {x : Nat} (hx : w.live x = true)
    (s : ChannelSignal) : GraphInv (Graph.emit none x s w) :=
  ⟨h.wired.congr (emit_links none x s w), h.calling.emit h.wired x s, h.counted.emit none hx s⟩

theorem GraphInv.forward {w : World} (h : GraphInv w) {i x y : Nat} {s : ChannelSignal}
    {pending : List Nat} {rest : List (Broadcast.Frame Nat ChannelSignal)}
    (hstack : w.stack = ⟨i, x, s, y :: pending⟩ :: rest) (hy : w.live y = true) :
    GraphInv (Graph.emit (some i) y s { w with stack := ⟨i, x, s, pending⟩ :: rest }) := by
  have hlinks := emit_links (some i) y s { w with stack := ⟨i, x, s, pending⟩ :: rest }
  have hwired : Wired { w with stack := ⟨i, x, s, pending⟩ :: rest } :=
    ⟨h.wired.nodup, h.wired.handlers, h.wired.refs, h.wired.bound⟩
  exact ⟨hwired.congr hlinks, h.calling.forward h.wired hstack,
    (h.counted.advance hstack).emit (some i) hy s⟩

theorem graph_step {w w' : World} {l : Label} (h : GraphInv w) (hs : step w l = some w') :
    (Routed w' ↔ KeepsInner w l) ∧ (KeepsInner w l → GraphInv w') := by
  have hnew : GraphInv (gObjectNew w) := h.links h.wired.new rfl rfl rfl h.counted.new
  cases step_cases hs with
  | new => exact keeps_of_inv trivial hnew
  | secureNull => exact keeps_of_inv trivial hnew
  | @secureNew x hx =>
      refine keeps_of_inv trivial (hnew.setInner ?_ ?_ ?_)
      · simp [live_iff, gObjectNew]
      · rw [live_iff] at hx ⊢
        have hne : x ≠ w.next := by omega
        exact ⟨Nat.lt_succ_of_lt hx.1, by simpa [gObjectNew, hne] using hx.2⟩
      · simp [gObjectNew]
  | @ref x hx =>
      exact keeps_of_inv trivial (h.links ((sameLinks_held x _ w).trans (sameLinks_ref x _))
        rfl rfl rfl (h.counted.ref x))
  | @unref x hx hheld =>
      by_cases hr : Releases w x
      · exact keeps_of_inv hr (h.unref hx hheld hr)
      · refine misses_of_not hr (not_routed_unref ?_ ?_ fun hr' => hr (releases_held.mp hr'))
        · exact h.wired.congr (sameLinks_held x _ w)
        · exact (held_live x _ w x).trans hx
  | setNull => exact keeps_of_inv trivial h
  | @setInner x y hy hx =>
      by_cases hnone : (w.channel y).inner = none
      · exact keeps_of_inv hnone (h.setInner hy hx hnone)
      · exact misses_of_not hnone (not_routed_setInner h.wired hy hnone)
  | @emit x s hx => exact keeps_of_inv trivial (h.emit hx s)
  | @ends i x s rest hstack =>
      have hiff := keepsInner_next hstack
      by_cases hr : Releases w x
      · exact keeps_of_inv (hiff.mpr fun _ => hr) (h.ends hstack hr)
      · refine misses_of_not (fun hl => hr (hiff.mp hl rfl)) (not_routed_unref ?_ ?_ hr)
        · exact ⟨h.wired.nodup, h.wired.handlers, h.wired.refs, h.wired.bound⟩
        · refine h.counted.running ⟨i, x, s, []⟩ ?_
          rw [hstack]
          exact List.mem_cons_self ..
  | @forward i x s y pending rest hstack hy =>
      exact keeps_of_inv ((keepsInner_next hstack).mpr nofun) (h.forward hstack hy)
  | @late i x s y pending rest hstack hy =>
      obtain ⟨z, hz⟩ := h.calling.pending ⟨i, x, s, y :: pending⟩
        (by rw [hstack]; exact List.mem_cons_self ..) y (List.mem_cons_self ..)
      rw [hz.1] at hy
      cases hy

/-- Over any channels and any calls: all events go where they ought to, once,
and the references are those of the relation, just as long as no inner channel
is replaced and no channel that has one is finalized. -/
theorem events_forwarded_once (as : List Label) :
    Along step (fun _ _ w => Routed w) {} as ↔ Meets step KeepsInner {} as :=
  @along_iff_meets _ _ step (fun _ _ w => Routed w) KeepsInner GraphInv
    (fun _ _ _ hinv hs => graph_step hinv hs) {} as graphInv_new

/-- A channel gets another inner channel: the first one still calls it, and
still has its reference. And an outer channel is finalized: the inner one calls
it all the same. -/
theorem events_misrouted :
    (∃ w, exec step {} [.new, .new, .secureNew (some 0), .setInner 2 (some 1), .emit 0 .opened,
        .next] = some w ∧
      ¬Routed w ∧ (w.channel 2).inner = some 1 ∧ relays w.rounds 0 = [2]) ∧
    ∃ w, exec step {} [.new, .secureNew (some 0), .unref 1, .emit 0 .opened, .next] = some w ∧
      ¬Routed w ∧ w.lateForwards = [1] :=
  ⟨⟨_, rfl, fun h => absurd (h.refs 0) (by decide), rfl, rfl⟩,
    _, rfl, fun h => absurd h.late (by decide), rfl⟩

end LmTransport.Ref.Graph
