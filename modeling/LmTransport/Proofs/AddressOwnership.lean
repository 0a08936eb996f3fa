import LmTransport.Proofs.AddressCounts

/-!
# Socket addresses own their resources

Three things have to be avoided. `socket_set_property` forgets the address a
socket has, so the property may be set only on a socket that has none.
`lm_socket_address_unref` does not release the iterator and
`lm_socket_address_set_results` does not release the list it replaces, so the
last reference may go only when there is no iterator and no list but the
current one. And the count must not overflow.

The condition is exact. Everything else that is done with references, in the
property, in `socket_finalize` and in both resolvers, is a holder that comes
with one or a holder that goes with one.
-/

namespace LmTransport.Ref.Owners

open Lts Refcount

/-- When a lookup is over, the argument of the signal and the resolver go. -/
def Careful (w : World) : Label → Prop
  | .new _ _ => True
  | .ref a => w.Room (some a)
  | .unref a => w.LastClean 1 (some a)
  | .socketNew address => w.Room address
  | .setAddress k address =>
      (∀ priv, w.socket k = some priv → priv.sa = none) ∧ w.Room address
  | .socketFinalize k => ∀ priv, w.socket k = some priv → w.LastClean 1 priv.sa
  | .lookupHost _ a => w.Room (some a)
  | .hostDone r _ => ∀ priv, w.lookup r .pending = some priv → w.Room priv.sa
  | .finished r => ∀ priv, w.lookup r .emitting = some priv → w.LastClean 2 priv.sa
  | .getResultIter _ => True

/-! ## Sockets -/

theorem socket_some {w : World} {k : Nat} {priv : LmSocket} (h : w.socket k = some priv) :
    w.sockets[k]? = some priv ∧ priv.held = priv.sa := by
  obtain ⟨hk, halive⟩ := Option.filter_eq_some_iff.mp h
  exact ⟨hk, if_pos halive⟩

theorem refIfSet_addresses {w w' : World} (v : Option Nat) (h : w'.addresses = w.addresses) :
    (refIfSet v w').addresses = (refIfSet v w).addresses := by
  cases v with
  | none => exact h
  | some a => exact congrArg (fun l => l.modify a Address.ref) h

theorem socketSetProperty_addresses (k : Nat) (v : Option Nat) (w : World) :
    (socketSetProperty k v w).addresses = (refIfSet v w).addresses :=
  refIfSet_addresses v rfl

theorem socketSetProperty_holders {w : World} {k : Nat} {priv : LmSocket}
    (h : w.socket k = some priv) (v : Option Nat) (i : Nat) :
    (socketSetProperty k v w).holders i + one priv.sa i = w.holders i + one v i := by
  obtain ⟨hk, hheld⟩ := socket_some h
  obtain ⟨_, halive⟩ := Option.filter_eq_some_iff.mp h
  have hset : (socketSetProperty k v w).holders i + one priv.held i =
      w.holders i + one ({ priv with sa := v } : LmSocket).held i :=
    holders_socket (socketSetProperty k v w) (fun socket => { socket with sa := v }) hk
      (refIfSet_sockets ..) (refIfSet_refs ..) (refIfSet_resolvers ..) i
  have hnew : ({ priv with sa := v } : LmSocket).held = v := if_pos halive
  rw [hheld, hnew] at hset
  exact hset

/-- The address a socket had is forgotten with its reference. -/
theorem Good.leak {w : World} (h : Good w) {k b : Nat} {priv : LmSocket}
    (hk : w.socket k = some priv) (hsa : priv.sa = some b) (v : Option Nat) :
    ¬ Owned (socketSetProperty k v w) := by
  intro howned
  have hvalid : w.Valid priv.held := valid_of_socket (socket_some hk).1
  rw [(socket_some hk).2, hsa] at hvalid
  have hpos := hvalid b rfl
  obtain ⟨address, haddress, hrefs, _, hlt⟩ := h.address hpos
  have hholders := socketSetProperty_holders hk v b
  rw [hsa, one_self] at hholders
  have hget : ∃ changed, (socketSetProperty k v w).addresses[b]? = some changed ∧
      changed.refCount = (address.refCount + one v b) % 2 ^ 32 := by
    rw [socketSetProperty_addresses]
    cases v with
    | none =>
        rw [one_none, Nat.add_zero, Nat.mod_eq_of_lt hlt]
        exact ⟨address, haddress, rfl⟩
    | some c =>
        change ∃ changed, (w.addresses.modify c Address.ref)[b]? = some changed ∧ _
        by_cases hc : c = b
        · subst hc
          rw [List.getElem?_modify_eq, haddress, one_self]
          exact ⟨address.ref, rfl, rfl⟩
        · rw [List.getElem?_modify_ne _ _ hc, one_of_ne hc, Nat.add_zero, Nat.mod_eq_of_lt hlt]
          exact ⟨address, haddress, rfl⟩
  obtain ⟨changed, hchanged, hcount⟩ := hget
  have hright := howned.counted b changed hchanged
  have hone : one v b ≤ 1 := by
    unfold one
    split <;> omega
  omega

theorem Good.setProperty {w : World} (h : Good w) {k : Nat} {priv : LmSocket}
    (hk : w.socket k = some priv) (hsa : priv.sa = none) {v : Option Nat} (hv : w.Valid v) :
    (Owned (socketSetProperty k v w) ↔ w.Room v) ∧
      (w.Room v → Good (socketSetProperty k v w)) := by
  refine h.retain hv (socketSetProperty_addresses k v w) fun i => ?_
  have hset := socketSetProperty_holders hk v i
  rw [hsa, one_none, Nat.add_zero] at hset
  exact hset

theorem Good.socketNew {w : World} (h : Good w) {v : Option Nat} (hv : w.Valid v) :
    (Owned (lmSocketNew v w) ↔ w.Room v) ∧ (w.Room v → Good (lmSocketNew v w)) := by
  let w₁ : World := { w with sockets := w.sockets ++ [{}] }
  have hholders : ∀ i, w₁.holders i = w.holders i := fun i => by
    change pointers some w.refs i + pointers LmResolver.argument w.resolvers i +
      pointers LmSocket.held (w.sockets ++ [({} : LmSocket)]) i + _ = _
    rw [pointers_concat]
    rfl
  have hgood : Good w₁ := h.congr rfl hholders
  have hk : w₁.socket w.sockets.length = some {} := by
    change ((w.sockets ++ [({} : LmSocket)])[w.sockets.length]?).filter LmSocket.alive = some {}
    rw [List.getElem?_concat_length]
    rfl
  have hset := hgood.setProperty hk rfl (v := v) fun a ha => by
    rw [hholders]
    exact hv a ha
  have hroom : w₁.Room v ↔ w.Room v := room_congr hholders v
  rw [hroom] at hset
  exact hset

theorem Good.finalize {w : World} (h : Good w) {k : Nat} {priv : LmSocket}
    (hk : w.socket k = some priv) :
    (Owned (socketFinalize k priv w) ↔ w.LastClean 1 priv.sa) ∧
      (w.LastClean 1 priv.sa → Good (socketFinalize k priv w)) := by
  obtain ⟨hget, hheld⟩ := socket_some hk
  have hvalid := valid_of_socket hget
  rw [hheld] at hvalid
  refine h.drop hvalid rfl fun i => ?_
  have hset : (socketFinalize k priv w).holders i + one priv.held i =
      w.holders i + one ({ priv with alive := false } : LmSocket).held i :=
    holders_socket (socketFinalize k priv w) (fun socket => { socket with alive := false }) hget
      (by rw [socketFinalize, unrefIfSet_sockets]) (unrefIfSet_refs ..)
      (unrefIfSet_resolvers ..) i
  rw [hheld] at hset
  exact hset

/-! ## Lookups -/

theorem lookup_some {w : World} {r : Nat} {phase : Phase} {priv : LmResolver}
    (h : w.lookup r phase = some priv) : w.resolvers[r]? = some priv ∧ priv.phase = phase := by
  obtain ⟨hr, hphase⟩ := Option.filter_eq_some_iff.mp h
  exact ⟨hr, of_decide_eq_true hphase⟩

theorem Good.lookupHost {w : World} (h : Good w) {a : Nat} (hv : w.Valid (some a))
    (backend : Backend) :
    (Owned (lmResolverLookupHost backend a w) ↔ w.Room (some a)) ∧
      (w.Room (some a) → Good (lmResolverLookupHost backend a w)) := by
  refine h.retain hv rfl fun i => ?_
  unfold World.holders lmResolverLookupHost
  simp only [pointers_concat]
  change pointers some w.refs i + (pointers LmResolver.argument w.resolvers i + 0) +
    pointers LmSocket.held w.sockets i +
    (pointers LmResolver.held w.resolvers i + one (some a) i) = _
  omega

/-- The list is given to the address that is looked up, or there is none. -/
theorem Good.setResults {w : World} (h : Good w) {v : Option Nat} (hv : w.Valid v)
    (ai : List AddrInfo) : Good (lmSocketAddressSetResults v ai w) := by
  cases v with
  | none => exact h
  | some a =>
      refine h.quiet (hv a rfl) rfl (fun _ => rfl) (fun address => ?_) fun ho => ho.setResults ai
      unfold Address.setResults
      split <;> rfl

theorem setResults_fields (v : Option Nat) (ai : List AddrInfo) (w : World) :
    (lmSocketAddressSetResults v ai w).resolvers = w.resolvers ∧
      ∀ i, (lmSocketAddressSetResults v ai w).holders i = w.holders i := by
  cases v <;> exact ⟨rfl, fun _ => rfl⟩

theorem setPhase_holders {w : World} {r : Nat} {priv : LmResolver}
    (hr : w.resolvers[r]? = some priv) (phase : Phase) (i : Nat) :
    (w.setPhase r phase).holders i + (one priv.argument i + one priv.held i) =
      w.holders i + (one { priv with phase }.argument i + one { priv with phase }.held i) :=
  holders_resolver (w.setPhase r phase) (fun priv => { priv with phase }) hr rfl rfl rfl i

theorem Good.emit {w : World} (h : Good w) {r : Nat} {priv : LmResolver}
    (hr : w.resolvers[r]? = some priv) (hphase : priv.phase = .pending) :
    (Owned (emitFinished r priv w) ↔ w.Room priv.sa) ∧
      (w.Room priv.sa → Good (emitFinished r priv w)) := by
  have harg : priv.argument = none := by rw [LmResolver.argument, hphase]
  have hheld : priv.held = priv.sa := by rw [LmResolver.held, hphase]
  have hvalid : w.Valid priv.sa := hheld ▸ valid_of_resolver hr
  refine h.retain hvalid rfl fun i => ?_
  have hset := setPhase_holders (w := refIfSet priv.sa w) (r := r)
    ((refIfSet_resolvers ..).symm ▸ hr) .emitting i
  rw [harg, hheld, refIfSet_holders] at hset
  change (emitFinished r priv w).holders i + (0 + one priv.sa i) =
    w.holders i + (one priv.sa i + one priv.sa i) at hset
  omega

theorem Good.hostDone {w : World} (h : Good w) {r : Nat} {priv : LmResolver}
    (hr : w.lookup r .pending = some priv) (ans : Option (List AddrInfo)) :
    (Owned (hostDone r priv ans w) ↔ w.Room priv.sa) ∧
      (w.Room priv.sa → Good (hostDone r priv ans w)) := by
  obtain ⟨hget, hphase⟩ := lookup_some hr
  have hheld : priv.held = priv.sa := by rw [LmResolver.held, hphase]
  have hvalid : w.Valid priv.sa := hheld ▸ valid_of_resolver hget
  -- the answer first, if there is one: it leaves the counts alone
  have hgiven : ∀ ai, (Owned (emitFinished r priv (lmSocketAddressSetResults priv.sa ai w)) ↔
      w.Room priv.sa) ∧ (w.Room priv.sa →
        Good (emitFinished r priv (lmSocketAddressSetResults priv.sa ai w))) := fun ai => by
    obtain ⟨hresolvers, hholders⟩ := setResults_fields priv.sa ai w
    have hemit := (h.setResults hvalid ai).emit (hresolvers ▸ hget) hphase
    rw [room_congr hholders] at hemit
    exact hemit
  unfold Owners.hostDone
  cases priv.backend with
  | asyncns =>
      cases ans with
      | none => exact h.emit hget hphase
      | some ai => exact hgiven ai
  | blocking =>
      cases ans with
      | none => exact h.emit hget hphase
      | some ai =>
          cases ai with
          | nil => exact h.emit hget hphase
          | cons addr ai => exact hgiven (addr :: ai)

/-- The resolver is gone, and the address it had was dropped once. -/
structure Dropped (r : Nat) (v : Option Nat) (w w' : World) : Prop where
  addresses : w'.addresses = (unrefIfSet v w).addresses
  refs : w'.refs = w.refs
  sockets : w'.sockets = w.sockets
  resolvers : ∃ g : LmResolver → LmResolver, (∀ priv, (g priv).phase = .gone) ∧
    w'.resolvers = w.resolvers.modify r g

/-- The cleanup leaves no address for the one in `asyncns_resolver_finalize`. -/
theorem asyncnsResolverFinished_dropped {w : World} {r : Nat} {priv : LmResolver}
    (hr : w.resolvers[r]? = some priv) : Dropped r priv.sa w (asyncnsResolverFinished r w) := by
  have hclean : asyncnsResolverCleanup r w =
      { unrefIfSet priv.sa w with
        resolvers := w.resolvers.modify r fun priv => { priv with sa := none } } := by
    unfold asyncnsResolverCleanup
    simp only [hr, unrefIfSet_resolvers]
  have hnone : (asyncnsResolverCleanup r w).resolvers[r]? = some { priv with sa := none } := by
    rw [hclean, List.getElem?_modify_eq, hr]
    rfl
  have hagain : asyncnsResolverFinalize r (asyncnsResolverCleanup r w) =
      { asyncnsResolverCleanup r w with
        resolvers := (asyncnsResolverCleanup r w).resolvers.modify r fun priv =>
          { priv with sa := none } } := by
    unfold asyncnsResolverFinalize
    rw [asyncnsResolverCleanup, hnone]
    rfl
  unfold asyncnsResolverFinished World.setPhase
  rw [hagain, hclean]
  refine ⟨rfl, unrefIfSet_refs .., unrefIfSet_sockets .., ?_⟩
  simp only [List.modify_modify_eq]
  refine ⟨_, fun _ => ?_, rfl⟩
  rfl

theorem blockingResolverFinished_dropped {w : World} {r : Nat} {priv : LmResolver}
    (hr : w.resolvers[r]? = some priv) : Dropped r priv.sa w (blockingResolverFinished r w) := by
  have hfinal : blockingResolverFinalize r w = unrefIfSet priv.sa w := by
    unfold blockingResolverFinalize
    simp only [hr]
  unfold blockingResolverFinished World.setPhase
  rw [hfinal]
  refine ⟨rfl, unrefIfSet_refs .., unrefIfSet_sockets .., ?_⟩
  rw [unrefIfSet_resolvers]
  exact ⟨_, fun _ => rfl, rfl⟩

theorem Dropped.holders {w w' : World} {r : Nat} {priv : LmResolver}
    (h : Dropped r priv.sa w w') (hr : w.resolvers[r]? = some priv)
    (hphase : priv.phase = .emitted) (i : Nat) :
    w'.holders i + one priv.sa i = w.holders i := by
  obtain ⟨g, hgone, hresolvers⟩ := h.resolvers
  have harg : priv.argument = none := by rw [LmResolver.argument, hphase]
  have hheld : priv.held = priv.sa := by rw [LmResolver.held, hphase]
  have harg' : (g priv).argument = none := by rw [LmResolver.argument, hgone]
  have hheld' : (g priv).held = none := by rw [LmResolver.held, hgone]
  have hset := holders_resolver w' g hr hresolvers h.refs h.sockets i
  rw [harg, hheld, harg', hheld', one_none] at hset
  omega

theorem Address.clean_unref (address : Address) : address.unref.Clean ↔ address.Clean := by
  have hsa : address.unref.sa = address.sa := by
    simp only [Address.unref]
    split <;> rfl
  have hlists : address.unref.lists = address.lists := by
    simp only [Address.unref]
    split <;> rfl
  unfold Address.Clean
  rw [hsa, hlists]

/-- After the argument the resolver's own reference goes. -/
theorem lastClean_unref {w w' : World} {v : Option Nat} (n : Nat)
    (hadd : w'.addresses = (unrefIfSet v w).addresses)
    (hholders : ∀ i, w'.holders i + one v i = w.holders i) :
    w'.LastClean n v ↔ w.LastClean (n + 1) v := by
  cases v with
  | none => exact iff_of_true (fun a ha => by cases ha) fun a ha => by cases ha
  | some a =>
      have hget : w'.addresses[a]? = w.addresses[a]?.map Address.unref := by
        rw [hadd]
        exact List.getElem?_modify_eq ..
      have ha := hholders a
      rw [one_self] at ha
      have hcount : w'.holders a = n ↔ w.holders a = n + 1 := by omega
      simp [World.LastClean, hget, hcount, Address.clean_unref]

theorem Good.finished {w : World} (h : Good w) {r : Nat} {priv : LmResolver}
    (hr : w.lookup r .emitting = some priv) :
    (Owned (finished r priv w) ↔ w.LastClean 2 priv.sa) ∧
      (w.LastClean 2 priv.sa → Good (finished r priv w)) := by
  obtain ⟨hget, hphase⟩ := lookup_some hr
  have harg : priv.argument = priv.sa := by rw [LmResolver.argument, hphase]
  have hheld : priv.held = priv.sa := by rw [LmResolver.held, hphase]
  have htwo : ∀ a ∈ priv.sa, 2 ≤ w.holders a := fun a ha => by
    have hle := holders_of_resolver hget a
    rw [harg, hheld, Option.mem_def.mp ha, one_self] at hle
    exact hle
  -- the argument is never the last reference
  let w₁ := finishedEmitted r priv w
  have hholders : ∀ i, w₁.holders i + one priv.sa i = w.holders i := fun i => by
    have hset := setPhase_holders (w := unrefIfSet priv.sa w) (r := r)
      ((unrefIfSet_resolvers ..).symm ▸ hget) .emitted i
    rw [harg, hheld, unrefIfSet_holders] at hset
    change w₁.holders i + (one priv.sa i + one priv.sa i) =
      w.holders i + (0 + one priv.sa i) at hset
    omega
  have hvalid : w.Valid priv.sa := hheld ▸ valid_of_resolver hget
  have hgood : Good w₁ := (@Good.drop w w₁ _ h hvalid rfl hholders).2 fun a ha hone => by
    have hle := htwo a ha
    omega
  have hget₁ : w₁.resolvers[r]? = some { priv with phase := .emitted } := by
    change ((unrefIfSet priv.sa w).resolvers.modify r _)[r]? = _
    rw [unrefIfSet_resolvers, List.getElem?_modify_eq, hget]
    rfl
  have hvalid₁ : w₁.Valid priv.sa := fun a ha => by
    have hle := htwo a ha
    have hdrop := hholders a
    rw [Option.mem_def.mp ha, one_self] at hdrop
    omega
  have hdropped : Dropped r ({ priv with phase := .emitted } : LmResolver).sa w₁
      (Owners.finished r priv w) := by
    have hasyncns := asyncnsResolverFinished_dropped hget₁
    have hblocking := blockingResolverFinished_dropped hget₁
    unfold Owners.finished
    cases priv.backend with
    | asyncns => exact hasyncns
    | blocking => exact hblocking
  have hlast : w₁.LastClean 1 priv.sa ↔ w.LastClean 2 priv.sa := lastClean_unref 1 rfl hholders
  rw [← hlast]
  exact hgood.drop hvalid₁ hdropped.addresses (hdropped.holders hget₁ rfl)

/-! ## References of callers -/

theorem concat_cases {l : List Address} {address new : Address} {a : Nat}
    (h : (l ++ [new])[a]? = some address) :
    (l[a]? = some address ∧ a ≠ l.length) ∨ (a = l.length ∧ address = new) := by
  by_cases ha : a < l.length
  · rw [List.getElem?_append_left ha] at h
    exact Or.inl ⟨h, Nat.ne_of_lt ha⟩
  · have hlen : a < (l ++ [new]).length := (List.getElem?_eq_some_iff.mp h).1
    rw [List.length_append, List.length_singleton] at hlen
    have heq : a = l.length := by omega
    rw [heq, List.getElem?_concat_length, Option.some.injEq] at h
    exact Or.inr ⟨heq, h.symm⟩

theorem Good.new {w w' : World} {hostname : String} {port : Nat} (h : Good w)
    (hadd : w'.addresses = w.addresses ++ [.new hostname port])
    (hholders : ∀ i, w'.holders i = w.holders i + one (some w.addresses.length) i) : Good w' := by
  have hold : ∀ a, a ≠ w.addresses.length → one (some w.addresses.length) a = 0 :=
    fun a ha => one_other ha
  refine ⟨fun a address ha => ?_, fun a address ha => ?_, fun a address ha => ?_,
    fun a address ha => ?_, fun a ha => ?_⟩
  · rw [hholders]
    rcases concat_cases (hadd ▸ ha) with ⟨hget, hne⟩ | ⟨rfl, rfl⟩
    · rw [hold a hne]
      exact h.counted a address hget
    · rw [h.fresh _ (Nat.le_refl _), one_self]
      rfl
  · rcases concat_cases (hadd ▸ ha) with ⟨hget, _⟩ | ⟨rfl, rfl⟩
    · exact h.released a address hget
    · exact fun hz => by cases hz
  · rcases concat_cases (hadd ▸ ha) with ⟨hget, _⟩ | ⟨rfl, rfl⟩
    · exact h.intact a address hget
    · exact fun _ => Address.intact_new hostname port
  · rcases concat_cases (hadd ▸ ha) with ⟨hget, _⟩ | ⟨rfl, rfl⟩
    · exact h.bounded a address hget
    · exact (by decide : 1 < 2 ^ 32)
  · rw [hadd, List.length_append, List.length_singleton] at ha
    rw [hholders, hold a (by omega), h.fresh a (by omega)]

/-! ## Runs -/

theorem of_guard {p : Prop} [Decidable p] {w w' : World}
    (h : (if p then some w else none) = some w') : p ∧ w = w' := by
  rw [Option.ite_none_right_eq_some, Option.some.injEq] at h
  exact h

theorem step_owned {w w' : World} {l : Label} (h : Good w) (hs : step w l = some w') :
    (Owned w' ↔ Careful w l) ∧ (Careful w l → Good w') := by
  cases l with
  | new hostname port =>
      obtain rfl := Option.some.inj hs
      have hgood := h.new rfl (holders_refs
        { w with
          addresses := w.addresses ++ [.new hostname port]
          refs := w.refs ++ [w.addresses.length] } rfl rfl rfl)
      exact ⟨iff_of_true hgood.owned trivial, fun _ => hgood⟩
  | ref a =>
      obtain ⟨hv, rfl⟩ := of_guard hs
      exact h.retain hv rfl
        (holders_refs { lmSocketAddressRef a w with refs := w.refs ++ [a] } rfl rfl rfl)
  | unref a =>
      obtain ⟨ha, rfl⟩ := of_guard hs
      have hholders := holders_erase
        { lmSocketAddressUnref a w with refs := w.refs.erase a } ha rfl rfl rfl
      have hv : w.Valid (some a) := fun b hb => by
        have hself := hholders b
        rw [Option.mem_def.mp hb, one_self] at hself
        omega
      exact h.drop hv rfl hholders
  | socketNew address =>
      obtain ⟨hv, rfl⟩ := of_guard hs
      exact h.socketNew hv
  | setAddress k address =>
      simp only [step] at hs
      split at hs
      · cases hs
      · next priv hk =>
          obtain ⟨hv, rfl⟩ := of_guard hs
          cases hsa : priv.sa with
          | none =>
              have hfree : ∀ priv, w.socket k = some priv → priv.sa = none := fun p hp => by
                rw [hk, Option.some.injEq] at hp
                exact hp ▸ hsa
              have hset := h.setProperty hk hsa hv
              exact ⟨hset.1.trans ⟨fun hr => ⟨hfree, hr⟩, fun hc => hc.2⟩, fun hc => hset.2 hc.2⟩
          | some b =>
              have hnot : ¬ Careful w (.setAddress k address) := fun hc => by
                have hfree := hc.1 priv hk
                rw [hsa] at hfree
                cases hfree
              exact ⟨iff_of_false (h.leak hk hsa address) hnot, fun hc => absurd hc hnot⟩
  | socketFinalize k =>
      obtain ⟨priv, hk, rfl⟩ := Option.map_eq_some_iff.mp hs
      have hc : Careful w (.socketFinalize k) ↔ w.LastClean 1 priv.sa := by simp [Careful, hk]
      rw [hc]
      exact h.finalize hk
  | lookupHost backend a =>
      obtain ⟨hv, rfl⟩ := of_guard hs
      exact h.lookupHost hv backend
  | hostDone r ans =>
      obtain ⟨priv, hr, rfl⟩ := Option.map_eq_some_iff.mp hs
      have hc : Careful w (.hostDone r ans) ↔ w.Room priv.sa := by simp [Careful, hr]
      rw [hc]
      exact h.hostDone hr ans
  | finished r =>
      obtain ⟨priv, hr, rfl⟩ := Option.map_eq_some_iff.mp hs
      have hc : Careful w (.finished r) ↔ w.LastClean 2 priv.sa := by simp [Careful, hr]
      rw [hc]
      exact h.finished hr
  | getResultIter a =>
      obtain ⟨hv, rfl⟩ := of_guard hs
      have hgood : Good (w.modify a Address.getResultIter) :=
        h.quiet (hv a rfl) rfl (fun _ => rfl) (fun _ => rfl) fun ho => ho.getResultIter
      exact ⟨iff_of_true hgood.owned trivial, fun _ => hgood⟩

/-- Every state of a run is as it ought to be just when every step of it is
careful. -/
theorem address_owned_iff (as : List Label) :
    Along step (fun _ _ w => Owned w) {} as ↔ Meets step Careful {} as :=
  @along_iff_meets _ _ step (fun _ _ w => Owned w) Careful Good
    (fun _ _ _ hgood hs => step_owned hgood hs) {} as good_start

/-! A socket is given another address; an address is freed whose iterator was
asked for; an address is freed that was looked up twice. -/

def otherAddress : List Label :=
  [.new "localhost" 5222, .new "example.org" 5222, .socketNew (some 0), .setAddress 0 (some 1)]

def iteratorLeft : List Label := [.new "localhost" 5222, .getResultIter 0, .unref 0]

def resultsReplaced : List Label :=
  [.new "localhost" 5222, .lookupHost .asyncns 0, .lookupHost .asyncns 0,
    .hostDone 0 (some [⟨0, 2, 1, 6, [2, 0, 0, 0, 127, 0, 0, 1], none⟩]), .finished 0,
    .hostDone 1 (some [⟨0, 2, 1, 6, [2, 0, 0, 0, 127, 0, 0, 1], none⟩]), .finished 1,
    .unref 0]

theorem address_not_owned :
    ¬ Along step (fun _ _ w => Owned w) {} otherAddress ∧
      ¬ Along step (fun _ _ w => Owned w) {} iteratorLeft ∧
      ¬ Along step (fun _ _ w => Owned w) {} resultsReplaced := by
  refine ⟨fun h => ?_, fun h => ?_, fun h => ?_⟩
  · have howned := @Along.mid _ _ step _ _ _ _ (otherAddress.take 3) [] _ h rfl rfl
    exact absurd (howned.counted 0 _ rfl) (by decide)
  · have howned := @Along.mid _ _ step _ _ _ _ (iteratorLeft.take 2) [] _ h rfl rfl
    exact absurd (howned.released 0 _ rfl rfl .resultsIter (by decide)) (by decide)
  · have howned := @Along.mid _ _ step _ _ _ _ (resultsReplaced.take 7) [] _ h rfl rfl
    exact absurd (howned.released 0 _ rfl rfl (.results 1) (by decide)) (by decide)

end LmTransport.Ref.Owners
