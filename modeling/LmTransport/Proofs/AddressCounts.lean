import LmTransport.Ref.AddressOwners

/-!
# The count of an address and those who hold it

`Owned` is what ought to hold of every address in every state: the reference
count is the number of holders, and when it is zero everything allocated for
the address has been released once. `Good` adds what makes it an invariant.

A call changes one address and the holders of that address only, so `Owned`
after it is a matter of that address alone (`Good.owned_iff`). The moves are two:
someone new holds the address with a reference (`Good.retain`), or a holder goes
and drops its reference (`Good.drop`).
-/

namespace LmTransport.Ref.Owners

open Lts Refcount

/-! ## What is to be shown -/

/-- Everything that was allocated has been released, once. -/
def Address.ReleasedOnce (address : Address) : Prop :=
  ∀ p, .acquire p ∈ address.log → address.log.count (.release p) = 1

structure Owned (w : World) : Prop where
  counted : ∀ (a : Nat) (address : Address), w.addresses[a]? = some address →
    address.refCount = w.holders a
  released : ∀ (a : Nat) (address : Address), w.addresses[a]? = some address →
    address.refCount = 0 → address.ReleasedOnce

/-! ## The condition -/

/-- There is nothing that `lm_socket_address_unref` would leave behind: no
iterator, and no list but the one `results` has. -/
def Address.Clean (address : Address) : Prop :=
  address.sa.resultsIter = none ∧ address.lists ≤ 1 ∧
    (address.lists = 1 → address.sa.results ≠ [])

/-- The address may be given one more holder. -/
def World.Room (w : World) (v : Option Nat) : Prop := ∀ a ∈ v, w.holders a + 1 < 2 ^ 32

/-- If these are the last `n` holders, the address is clean. -/
def World.LastClean (w : World) (n : Nat) (v : Option Nat) : Prop :=
  ∀ a ∈ v, w.holders a = n → ∀ address, w.addresses[a]? = some address → address.Clean

/-! ## One address -/

/-- What is allocated for an address that has not been freed. -/
def Address.Owns (address : Address) : Part → Prop
  | .slice => True
  | .hostname => True
  | .results n => 0 < n ∧ n ≤ address.lists
  | .resultsIter => address.sa.resultsIter ≠ none

structure Address.Intact (address : Address) : Prop where
  unreleased : ∀ p, .release p ∉ address.log
  acquired : ∀ p, .acquire p ∈ address.log ↔ address.Owns p
  given : address.sa.results ≠ [] → 0 < address.lists

theorem Address.intact_new (hostname : String) (port : Nat) :
    (Address.new hostname port).Intact where
  unreleased := fun p h => by simp [Address.new] at h
  acquired := fun p => by
    cases p with
    | slice => simp [Address.new, Address.Owns]
    | hostname => simp [Address.new, Address.Owns]
    | results n =>
        simp only [Address.new, Address.Owns, List.mem_cons, Lifecycle.Ev.acquire.injEq,
          reduceCtorEq, List.not_mem_nil, or_self, false_iff]
        omega
    | resultsIter => simp [Address.new, Address.Owns, Ref.lmSocketAddressNew]
  given := fun h => absurd rfl h

/-- The count has no part in it. -/
theorem Address.Intact.recount {address : Address} (h : address.Intact) (n : Nat) :
    ({ address with refCount := n } : Address).Intact :=
  ⟨h.unreleased, fun p => (h.acquired p).trans (by cases p <;> exact Iff.rfl), h.given⟩

theorem Address.Intact.setResults {address : Address} (h : address.Intact)
    (ai : List AddrInfo) : (address.setResults ai).Intact := by
  unfold Address.setResults
  by_cases hai : ai = []
  · rw [if_pos hai]
    subst hai
    refine ⟨h.unreleased, fun p => (h.acquired p).trans ?_, fun hr => absurd rfl hr⟩
    cases p <;> exact Iff.rfl
  · rw [if_neg hai]
    refine ⟨fun p hp => ?_, fun p => ?_, fun _ => Nat.succ_pos _⟩
    · rcases List.mem_append.mp hp with hp | hp
      · exact h.unreleased p hp
      · simp at hp
    · rw [List.mem_append, h.acquired p]
      cases p with
      | slice => simp [Address.Owns]
      | hostname => simp [Address.Owns]
      | results n =>
          rw [List.mem_singleton, Lifecycle.Ev.acquire.injEq, Part.results.injEq]
          change (0 < n ∧ n ≤ address.lists) ∨ n = address.lists + 1 ↔
            0 < n ∧ n ≤ address.lists + 1
          omega
      | resultsIter => simp [Address.Owns, Ref.lmSocketAddressSetResults]

theorem Address.Intact.getResultIter {address : Address} (h : address.Intact) :
    address.getResultIter.Intact := by
  have hsome : (lmSocketAddressGetResultIter address.sa).resultsIter ≠ none := by
    unfold lmSocketAddressGetResultIter
    cases address.sa.resultsIter <;> exact Option.some_ne_none _
  refine ⟨fun p hp => ?_, fun p => ?_, fun hr => ?_⟩
  · rcases List.mem_append.mp hp with hp | hp
    · exact h.unreleased p hp
    · split at hp
      · simp at hp
      · cases hp
  · unfold Address.getResultIter
    rw [List.mem_append, h.acquired p]
    cases p with
    | slice => simp [Address.Owns]
    | hostname => simp [Address.Owns]
    | results n => split <;> simp [Address.Owns]
    | resultsIter =>
        simp only [Address.Owns]
        by_cases hiter : address.sa.resultsIter = none
        · simp [hiter, hsome]
        · simp [hiter, hsome]
  · rw [Address.getResultIter, lmSocketAddressGetResultIter_results] at hr
    exact h.given hr

/-! ### The last reference -/

/-- What the last `lm_socket_address_unref` releases. -/
def Address.freed (address : Address) : List (Lifecycle.Ev Part) :=
  [.release .hostname] ++ (address.freeResults ++ [.release .slice])

theorem Address.unref_last {address : Address} (h : address.refCount = 1) :
    address.unref = { address with refCount := 0, log := address.log ++ address.freed } := by
  unfold Address.unref
  have hmod : (address.refCount + (2 ^ 32 - 1)) % 2 ^ 32 = 0 := by omega
  simp only [hmod]
  rw [if_pos trivial, List.append_assoc, List.append_assoc]
  rfl

theorem Address.unref_more {address : Address} (h : 1 < address.refCount)
    (hlt : address.refCount < 2 ^ 32) :
    address.unref = { address with refCount := address.refCount - 1 } := by
  unfold Address.unref
  have hmod : (address.refCount + (2 ^ 32 - 1)) % 2 ^ 32 = address.refCount - 1 := by omega
  simp only [hmod]
  rw [if_neg (by omega)]

theorem Address.acquire_not_freed (address : Address) (p : Part) :
    .acquire p ∉ address.freed := by
  unfold Address.freed Address.freeResults
  split <;> simp

theorem Address.Intact.count_release {address : Address} (h : address.Intact) (p : Part) :
    (address.log ++ address.freed).count (.release p) = address.freed.count (.release p) := by
  rw [List.count_append, List.count_eq_zero_of_not_mem (h.unreleased p), Nat.zero_add]

/-- What is released is the host name, the struct and the current list. -/
theorem Address.count_freed (address : Address) (p : Part) :
    address.freed.count (.release p) =
      match p with
      | .slice => 1
      | .hostname => 1
      | .results n => if address.sa.results ≠ [] ∧ n = address.lists then 1 else 0
      | .resultsIter => 0 := by
  unfold Address.freed Address.freeResults
  by_cases hres : address.sa.results = []
  · cases p <;> simp [hres]
  · cases p with
    | slice => simp [hres]
    | hostname => simp [hres]
    | results n => by_cases hn : n = address.lists <;> simp [hres, hn, eq_comm]
    | resultsIter => simp [hres]

theorem Address.Intact.releasedOnce_unref {address : Address} (h : address.Intact)
    (hone : address.refCount = 1) : address.unref.ReleasedOnce ↔ address.Clean := by
  have honce : address.unref.ReleasedOnce ↔
      ∀ p, address.Owns p → address.freed.count (.release p) = 1 := by
    rw [Address.unref_last hone]
    refine forall_congr' fun p => ?_
    rw [h.count_release, List.mem_append, h.acquired]
    simp [address.acquire_not_freed p]
  rw [honce]
  constructor
  · intro hp
    refine ⟨?_, ?_, ?_⟩
    · by_contra hiter
      have hcount := hp .resultsIter hiter
      rw [Address.count_freed] at hcount
      cases hcount
    · by_contra hlists
      have hcount := hp (.results 1) ⟨Nat.one_pos, by omega⟩
      rw [Address.count_freed] at hcount
      simp only [] at hcount
      rw [if_neg fun hc => hlists (Nat.le_of_eq hc.2.symm)] at hcount
      cases hcount
    · intro hlists hres
      have hcount := hp (.results 1) ⟨Nat.one_pos, Nat.le_of_eq hlists.symm⟩
      rw [Address.count_freed] at hcount
      simp only [] at hcount
      rw [if_neg fun hc => hc.1 hres] at hcount
      cases hcount
  · intro hclean p hp
    rw [Address.count_freed]
    cases p with
    | slice => rfl
    | hostname => rfl
    | results n =>
        have hn : n = 1 ∧ address.lists = 1 := by
          have hle := hclean.2.1
          obtain ⟨hpos, hn⟩ := hp
          omega
        exact if_pos ⟨hclean.2.2 hn.2, hn.1.trans hn.2.symm⟩
    | resultsIter => exact absurd hclean.1 hp

/-! ## The invariant -/

/-- Numbers that have not been given out are held by nobody. -/
structure Good (w : World) : Prop where
  counted : ∀ (a : Nat) (address : Address), w.addresses[a]? = some address →
    address.refCount = w.holders a
  released : ∀ (a : Nat) (address : Address), w.addresses[a]? = some address →
    address.refCount = 0 → address.ReleasedOnce
  intact : ∀ (a : Nat) (address : Address), w.addresses[a]? = some address →
    address.refCount ≠ 0 → address.Intact
  bounded : ∀ (a : Nat) (address : Address), w.addresses[a]? = some address →
    address.refCount < 2 ^ 32
  fresh : ∀ a, w.addresses.length ≤ a → w.holders a = 0

theorem Good.owned {w : World} (h : Good w) : Owned w := ⟨h.counted, h.released⟩

theorem good_start : Good {} where
  counted := fun _ _ h => by cases h
  released := fun _ _ h => by cases h
  intact := fun _ _ h => by cases h
  bounded := fun _ _ h => by cases h
  fresh := fun _ _ => rfl

/-- An address somebody holds has not been freed. -/
theorem Good.address {w : World} (h : Good w) {a : Nat} (ha : 0 < w.holders a) :
    ∃ address, w.addresses[a]? = some address ∧ address.refCount = w.holders a ∧
      address.Intact ∧ address.refCount < 2 ^ 32 := by
  have hlt : a < w.addresses.length := by
    by_contra hge
    have hzero := h.fresh a (Nat.le_of_not_lt hge)
    omega
  refine ⟨w.addresses[a], List.getElem?_eq_getElem hlt, ?_⟩
  have hget : w.addresses[a]? = some w.addresses[a] := List.getElem?_eq_getElem hlt
  have hcount := h.counted a _ hget
  exact ⟨hcount, h.intact a _ hget (by omega), h.bounded a _ hget⟩

theorem Good.congr {w w' : World} (h : Good w) (hadd : w'.addresses = w.addresses)
    (hholders : ∀ i, w'.holders i = w.holders i) : Good w' where
  counted := fun a address ha => by
    rw [hholders]
    exact h.counted a address (hadd ▸ ha)
  released := fun a address ha => h.released a address (hadd ▸ ha)
  intact := fun a address ha => h.intact a address (hadd ▸ ha)
  bounded := fun a address ha => h.bounded a address (hadd ▸ ha)
  fresh := fun a ha => by
    rw [hholders]
    exact h.fresh a (hadd ▸ ha)

theorem modify_cases {l : List Address} {a i : Nat} {f : Address → Address} {changed : Address}
    (h : (l.modify a f)[i]? = some changed) :
    ∃ address, l[i]? = some address ∧
      ((i = a ∧ changed = f address) ∨ (i ≠ a ∧ changed = address)) := by
  rw [List.getElem?_modify, Option.map_eq_map, Option.map_eq_some_iff] at h
  obtain ⟨address, haddress, hf⟩ := h
  refine ⟨address, haddress, ?_⟩
  by_cases hi : a = i
  · rw [if_pos hi] at hf
    exact Or.inl ⟨hi.symm, hf.symm⟩
  · rw [if_neg hi] at hf
    exact Or.inr ⟨Ne.symm hi, hf.symm⟩

/-! ### One call -/

section Move

variable {w w' : World} {a : Nat} {f : Address → Address} {address : Address}

/-- A call that changes one address and only its holders: all that matters is
whether the count is right there, and what is left when it is zero. -/
theorem Good.owned_iff (h : Good w) (ha : w.addresses[a]? = some address)
    (hadd : w'.addresses = w.addresses.modify a f)
    (hother : ∀ i, i ≠ a → w'.holders i = w.holders i) :
    Owned w' ↔ (f address).refCount = w'.holders a ∧
      ((f address).refCount = 0 → (f address).ReleasedOnce) := by
  have hget : w'.addresses[a]? = some (f address) := by
    rw [hadd, List.getElem?_modify_eq, ha]
    rfl
  constructor
  · intro howned
    exact ⟨howned.counted a _ hget, howned.released a _ hget⟩
  · intro hf
    refine ⟨fun i changed hi => ?_, fun i changed hi => ?_⟩
    · rw [hadd] at hi
      obtain ⟨old, hold, ⟨rfl, rfl⟩ | ⟨hne, rfl⟩⟩ := modify_cases hi
      · rw [ha, Option.some.injEq] at hold
        exact hold ▸ hf.1
      · rw [hother i hne]
        exact h.counted i changed hold
    · rw [hadd] at hi
      obtain ⟨old, hold, ⟨rfl, rfl⟩ | ⟨hne, rfl⟩⟩ := modify_cases hi
      · rw [ha, Option.some.injEq] at hold
        exact hold ▸ hf.2
      · exact h.released i changed hold

theorem Good.move (h : Good w) (ha : w.addresses[a]? = some address)
    (hadd : w'.addresses = w.addresses.modify a f)
    (hother : ∀ i, i ≠ a → w'.holders i = w.holders i) (howned : Owned w')
    (hintact : (f address).refCount ≠ 0 → (f address).Intact)
    (hbounded : (f address).refCount < 2 ^ 32) : Good w' := by
  have hlt : a < w.addresses.length := (List.getElem?_eq_some_iff.mp ha).1
  refine ⟨howned.counted, howned.released, fun i changed hi => ?_, fun i changed hi => ?_,
    fun i hi => ?_⟩
  · rw [hadd] at hi
    obtain ⟨old, hold, ⟨rfl, rfl⟩ | ⟨_, rfl⟩⟩ := modify_cases hi
    · rw [ha, Option.some.injEq] at hold
      exact hold ▸ hintact
    · exact h.intact i changed hold
  · rw [hadd] at hi
    obtain ⟨old, hold, ⟨rfl, rfl⟩ | ⟨_, rfl⟩⟩ := modify_cases hi
    · rw [ha, Option.some.injEq] at hold
      exact hold ▸ hbounded
    · exact h.bounded i changed hold
  · rw [hadd, List.length_modify] at hi
    rw [hother i (by omega)]
    exact h.fresh i hi

/-- A call that leaves the counts alone. -/
theorem Good.quiet (h : Good w) (ha : 0 < w.holders a)
    (hadd : w'.addresses = w.addresses.modify a f) (hholders : ∀ i, w'.holders i = w.holders i)
    (hcount : ∀ address, (f address).refCount = address.refCount)
    (hintact : ∀ {address : Address}, address.Intact → (f address).Intact) : Good w' := by
  obtain ⟨address, haddress, hrefs, hold, hlt⟩ := h.address ha
  have howned : Owned w' := by
    rw [h.owned_iff haddress hadd fun i _ => hholders i, hcount, hholders]
    exact ⟨hrefs, fun hzero => by omega⟩
  exact h.move haddress hadd (fun i _ => hholders i) howned (fun _ => hintact hold)
    (by rw [hcount]; exact hlt)

end Move

section Moves

variable {w w' : World} {v : Option Nat}

theorem one_other {a i : Nat} (h : i ≠ a) : one (some a) i = 0 := one_of_ne (Ne.symm h)

/-- Somebody new holds an address, with a reference. -/
theorem Good.retain (h : Good w) (hvalid : w.Valid v)
    (hadd : w'.addresses = (refIfSet v w).addresses)
    (hholders : ∀ i, w'.holders i = w.holders i + one v i) :
    (Owned w' ↔ w.Room v) ∧ (w.Room v → Good w') := by
  cases v with
  | none =>
      have hgood : Good w' := h.congr hadd hholders
      exact ⟨iff_of_true hgood.owned (fun a ha => by cases ha), fun _ => hgood⟩
  | some a =>
      obtain ⟨address, haddress, hrefs, hintact, hlt⟩ := h.address (hvalid a rfl)
      have hother : ∀ i, i ≠ a → w'.holders i = w.holders i := fun i hi => by
        rw [hholders, one_other hi, Nat.add_zero]
      have ha : w'.holders a = w.holders a + 1 := by rw [hholders, one_self]
      have hroom : w.Room (some a) ↔ w.holders a + 1 < 2 ^ 32 := by simp [World.Room]
      have howned : Owned w' ↔ w.Room (some a) := by
        rw [h.owned_iff haddress hadd hother, ha, hroom]
        change (address.refCount + 1) % 2 ^ 32 = _ ∧ ((address.refCount + 1) % 2 ^ 32 = 0 → _) ↔ _
        constructor
        · intro hcount
          omega
        · intro hlt
          exact ⟨by omega, fun hzero => by omega⟩
      refine ⟨howned, fun hr => ?_⟩
      refine h.move haddress hadd hother (howned.mpr hr) (fun _ => hintact.recount _) ?_
      exact Nat.mod_lt _ (by decide)

/-- A holder of an address goes, and drops its reference. -/
theorem Good.drop (h : Good w) (hvalid : w.Valid v)
    (hadd : w'.addresses = (unrefIfSet v w).addresses)
    (hholders : ∀ i, w'.holders i + one v i = w.holders i) :
    (Owned w' ↔ w.LastClean 1 v) ∧ (w.LastClean 1 v → Good w') := by
  cases v with
  | none =>
      have hgood : Good w' := h.congr hadd hholders
      exact ⟨iff_of_true hgood.owned (fun a ha => by cases ha), fun _ => hgood⟩
  | some a =>
      obtain ⟨address, haddress, hrefs, hintact, hlt⟩ := h.address (hvalid a rfl)
      have hother : ∀ i, i ≠ a → w'.holders i = w.holders i := fun i hi => by
        rw [← hholders, one_other hi, Nat.add_zero]
      have ha : w'.holders a + 1 = w.holders a := by rw [← hholders, one_self]
      have hlast : w.LastClean 1 (some a) ↔ (w.holders a = 1 → address.Clean) := by
        simp [World.LastClean, haddress]
      by_cases hone : w.holders a = 1
      · have hcount : address.refCount = 1 := hrefs.trans hone
        have hzero : address.unref.refCount = 0 := by rw [Address.unref_last hcount]
        have howned : Owned w' ↔ w.LastClean 1 (some a) := by
          rw [h.owned_iff haddress hadd hother, hlast, hintact.releasedOnce_unref hcount, hzero]
          constructor
          · exact fun hclean _ => hclean.2 rfl
          · exact fun hclean => ⟨by omega, fun _ => hclean hone⟩
        refine ⟨howned, fun hr => ?_⟩
        refine h.move haddress hadd hother (howned.mpr hr) (fun hne => absurd hzero hne) ?_
        rw [hzero]
        decide
      · have hmore : address.unref = { address with refCount := address.refCount - 1 } :=
          Address.unref_more (by omega) hlt
        have howned : Owned w' := by
          rw [h.owned_iff haddress hadd hother, hmore]
          exact ⟨by simp only []; omega, fun hz => by simp only [] at hz; omega⟩
        have hkept : address.unref.Intact := by
          rw [hmore]
          exact hintact.recount _
        refine ⟨iff_of_true howned (hlast.mpr fun he => absurd he hone), fun _ => ?_⟩
        refine h.move haddress hadd hother howned (fun _ => hkept) ?_
        rw [hmore]
        simp only []
        omega

end Moves

/-! ### What a call does to the holders -/

@[simp] theorem refIfSet_holders (v : Option Nat) (w : World) (i : Nat) :
    (refIfSet v w).holders i = w.holders i := by
  cases v <;> rfl

@[simp] theorem unrefIfSet_holders (v : Option Nat) (w : World) (i : Nat) :
    (unrefIfSet v w).holders i = w.holders i := by
  cases v <;> rfl

@[simp] theorem refIfSet_resolvers (v : Option Nat) (w : World) :
    (refIfSet v w).resolvers = w.resolvers := by
  cases v <;> rfl

@[simp] theorem unrefIfSet_resolvers (v : Option Nat) (w : World) :
    (unrefIfSet v w).resolvers = w.resolvers := by
  cases v <;> rfl

@[simp] theorem refIfSet_sockets (v : Option Nat) (w : World) :
    (refIfSet v w).sockets = w.sockets := by
  cases v <;> rfl

@[simp] theorem unrefIfSet_sockets (v : Option Nat) (w : World) :
    (unrefIfSet v w).sockets = w.sockets := by
  cases v <;> rfl

@[simp] theorem refIfSet_refs (v : Option Nat) (w : World) : (refIfSet v w).refs = w.refs := by
  cases v <;> rfl

@[simp] theorem unrefIfSet_refs (v : Option Nat) (w : World) :
    (unrefIfSet v w).refs = w.refs := by
  cases v <;> rfl

theorem holders_refs (w' : World) {w : World} {a : Nat} (hrefs : w'.refs = w.refs ++ [a])
    (hsockets : w'.sockets = w.sockets) (hresolvers : w'.resolvers = w.resolvers) (i : Nat) :
    w'.holders i = w.holders i + one (some a) i := by
  unfold World.holders
  rw [hrefs, hsockets, hresolvers, pointers_concat]
  omega

theorem holders_erase (w' : World) {w : World} {a : Nat} (ha : a ∈ w.refs)
    (hrefs : w'.refs = w.refs.erase a) (hsockets : w'.sockets = w.sockets)
    (hresolvers : w'.resolvers = w.resolvers) (i : Nat) :
    w'.holders i + one (some a) i = w.holders i := by
  have herase := pointers_erase (f := some) ha i
  unfold World.holders
  rw [hrefs, hsockets, hresolvers]
  omega

theorem holders_socket (w' : World) (g : LmSocket → LmSocket) {w : World} {k : Nat}
    {priv : LmSocket} (hk : w.sockets[k]? = some priv)
    (hsockets : w'.sockets = w.sockets.modify k g) (hrefs : w'.refs = w.refs)
    (hresolvers : w'.resolvers = w.resolvers) (i : Nat) :
    w'.holders i + one priv.held i = w.holders i + one (g priv).held i := by
  have hmod := pointers_modify (f := LmSocket.held) (g := g) hk i
  unfold World.holders
  rw [hrefs, hsockets, hresolvers]
  omega

theorem holders_resolver (w' : World) (g : LmResolver → LmResolver) {w : World} {r : Nat}
    {priv : LmResolver} (hr : w.resolvers[r]? = some priv)
    (hresolvers : w'.resolvers = w.resolvers.modify r g) (hrefs : w'.refs = w.refs)
    (hsockets : w'.sockets = w.sockets) (i : Nat) :
    w'.holders i + (one priv.argument i + one priv.held i) =
      w.holders i + (one (g priv).argument i + one (g priv).held i) := by
  have harg := pointers_modify (f := LmResolver.argument) (g := g) hr i
  have hheld := pointers_modify (f := LmResolver.held) (g := g) hr i
  unfold World.holders
  rw [hrefs, hsockets, hresolvers]
  omega

theorem valid_of_socket {w : World} {k : Nat} {priv : LmSocket}
    (hk : w.sockets[k]? = some priv) : w.Valid priv.held := by
  intro a ha
  have hle := one_le_pointers (f := LmSocket.held) hk a
  rw [Option.mem_def.mp ha, one_self] at hle
  unfold World.holders
  omega

/-- The argument of the signal and the resolver's own are two references. -/
theorem holders_of_resolver {w : World} {r : Nat} {priv : LmResolver}
    (hr : w.resolvers[r]? = some priv) (a : Nat) :
    one priv.argument a + one priv.held a ≤ w.holders a := by
  have harg := one_le_pointers (f := LmResolver.argument) hr a
  have hheld := one_le_pointers (f := LmResolver.held) hr a
  unfold World.holders
  omega

theorem valid_of_resolver {w : World} {r : Nat} {priv : LmResolver}
    (hr : w.resolvers[r]? = some priv) : w.Valid priv.held := by
  intro a ha
  have hle := holders_of_resolver hr a
  rw [Option.mem_def.mp ha, one_self] at hle
  omega

theorem room_congr {w w' : World} (hholders : ∀ i, w'.holders i = w.holders i)
    (v : Option Nat) : w'.Room v ↔ w.Room v := by
  simp only [World.Room, hholders]

end LmTransport.Ref.Owners
