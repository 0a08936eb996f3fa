import LmTransport.Ref.AddrinfoNodes
import Mathlib.Algebra.Group.Nat.Defs

/-!
# Setting and iterating results

The loop of `lm_socket_address_set_results` writes two bytes of every socket
address and no node, so the links it follows stay what they were, and it comes
to the end of every list that has one. Nodes that share a socket address have
the same port written to it twice.

An iterator that was just asked for, or reset, stands at the results whatever it
was doing before, and each call takes it one link further. The theorems at the
end compare this with the lists of results used elsewhere.
-/

namespace LmTransport.Ref.Nodes

open LinkedList

/-! ## The properties -/

/-- `AF_INET` with a `sockaddr_in`, or `AF_INET6` with a `sockaddr_in6`. -/
def Heap.IsIp (heap : Heap) (addr : Nat) : Prop :=
  let node := heap.node addr
  let length := (heap.block node.aiAddr).length
  node.aiAddrlen = length ∧ (node.aiFamily = 2 ∧ length = 16 ∨ node.aiFamily = 10 ∧ length = 28)

/-- The port is there in network byte order, modulo `2 ^ 16`, and nothing else
is different. In both kinds of socket address it is behind the family. -/
structure PortSet (port : Nat) (old new : List UInt8) : Prop where
  length : new.length = old.length
  port : ∃ high low, new[2]? = some high ∧ new[3]? = some low ∧
    high.toNat * 256 + low.toNat = port % 2 ^ 16
  others : ∀ i, i ≠ 2 → i ≠ 3 → new[i]? = old[i]?

/-- What call number `n`, counted from zero, returns. -/
def getNextAfter (heap : Heap) : Nat → LmSocketAddressIter → Option Nat
  | 0, iter => (lmSocketAddressIterGetNext heap iter).1
  | n + 1, iter => getNextAfter heap n (lmSocketAddressIterGetNext heap iter).2

/-- The calls return these nodes in order, and from then on `NULL`. -/
def Iterates (heap : Heap) (iter : LmSocketAddressIter) (ps : List Nat) : Prop :=
  ∀ n, getNextAfter heap n iter = ps[n]?

/-! ## The port -/

theorem htons_toNat (port : Nat) :
    (htons port).1.toNat * 256 + (htons port).2.toNat = port % 2 ^ 16 := by
  have hhigh : (htons port).1.toNat = port / 256 % 256 := by
    simp [htons]
  have hlow : (htons port).2.toNat = port % 256 := by
    simp [htons]
  rw [hhigh, hlow]
  omega

theorem portSet_setSinPort {old : List UInt8} (h : 4 ≤ old.length) (port : Nat) :
    PortSet port old (setSinPort old port) where
  length := by rw [setSinPort, List.length_set, List.length_set]
  port := by
    refine ⟨(htons port).1, (htons port).2, ?_, ?_, htons_toNat port⟩
    · rw [setSinPort, List.getElem?_set_ne (by decide), List.getElem?_set_self (by omega)]
    · rw [setSinPort, List.getElem?_set_self (by rw [List.length_set]; omega)]
  others := by
    intro i h2 h3
    rw [setSinPort, List.getElem?_set_ne (Ne.symm h3), List.getElem?_set_ne (Ne.symm h2)]

/-- Writing the same port again changes nothing. -/
theorem setSinPort_twice (block : List UInt8) (port : Nat) :
    setSinPort (setSinPort block port) port = setSinPort block port := by
  unfold setSinPort
  rw [List.set_comm _ _ (show (3 : Nat) ≠ 2 by decide), List.set_set, List.set_set]

/-! ## The loop -/

@[simp] theorem setPort_node (port addr : Nat) (heap : Heap) :
    (setPort port addr heap).node = heap.node := rfl

theorem setPort_next (port addr : Nat) (heap : Heap) :
    (setPort port addr heap).next = heap.next := rfl

/-- The heap after the loop. -/
def setPorts (port : Nat) (ps : List Nat) (heap : Heap) : Heap :=
  ps.foldl (fun heap addr => setPort port addr heap) heap

theorem setPorts_node (port : Nat) (ps : List Nat) (heap : Heap) :
    (setPorts port ps heap).node = heap.node := by
  induction ps generalizing heap with
  | nil => rfl
  | cons p ps ih => exact ih (setPort port p heap)

/-- A block that belongs to a node of the list has the port, the others are as
they were. -/
theorem setPorts_block (port : Nat) (ps : List Nat) (heap : Heap) (b : Nat) :
    (setPorts port ps heap).block b =
      if ∃ p ∈ ps, (heap.node p).aiAddr = b then setSinPort (heap.block b) port
      else heap.block b := by
  induction ps generalizing heap with
  | nil => simp [setPorts]
  | cons p ps ih =>
      have hstep : (setPorts port (p :: ps) heap).block b =
          (setPorts port ps (setPort port p heap)).block b := rfl
      rw [hstep, ih (setPort port p heap), setPort_node]
      by_cases hp : (heap.node p).aiAddr = b
      · have hblock : (setPort port p heap).block b = setSinPort (heap.block b) port := by
          subst hp
          exact Function.update_self ..
        rw [hblock, setSinPort_twice, ite_self, if_pos ⟨p, List.mem_cons_self, hp⟩]
      · have hblock : (setPort port p heap).block b = heap.block b :=
          Function.update_of_ne (Ne.symm hp) ..
        rw [hblock]
        simp [hp]

theorem setResults_eq {heap : Heap} {ai : Option Nat} {ps : List Nat}
    (h : Chain heap.next ai ps) (sa : LmSocketAddress) {fuel : Nat} (hfuel : ps.length ≤ fuel) :
    lmSocketAddressSetResults fuel ai sa heap =
      some ({ sa with results := ai }, setPorts sa.port ps heap) := by
  rw [lmSocketAddressSetResults, walk_chain (setPort_next sa.port) h hfuel]
  rfl

/-! ## The iterator -/

theorem getNext_current (heap : Heap) (iter : LmSocketAddressIter) :
    (lmSocketAddressIterGetNext heap iter).1 = iter.current ∧
      (lmSocketAddressIterGetNext heap iter).2.current = iter.current.bind heap.next := by
  unfold lmSocketAddressIterGetNext
  cases hcurrent : iter.current with
  | none => exact ⟨rfl, hcurrent⟩
  | some current => exact ⟨rfl, rfl⟩

theorem getNextAfter_eq (heap : Heap) (n : Nat) (iter : LmSocketAddressIter) :
    getNextAfter heap n iter = follow heap.next n iter.current := by
  induction n generalizing iter with
  | zero => exact (getNext_current heap iter).1
  | succ n ih => rw [getNextAfter, ih, (getNext_current heap iter).2, follow]

/-- An iterator at the first node of a list gives the list. -/
theorem iterates_of_chain {heap : Heap} {iter : LmSocketAddressIter} {ps : List Nat}
    (h : Chain heap.next iter.current ps) : Iterates heap iter ps := fun n => by
  rw [getNextAfter_eq, h.follow_eq]

theorem getResultIter_current (sa : LmSocketAddress) :
    (lmSocketAddressGetResultIter sa).1.current = sa.results := by
  unfold lmSocketAddressGetResultIter
  cases sa.resultsIter with
  | none => rfl
  | some iter => rfl

/-! ## Both together -/

/-- Results are set on any list that has an end, in as many rounds as there are
nodes. After that the address is resolved if there was a node at all, an
iterator gives the nodes of the list in order and then `NULL`, wherever it was
before, and the port of the address is all that is new. -/
theorem results_iterate {heap : Heap} {ai : Option Nat} {ps : List Nat}
    (hlist : Chain heap.next ai ps) (hip : ∀ p ∈ ps, heap.IsIp p) (sa : LmSocketAddress) :
    ∃ sa' heap',
      (∀ fuel, ps.length ≤ fuel →
        lmSocketAddressSetResults fuel ai sa heap = some (sa', heap')) ∧
      (lmSocketAddressIsResolved sa' = true ↔ ps ≠ []) ∧
      (∀ position, Iterates heap'
        (lmSocketAddressGetResultIter { sa' with resultsIter := position }).1 ps) ∧
      (∀ position, Iterates heap' (lmSocketAddressIterReset sa' position) ps) ∧
      heap'.node = heap.node ∧
      (∀ p ∈ ps, PortSet sa.port (heap.block (heap.node p).aiAddr)
        (heap'.block (heap.node p).aiAddr)) ∧
      ∀ b, (∀ p ∈ ps, (heap.node p).aiAddr ≠ b) → heap'.block b = heap.block b := by
  have hnode := setPorts_node sa.port ps heap
  have hlist' : Chain (setPorts sa.port ps heap).next ai ps := by
    unfold Heap.next
    rw [hnode]
    exact hlist
  refine ⟨_, _, fun fuel hfuel => setResults_eq hlist sa hfuel, hlist.isSome_iff,
    fun position => iterates_of_chain ?_, fun position => iterates_of_chain hlist', hnode,
    fun p hp => ?_, fun b hb => ?_⟩
  · rw [getResultIter_current]
    exact hlist'
  · rw [setPorts_block, if_pos ⟨p, hp, rfl⟩]
    have hlength : 4 ≤ (heap.block (heap.node p).aiAddr).length := by
      rcases (hip p hp).2 with ⟨-, h16⟩ | ⟨-, h28⟩
      · omega
      · omega
    exact portSet_setSinPort hlength sa.port
  · rw [setPorts_block, if_neg]
    rintro ⟨p, hp, hpb⟩
    exact hb p hp hpb

/-- One node of each kind, asked for port `0x10050`. -/
theorem results_iterate_ipv4_ipv6 :
    ∃ (heap : Heap) (ps : List Nat), ps = [7, 3] ∧
      ∃ sa' heap', lmSocketAddressSetResults 2 (some 7) ⟨"h", 0x10050, none, none⟩ heap =
          some (sa', heap') ∧
        lmSocketAddressIsResolved sa' = true ∧
        ∀ position, Iterates heap' (lmSocketAddressIterReset sa' position) ps := by
  let heap : Heap :=
    { node := fun p => if p = 7 then ⟨0, 2, 1, 6, 16, 0, none, some 3⟩
        else ⟨0, 10, 1, 6, 28, 1, none, none⟩
      block := fun b => if b = 0 then List.replicate 16 0 else List.replicate 28 0 }
  have hlist : Chain heap.next (some 7) [7, 3] := .cons (.cons .nil)
  have hip : ∀ p ∈ [7, 3], heap.IsIp p := by
    intro p hp
    rcases List.mem_cons.mp hp with rfl | hp
    · exact ⟨rfl, .inl ⟨rfl, rfl⟩⟩
    · rw [List.mem_singleton.mp hp]
      exact ⟨rfl, .inr ⟨rfl, rfl⟩⟩
  obtain ⟨sa', heap', hset, hresolved, -, hreset, -⟩ :=
    results_iterate hlist hip ⟨"h", 0x10050, none, none⟩
  exact ⟨heap, [7, 3], rfl, sa', heap', hset 2 (by decide), hresolved.mpr (by decide), hreset⟩

/-! ## The lists of results -/

/-- A node without its link, with the socket address it points to. -/
def Heap.addrInfo (heap : Heap) (addr : Nat) : AddrInfo :=
  let node := heap.node addr
  { aiFlags := node.aiFlags
    aiFamily := node.aiFamily
    aiSocktype := node.aiSocktype
    aiProtocol := node.aiProtocol
    aiAddr := heap.block node.aiAddr
    aiCanonname := node.aiCanonname }

/-- The nodes an address points to are the results of the other one. Its
iterator is compared where it is used. -/
structure Represents (heap : Heap) (sa : LmSocketAddress) (list : Ref.LmSocketAddress) :
    Prop where
  hostname : sa.hostname = list.hostname
  port : sa.port = list.port
  results : ∃ ps, Chain heap.next sa.results ps ∧ list.results = ps.map heap.addrInfo

theorem Represents.isResolved {heap : Heap} {sa : LmSocketAddress} {list : Ref.LmSocketAddress}
    (h : Represents heap sa list) :
    lmSocketAddressIsResolved sa = Ref.lmSocketAddressIsResolved list := by
  obtain ⟨ps, hlist, hresults⟩ := h.results
  rw [Bool.eq_iff_iff, lmSocketAddressIsResolved, hlist.isSome_iff,
    Ref.lmSocketAddressIsResolved, hresults]
  cases ps with
  | nil => simp
  | cons p ps => simp

/-- Setting the results of the list gives every node's socket address the port,
and so does the loop over the nodes. -/
theorem Represents.setResults {heap : Heap} {sa : LmSocketAddress} {list : Ref.LmSocketAddress}
    (h : Represents heap sa list) {ai : Option Nat} {ps : List Nat}
    (hlist : Chain heap.next ai ps) :
    ∃ sa' heap', lmSocketAddressSetResults ps.length ai sa heap = some (sa', heap') ∧
      Represents heap' sa'
        (Ref.lmSocketAddressSetResults list (ps.map heap.addrInfo)) := by
  have hnode := setPorts_node sa.port ps heap
  refine ⟨_, _, setResults_eq hlist sa (Nat.le_refl _), h.hostname, h.port, ps, ?_, ?_⟩
  · unfold Heap.next
    rw [hnode]
    exact hlist
  · rw [Ref.lmSocketAddressSetResults, List.map_map]
    refine List.map_congr_left fun p hp => ?_
    have hblock : (setPorts sa.port ps heap).block (heap.node p).aiAddr =
        setSinPort (heap.block (heap.node p).aiAddr) sa.port := by
      rw [setPorts_block, if_pos ⟨p, hp, rfl⟩]
    rw [h.port] at hnode hblock
    simp only [Heap.addrInfo, Function.comp, h.port, hnode, hblock]

/-- The next node of the list is the next one of the nodes. -/
theorem getNext_addrInfo {heap : Heap} {iter : LmSocketAddressIter} {ps : List Nat}
    (h : Chain heap.next iter.current ps) :
    ∃ rest, Chain heap.next (lmSocketAddressIterGetNext heap iter).2.current rest ∧
      Ref.lmSocketAddressIterGetNext ⟨ps.map heap.addrInfo⟩ =
        ((lmSocketAddressIterGetNext heap iter).1.map heap.addrInfo,
          ⟨rest.map heap.addrInfo⟩) := by
  obtain ⟨current⟩ := iter
  cases h with
  | nil => exact ⟨[], .nil, rfl⟩
  | @cons p ps rest => exact ⟨ps, rest, rfl⟩

end LmTransport.Ref.Nodes
