import LmTransport.Proofs.SrvChoice
import LmTransport.Ref.SrvDone

/-!
# What a finished service lookup frees

Nobody frees the answer. `asyncns_resolver_srv_done` lets go of its only
pointer to it on every path, so one that was handed over is lost, whatever its
length and contents; the function is tidy only if it was given nothing to free.
The copy of the server name is freed when there is one. When there is none,
because the answer did not parse, the variable for it is freed all the same,
and nothing was ever stored in it.
-/

namespace LmTransport.Ref

/-- What happened to the buffers themselves. -/
def owned (evs : List MemEvent) : List (Lifecycle.Ev SrvBuffer) :=
  evs.filterMap fun
    | .own e => some e
    | .freeWild => none

/-- Every buffer that was received is freed exactly once and not used without
being owned, and nothing is freed through a variable that was never set. -/
structure ReleasesExactly (evs : List MemEvent) : Prop where
  initialised : MemEvent.freeWild ∉ evs
  sound : Lifecycle.Sound ∅ (owned evs)
  released : ∀ b, (owned evs).count (.release b) = (owned evs).count (.acquire b)

instance (evs : List MemEvent) : Decidable (ReleasesExactly evs) :=
  decidable_of_iff
    (MemEvent.freeWild ∉ evs ∧ Lifecycle.Sound ∅ (owned evs) ∧
      ∀ b ∈ [SrvBuffer.answer, .server],
        (owned evs).count (.release b) = (owned evs).count (.acquire b))
    ⟨fun h => ⟨h.1, h.2.1, fun b => h.2.2 b (by cases b <;> simp)⟩,
      fun h => ⟨h.initialised, h.sound, fun b _ => h.released b⟩⟩

/-- The query is answered, the worker was not found dead before, and the name
server's answer is there. -/
def Asyncns.Delivered (asyncns : Asyncns) : Prop :=
  asyncns.dead = false ∧ ∃ q, asyncns.query = some q ∧ q.done = true ∧ 0 ≤ q.ret

namespace AsyncnsResolver

section
variable {dnExpand : DnExpand} {name : List UInt8} {k : ResolverCaller} {asyncns : Asyncns}
  {w : World}

/-- The buffers do not change what the function does otherwise. -/
theorem asyncnsResolverSrvDoneMem_world (dnExpand : DnExpand) (name : List UInt8)
    (k : ResolverCaller) (asyncns : Asyncns) (w : World) :
    (asyncnsResolverSrvDoneMem dnExpand name k asyncns w).1 =
      asyncnsResolverSrvDone dnExpand name k asyncns w := by
  unfold asyncnsResolverSrvDoneMem asyncnsResolverSrvDone
  obtain ⟨srvLen, srvAns, rest⟩ := asyncnsResDone asyncns
  dsimp only
  split
  · rfl
  · cases lmResolverParseSrvResponse dnExpand srvAns srvLen name with
    | none => rfl
    | some found => rfl

/-- What happens to the buffers, by the three ways through the function. -/
theorem asyncnsResolverSrvDoneMem_events (dnExpand : DnExpand) (name : List UInt8)
    (k : ResolverCaller) (asyncns : Asyncns) (w : World) :
    (asyncnsResolverSrvDoneMem dnExpand name k asyncns w).2 =
      (asyncnsResDoneAnswer asyncns).received ++
        if (asyncnsResDone asyncns).1 ≤ 0 then []
        else
          (asyncnsResDoneAnswer asyncns).read ++
            if (lmResolverParseSrvResponse dnExpand (asyncnsResDone asyncns).2.1
                (asyncnsResDone asyncns).1 name).isSome then
              [.own (.acquire .server), .own (.use .server), .own (.release .server)]
            else [.freeWild] := by
  unfold asyncnsResolverSrvDoneMem
  obtain ⟨srvLen, srvAns, rest⟩ := asyncnsResDone asyncns
  dsimp only
  split
  · rw [List.append_nil]
  · cases lmResolverParseSrvResponse dnExpand srvAns srvLen name with
    | none => simp [parserServer, SrvPointer.received, gFree]
    | some found => simp [parserServer, SrvPointer.received, SrvPointer.read, gFree]

/-- An answer that was delivered is behind the pointer, with its length. -/
theorem asyncnsResDone_delivered (h : asyncns.Delivered) :
    asyncnsResDoneAnswer asyncns = .buffer .answer ∧
      ∃ q, asyncns.query = some q ∧ (asyncnsResDone asyncns).1 = q.ret ∧
        (asyncnsResDone asyncns).2.1 = q.serv := by
  obtain ⟨halive, q, hquery, hdone, hret⟩ := h
  have hnot : ¬ q.ret < 0 := by omega
  refine ⟨?_, q, hquery, ?_, ?_⟩
  · simp [asyncnsResDoneAnswer, halive, hquery, hdone, hnot]
  · simp [asyncnsResDone, halive, hquery, hdone, hnot]
  · simp [asyncnsResDone, halive, hquery, hdone]

/-- A query that is done without an answer has failed. -/
theorem ret_neg_of_undelivered (h : ¬ asyncns.Delivered) (halive : ¬ asyncns.dead = true)
    {q : AsyncnsQuery} (hquery : asyncns.query = some q) (hdone : q.done = true) :
    q.ret < 0 := by
  by_contra hret
  exact h ⟨by simpa using halive, q, hquery, hdone, by omega⟩

/-- Without an answer there is nothing to own or to look at. -/
theorem asyncnsResDoneAnswer_undelivered (h : ¬ asyncns.Delivered) :
    (asyncnsResDoneAnswer asyncns).received = [] ∧ (asyncnsResDoneAnswer asyncns).read = [] := by
  unfold asyncnsResDoneAnswer
  split
  · exact ⟨rfl, rfl⟩
  · next halive =>
      cases hquery : asyncns.query with
      | none => exact ⟨rfl, rfl⟩
      | some q =>
          dsimp only
          by_cases hdone : q.done = true
          · rw [if_pos hdone, if_pos (ret_neg_of_undelivered h halive hquery hdone)]
            exact ⟨rfl, rfl⟩
          · rw [if_neg hdone]
            exact ⟨rfl, rfl⟩

/-- The length says that there is none. -/
theorem asyncnsResDone_undelivered (herrno : ∀ q, asyncns.query = some q → 0 ≤ q.errno)
    (h : ¬ asyncns.Delivered) : (asyncnsResDone asyncns).1 ≤ 0 := by
  unfold asyncnsResDone
  split
  · exact (by decide : -echild ≤ 0)
  · next halive =>
      cases hquery : asyncns.query with
      | none => exact (by decide : -eagain ≤ 0)
      | some q =>
          have hq := herrno q hquery
          dsimp only
          split
          · next hdone =>
              rw [if_pos (ret_neg_of_undelivered h halive hquery hdone)]
              omega
          · exact (by decide : -eagain ≤ 0)

/-! ## Each buffer -/

/-- An answer that was delivered is owned and never freed. -/
theorem answer_kept (h : asyncns.Delivered) :
    (owned (asyncnsResolverSrvDoneMem dnExpand name k asyncns w).2).count (.acquire .answer) = 1 ∧
      (owned (asyncnsResolverSrvDoneMem dnExpand name k asyncns w).2).count
        (.release .answer) = 0 := by
  rw [asyncnsResolverSrvDoneMem_events, (asyncnsResDone_delivered h).1]
  split
  · decide
  · split
    · decide
    · decide

/-- The copy of the server name is freed as often as it is made. -/
theorem server_released :
    (owned (asyncnsResolverSrvDoneMem dnExpand name k asyncns w).2).count (.release .server) =
      (owned (asyncnsResolverSrvDoneMem dnExpand name k asyncns w).2).count
        (.acquire .server) := by
  rw [asyncnsResolverSrvDoneMem_events]
  by_cases h : asyncns.Delivered
  · rw [(asyncnsResDone_delivered h).1]
    split
    · rfl
    · split
      · rfl
      · rfl
  · obtain ⟨hreceived, hread⟩ := asyncnsResDoneAnswer_undelivered h
    rw [hreceived, hread]
    split
    · rfl
    · split
      · rfl
      · rfl

/-- A variable that was never set is freed exactly after an answer with
something in it that does not parse. -/
theorem freeWild_mem_iff (herrno : ∀ q, asyncns.query = some q → 0 ≤ q.errno) :
    .freeWild ∈ (asyncnsResolverSrvDoneMem dnExpand name k asyncns w).2 ↔
      asyncns.Delivered ∧ ∃ q, asyncns.query = some q ∧ 0 < q.ret ∧
        lmResolverParseSrvResponse dnExpand q.serv q.ret name = none := by
  rw [asyncnsResolverSrvDoneMem_events]
  by_cases h : asyncns.Delivered
  · obtain ⟨hanswer, q, hquery, hlen, hserv⟩ := asyncnsResDone_delivered h
    rw [hanswer, hlen, hserv]
    simp only [h, hquery, true_and, Option.some.injEq, exists_eq_left']
    split
    · next hle =>
        constructor
        · intro hmem
          cases hmem with
          | tail _ hmem => cases hmem
        · intro hpos
          omega
    · next hpos =>
        have hpos : 0 < q.ret := by omega
        cases hparse : lmResolverParseSrvResponse dnExpand q.serv q.ret name with
        | none => simp [SrvPointer.received, SrvPointer.read, hpos]
        | some found => simp [SrvPointer.received, SrvPointer.read]
  · rw [(asyncnsResDoneAnswer_undelivered h).1, if_pos (asyncnsResDone_undelivered herrno h)]
    simp [h]

/-! ## The function as a whole -/

/-- The function releases exactly what it received if and only if no answer was
delivered to it. The server string is released as it should be in any case,
and the variable for it is freed without ever being set exactly if the answer
that was delivered is not empty and does not parse. -/
theorem srv_done_releases_iff (dnExpand : DnExpand) (name : List UInt8) (k : ResolverCaller)
    (asyncns : Asyncns) (w : World) (herrno : ∀ q, asyncns.query = some q → 0 ≤ q.errno) :
    let events := (asyncnsResolverSrvDoneMem dnExpand name k asyncns w).2
    (ReleasesExactly events ↔ ¬ asyncns.Delivered) ∧
      (owned events).count (.release .server) = (owned events).count (.acquire .server) ∧
      (.freeWild ∈ events ↔ asyncns.Delivered ∧ ∃ q, asyncns.query = some q ∧ 0 < q.ret ∧
        lmResolverParseSrvResponse dnExpand q.serv q.ret name = none) := by
  refine ⟨⟨fun hexact h => ?_, fun h => ?_⟩, server_released, freeWild_mem_iff herrno⟩
  · obtain ⟨hacquired, hfreed⟩ := @answer_kept dnExpand name k asyncns w h
    have hsame := hexact.released .answer
    omega
  · rw [asyncnsResolverSrvDoneMem_events, (asyncnsResDoneAnswer_undelivered h).1,
      if_pos (asyncnsResDone_undelivered herrno h)]
    decide

end

/-- A query that timed out: nothing was delivered, and nothing is freed. -/
theorem srv_done_releases_nothing :
    ReleasesExactly (asyncnsResolverSrvDoneMem dnExpandOf [] (.source 0)
      { fd := 7, query := some { done := true, ret := -1, errno := 110 } } {}).2 := by
  refine (srv_done_releases_iff dnExpandOf [] (.source 0) _ {} ?_).1.mpr ?_
  · intro q hq
    obtain rfl := Option.some.inj hq
    decide
  · rintro ⟨-, q, hq, -, hret⟩
    obtain rfl := Option.some.inj hq
    exact absurd hret (by decide)

/-- The answer with two records parses, and is never freed. One with nothing
but a header does not parse: it is not freed either, and a variable that was
never set is. -/
theorem srv_done_leaks :
    (asyncnsResolverSrvDoneMem dnExpandOf [] (.source 0)
        { fd := 7, query := some { done := true, ret := 66, serv := memoryOf sampleResponse } }
        {}).2 =
      [.own (.acquire .answer), .own (.use .answer), .own (.acquire .server),
        .own (.use .server), .own (.release .server)] ∧
      (asyncnsResolverSrvDoneMem dnExpandOf [] (.source 0)
        { fd := 7, query := some { done := true, ret := 12, serv := fun _ => 0 } } {}).2 =
      [.own (.acquire .answer), .own (.use .answer), .freeWild] ∧
      ¬ ReleasesExactly (asyncnsResolverSrvDoneMem dnExpandOf [] (.source 0)
        { fd := 7, query := some { done := true, ret := 66, serv := memoryOf sampleResponse } }
        {}).2 ∧
      ¬ ReleasesExactly (asyncnsResolverSrvDoneMem dnExpandOf [] (.source 0)
        { fd := 7, query := some { done := true, ret := 12, serv := fun _ => 0 } } {}).2 := by
  decide +kernel

end AsyncnsResolver

end LmTransport.Ref
