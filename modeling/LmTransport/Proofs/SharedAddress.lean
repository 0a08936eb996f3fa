import LmTransport.Proofs.AddressFallback
import LmTransport.Proofs.ClosedOnce

/-!
# Two sockets on one iterator

`lm_socket_address_get_result_iter` hands both sockets the iterator stored in
the address, and rewinds it for the second. From then on what one of them takes
is missing from what the other gets: a socket skips the addresses the other has
attempted, or starts over in the middle of its list.

It goes well when they take turns: a socket asks the address for its iterator,
steps it or replaces the results only while the other one has no list begun and
not finished. Then each of them works through the list it was given.
-/

namespace LmTransport.Ref

open Lts

/-! ## What a socket has attempted -/

def attempted (log : List Event) : List AddrInfo :=
  log.filterMap fun
    | .attempt addr => some addr
    | _ => none

/-- The result lists the socket has taken the iterator of. -/
def iterators (log : List Event) : List (List AddrInfo) :=
  log.filterMap fun
    | .resultIter results => some results
    | _ => none

/-- One list at most, its addresses attempted in order and each once, and all of
them before the failure is reported. -/
structure WorksThrough (log : List Event) : Prop where
  once : (iterators log).length ≤ 1
  order : attempted log <+: (iterators log).flatten
  complete : triedAlls log ≠ 0 → attempted log = (iterators log).flatten

/-- Nothing of the socket's list is left to attempt. -/
def Done (w : World) : Prop := attempted w.log = (iterators w.log).flatten

instance (w : World) : Decidable (Done w) := inferInstanceAs (Decidable (_ = _))

/-- The step asks for the iterator, steps it, or replaces the results. -/
def usesIter (w : World) : Label → Bool
  | .connect _ => lmSocketAddressIsResolved w.sa
  | .lookupDone _ ans _ => ans.isSome
  | l => errRetries w l

/-- A socket uses the iterator only while the other has nothing left to
attempt. -/
def TakesTurns (d : Duo) (sl : Side × Label) : Prop :=
  usesIter (d.active sl.1) sl.2 = true → Done (d.other sl.1)

instance (d : Duo) (sl : Side × Label) : Decidable (TakesTurns d sl) :=
  inferInstanceAs (Decidable (_ → _))

/-- The events of connecting when every attempt fails: the connect calls, the
lookups, and the callbacks of failed connects. -/
def failureEvent (w : World) : Label → Bool
  | .close => false
  | .finalize => false
  | .dispatch src _ _ => (w.ctx.find src).any fun s => s.condition == .err
  | _ => true

def OnlyFailures (d : Duo) (sl : Side × Label) : Prop :=
  failureEvent (d.active sl.1) sl.2 = true

instance (d : Duo) (sl : Side × Label) : Decidable (OnlyFailures d sl) :=
  inferInstanceAs (Decidable (_ = _))

@[simp] theorem attempted_append (log log' : List Event) :
    attempted (log ++ log') = attempted log ++ attempted log' :=
  List.filterMap_append

@[simp] theorem iterators_append (log log' : List Event) :
    iterators (log ++ log') = iterators log ++ iterators log' :=
  List.filterMap_append

/-! ## One socket -/

/-- What holds of a socket whatever the other does. -/
structure Trying (w : World) : Prop where
  unconnected : w.priv.connected = false
  frames : closing w.stack = false
  fresh : w.priv.saIter = false →
    attempted w.log = [] ∧ iterators w.log = [] ∧ triedAlls w.log = 0
  taken : (iterators w.log).length ≤ 1
  complete : triedAlls w.log ≠ 0 → Done w

/-- The iterator stands where this socket has left it. -/
def AtCursor (w : World) : Prop :=
  w.priv.saIter = true ∧ attempted w.log ++ w.sa.remaining = (iterators w.log).flatten

theorem trying_new (sa : LmSocketAddress) : Trying (lmSocketNew sa) where
  unconnected := rfl
  frames := rfl
  fresh := fun _ => ⟨rfl, rfl, rfl⟩
  taken := Nat.zero_le 1
  complete := fun h => absurd rfl h

/-- An event that leaves the iteration where it is. -/
theorem Trying.congr {w w' : World} {evs : List Event} (h : Trying w)
    (hconn : w'.priv.connected = w.priv.connected) (hiter : w'.priv.saIter = w.priv.saIter)
    (hstack : closing w'.stack = false) (hlog : w'.log = w.log ++ evs)
    (hatt : attempted evs = []) (hits : iterators evs = []) (htried : triedAlls evs = 0) :
    Trying w' := by
  have hatt' : attempted w'.log = attempted w.log := by
    rw [hlog, attempted_append, hatt, List.append_nil]
  have hits' : iterators w'.log = iterators w.log := by
    rw [hlog, iterators_append, hits, List.append_nil]
  have htried' : triedAlls w'.log = triedAlls w.log := by
    rw [hlog, triedAlls_append, htried, Nat.add_zero]
  refine ⟨hconn.trans h.unconnected, hstack, ?_, ?_, ?_⟩
  · rw [hiter, hatt', hits', htried']
    exact h.fresh
  · rw [hits']
    exact h.taken
  · rw [htried', Done, hatt', hits']
    exact h.complete

theorem Trying.getIter {w : World} (h : Trying w) (hcursor : w.priv.saIter = true → AtCursor w) :
    Trying (socketGetIter w) ∧ AtCursor (socketGetIter w) := by
  unfold socketGetIter
  split
  · next hi => exact ⟨h, hcursor hi⟩
  · next hi =>
      obtain ⟨hatt, hits, hzero⟩ := h.fresh (by simpa using hi)
      have hatt' : attempted (w.log ++ [.resultIter w.sa.results]) = [] := by
        rw [attempted_append, hatt]
        rfl
      have hits' : iterators (w.log ++ [.resultIter w.sa.results]) = [w.sa.results] := by
        rw [iterators_append, hits]
        rfl
      have hzero' : triedAlls (w.log ++ [.resultIter w.sa.results]) = 0 := by
        rw [triedAlls_append, hzero]
        rfl
      refine ⟨⟨h.unconnected, h.frames, fun hno => ?_, ?_, fun hne => ?_⟩, rfl, ?_⟩
      · cases hno
      · rw [hits']
        exact Nat.le_refl 1
      · exact absurd hzero' hne
      · rw [hatt', hits', lmSocketAddressGetResultIter_remaining, List.nil_append,
          List.flatten_singleton]

/-- One more address taken from the iterator and attempted. -/
theorem AtCursor.step {w w' : World} {addr : AddrInfo} {rest : List AddrInfo}
    {evs : List Event} (h : Trying w) (hcursor : AtCursor w)
    (hrem : w.sa.remaining = addr :: rest) (hrem' : w'.sa.remaining = rest)
    (hpriv : w'.priv.connected = w.priv.connected) (hiter : w'.priv.saIter = true)
    (hstack : w'.stack = w.stack) (hlog : w'.log = w.log ++ evs)
    (hatt : attempted evs = [addr]) (hits : iterators evs = []) (htried : triedAlls evs = 0) :
    Trying w' ∧ AtCursor w' := by
  obtain ⟨-, hwhole⟩ := hcursor
  have hatt' : attempted w'.log = attempted w.log ++ [addr] := by
    rw [hlog, attempted_append, hatt]
  have hits' : iterators w'.log = iterators w.log := by
    rw [hlog, iterators_append, hits, List.append_nil]
  have htried' : triedAlls w'.log = triedAlls w.log := by
    rw [hlog, triedAlls_append, htried, Nat.add_zero]
  refine ⟨⟨hpriv.trans h.unconnected, ?_, fun hno => ?_, ?_, fun hne => ?_⟩, hiter, ?_⟩
  · rw [hstack]
    exact h.frames
  · rw [hiter] at hno
    cases hno
  · rw [hits']
    exact h.taken
  · -- the failure has not been reported: there was an address left
    have hdone : attempted w.log = (iterators w.log).flatten := h.complete (htried' ▸ hne)
    rw [hrem, ← hdone] at hwhole
    simp at hwhole
  · rw [hatt', hits', hrem', List.append_assoc, ← hwhole, hrem]
    rfl

theorem Trying.returnTo {w : World} {k : Caller} (h : Trying w) : Trying (returnTo k w) :=
  @Trying.congr w _ [] h (by rw [returnTo_priv]) (by rw [returnTo_priv])
    (by rw [returnTo_stack]; exact h.frames) (by rw [returnTo_log, List.append_nil]) rfl rfl rfl

theorem AtCursor.returnTo {w : World} {k : Caller} (h : AtCursor w) :
    AtCursor (returnTo k w) := by
  unfold AtCursor
  rw [returnTo_priv, returnTo_log, returnTo_sa]
  exact h

/-- A round of attempts leaves the iterator where it got to. -/
theorem Trying.attempts {k : Caller} {os : List SysCalls} {w w' : World} (h : Trying w)
    (hcursor : w.priv.saIter = true → AtCursor w)
    (hnext : socketAttemptConnectNext k os w = some w') : Trying w' ∧ AtCursor w' := by
  refine attemptLoop_rule (C := fun _ => True) (I := fun w₁ => Trying w₁ ∧ AtCursor w₁)
    (J := fun w₁ => Trying w₁ ∧ AtCursor w₁) ?_ ?_ ?_ ?_ (fun _ _ => trivial)
    (h.getIter hcursor) hnext
  · intro w₁ hI hrem
    obtain ⟨htry, hiter, hwhole⟩ := hI
    have hatt : attempted (w₁.log ++ [.emit (.connectResult .failedTriedAll)]) =
        attempted w₁.log := by
      rw [attempted_append]
      exact List.append_nil _
    have hits : iterators (w₁.log ++ [.emit (.connectResult .failedTriedAll)]) =
        iterators w₁.log := by
      rw [iterators_append]
      exact List.append_nil _
    refine ⟨⟨htry.unconnected, htry.frames, fun hno => ?_, ?_, fun _ => ?_⟩, hiter, ?_⟩
    · rw [show w₁.priv.saIter = false from hno] at hiter
      cases hiter
    · show (iterators (w₁.log ++ _)).length ≤ 1
      rw [hits]
      exact htry.taken
    · show attempted (w₁.log ++ _) = (iterators (w₁.log ++ _)).flatten
      rw [hatt, hits, ← hwhole, hrem, List.append_nil]
    · show attempted (w₁.log ++ _) ++ w₁.sa.remaining = (iterators (w₁.log ++ _)).flatten
      rw [hatt, hits]
      exact hwhole
  · intro w₁ addr rest o hI hrem _ _
    obtain ⟨htry, hcur⟩ := hI
    exact @AtCursor.step w₁ _ addr rest [.attempt addr] htry hcur hrem rfl rfl hcur.1 rfl rfl
      rfl rfl rfl
  · intro w₁ addr rest o hI hrem _ _ _ _
    obtain ⟨htry, hcur⟩ := hI
    refine @AtCursor.step w₁ _ addr rest [.attempt addr, .socket o.socket, .close o.socket]
      htry hcur hrem rfl rfl hcur.1 rfl ?_ rfl rfl rfl
    simp [socketCloseHandle, attemptStarted, advanced]
  · intro w₁ addr rest o hI hrem _ _ _ _
    obtain ⟨htry, hcur⟩ := hI
    obtain ⟨htry', hcur'⟩ := @AtCursor.step w₁ (attemptStarted addr o (advanced rest w₁)) addr
      rest [.attempt addr, .socket o.socket] htry hcur hrem rfl rfl hcur.1 rfl
      (by simp [attemptStarted, advanced]) rfl rfl rfl
    exact ⟨htry'.returnTo, hcur'.returnTo⟩

/-! ## Both sockets -/

/-- At most one of the two is in the middle of its list, and if either has
begun the iterator stands where one of them has left it. -/
structure Apart (w v : World) : Prop where
  trying : Trying w
  trying' : Trying v
  same : v.sa = w.sa
  cursor : (AtCursor w ∧ Done v) ∨ (AtCursor v ∧ Done w) ∨
    (w.priv.saIter = false ∧ v.priv.saIter = false)

theorem Apart.symm {w v : World} (h : Apart w v) : Apart v w where
  trying := h.trying'
  trying' := h.trying
  same := h.same.symm
  cursor := by
    rcases h.cursor with hw | hv | ⟨hw, hv⟩
    · exact Or.inr (Or.inl hw)
    · exact Or.inl hv
    · exact Or.inr (Or.inr ⟨hv, hw⟩)

/-- When the other socket has nothing left to attempt, the iterator stands
where this one needs it. -/
theorem Apart.atCursor {w v : World} (h : Apart w v) (hdone : Done v)
    (hi : w.priv.saIter = true) : AtCursor w := by
  rcases h.cursor with ⟨hw, -⟩ | ⟨⟨-, hwhole⟩, hdone'⟩ | ⟨hno, -⟩
  · exact hw
  · have hend : w.sa.remaining = [] := by
      rw [h.same, ← hdone] at hwhole
      simpa using hwhole
    refine ⟨hi, ?_⟩
    rw [hend, List.append_nil]
    exact hdone'
  · rw [hno] at hi
    cases hi

/-- A turn: the iterator now stands where this socket has left it. -/
theorem Apart.turn {w v w' : World} (h : Apart w v) (hdone : Done v)
    (hw' : Trying w' ∧ AtCursor w') : Apart w' (v.sharing w') where
  trying := hw'.1
  trying' := ⟨h.trying'.unconnected, h.trying'.frames, h.trying'.fresh, h.trying'.taken,
    h.trying'.complete⟩
  same := rfl
  cursor := Or.inl ⟨hw'.2, hdone⟩

/-- An event that does not touch the iteration. -/
theorem Apart.congr {w v w' : World} {evs : List Event} (h : Apart w v)
    (hconn : w'.priv.connected = w.priv.connected) (hiter : w'.priv.saIter = w.priv.saIter)
    (hsa : w'.sa = w.sa) (hstack : closing w'.stack = false) (hlog : w'.log = w.log ++ evs)
    (hatt : attempted evs = []) (hits : iterators evs = []) (htried : triedAlls evs = 0) :
    Apart w' (v.sharing w') := by
  have hatt' : attempted w'.log = attempted w.log := by
    rw [hlog, attempted_append, hatt, List.append_nil]
  have hits' : iterators w'.log = iterators w.log := by
    rw [hlog, iterators_append, hits, List.append_nil]
  refine ⟨h.trying.congr hconn hiter hstack hlog hatt hits htried, ⟨h.trying'.unconnected,
    h.trying'.frames, h.trying'.fresh, h.trying'.taken, h.trying'.complete⟩, rfl, ?_⟩
  rcases h.cursor with ⟨⟨hi, hwhole⟩, hdone⟩ | ⟨⟨hi, hwhole⟩, hdone⟩ | ⟨hw, hv⟩
  · refine Or.inl ⟨⟨hiter.trans hi, ?_⟩, hdone⟩
    rw [hatt', hits', hsa]
    exact hwhole
  · refine Or.inr (Or.inl ⟨⟨hi, ?_⟩, ?_⟩)
    · show attempted v.log ++ w'.sa.remaining = _
      rw [hsa, ← h.same]
      exact hwhole
    · rw [Done, hatt', hits']
      exact hdone
  · exact Or.inr (Or.inr ⟨hiter.trans hw, hv⟩)

theorem Apart.resume {f : Frame} {rest : List Frame} {w v : World} (h : Apart w v)
    (hstack : w.stack = f :: rest) :
    Apart (resume f { w with stack := rest })
      (v.sharing (resume f { w with stack := rest })) := by
  have hframes := h.trying.frames
  rw [hstack, closing, List.any_cons, Bool.or_eq_false_iff] at hframes
  obtain ⟨hf, hrest⟩ := hframes
  rcases resume_cases f { w with stack := rest } with
    ⟨k, rfl, hw⟩ | ⟨c, k, rfl, -⟩ | ⟨-, hw⟩
  · rw [hw]
    exact h.congr rfl rfl rfl hrest rfl rfl rfl rfl
  · cases hf
  · rw [hw]
    refine @Apart.congr w v _ [] h ?_ ?_ ?_ ?_ ?_ rfl rfl rfl
    · rw [returnTo_priv]
    · rw [returnTo_priv]
    · rw [returnTo_sa]
    · rw [returnTo_stack]
      exact hrest
    · rw [returnTo_log, List.append_nil]

theorem apart_step {w v w' : World} {l : Label} (h : Apart w v)
    (hfail : failureEvent w l = true) (hturn : usesIter w l = true → Done v)
    (hstep : step w l = some w') : Apart w' (v.sharing w') := by
  have hother : ∀ {s : GSource} {g : Int} {os : List SysCalls}, Live w s →
      failureEvent w (.dispatch s.id g os) = true → s.condition = .err := by
    intro s g os hlive hf
    simpa [failureEvent, hlive.found] using hf
  cases step_cases hstep with
  | connectLookup _ _ | lateLookup _ _ _ | lookupFailed _ _ _ | lateDispatch _ _ =>
      exact h.congr rfl rfl rfl h.trying.frames rfl rfl rfl rfl
  | poll _ _ _ | errWaiting _ _ _ _ _ | connectDone _ | connectionError _ =>
      exact h.congr rfl rfl rfl h.trying.frames (List.append_nil _).symm rfl rfl rfl
  | connectAttempt _ hres hnext =>
      have hdone := hturn (by simpa [usesIter, lmSocketAddressIsResolved] using hres)
      have hnote : Trying (w.note .connectCall) :=
        h.trying.congr rfl rfl h.trying.frames rfl rfl rfl rfl
      refine h.turn hdone (hnote.attempts (fun hi => ?_) hnext)
      obtain ⟨-, hwhole⟩ := h.atCursor hdone hi
      refine ⟨hi, ?_⟩
      show attempted (w.log ++ _) ++ _ = (iterators (w.log ++ _)).flatten
      rw [attempted_append, iterators_append, show attempted [.connectCall] = [] from rfl,
        show iterators [.connectCall] = [] from rfl, List.append_nil, List.append_nil]
      exact hwhole
  | close _ | finalize _ _ => cases hfail
  | resume hstack => exact h.resume hstack
  | @lookupOk id ai os _ _ _ _ hnext =>
      have hdone := hturn rfl
      have hlook : Trying (lookedUp id ai w) :=
        h.trying.congr rfl rfl h.trying.frames (List.append_nil _).symm rfl rfl rfl
      exact h.turn hdone (hlook.attempts (fun hi => h.atCursor hdone hi) hnext)
  | readable _ hlive hc | writeable _ hlive hc _ | connected _ hlive hc _ | hup _ hlive hc =>
      rw [hother hlive hfail] at hc
      cases hc
  | errConnected _ _ _ hconn =>
      rw [h.trying.unconnected] at hconn
      cases hconn
  | @errFailed s g os _ _ hlive hc hconn herr hnext =>
      have hdone := hturn (by simp [usesIter, errRetries, hlive.found, hc, hconn, herr])
      have hread : Trying (readError g (w.take s.id)) :=
        h.trying.congr rfl rfl h.trying.frames (List.append_nil _).symm rfl rfl rfl
      exact h.turn hdone (hread.attempts (fun hi => h.atCursor hdone hi) hnext)

/-! ## The run -/

theorem Apart.worksThrough {w v : World} (h : Apart w v) : WorksThrough w.log where
  once := h.trying.taken
  order := by
    rcases h.cursor with ⟨⟨-, hwhole⟩, -⟩ | ⟨-, hdone⟩ | ⟨hno, -⟩
    · exact ⟨_, hwhole⟩
    · exact hdone ▸ List.prefix_refl _
    · rw [(h.trying.fresh hno).1]
      exact List.nil_prefix
  complete := h.trying.complete

theorem apart_duoStep {d d' : Duo} {sl : Side × Label} (h : Apart d.left d.right)
    (hfail : OnlyFailures d sl) (hturn : TakesTurns d sl) (hstep : duoStep d sl = some d') :
    Apart d'.left d'.right := by
  obtain ⟨side, l⟩ := sl
  cases side with
  | left =>
      obtain ⟨w, hw, rfl⟩ := Option.map_eq_some_iff.mp hstep
      exact apart_step h hfail hturn hw
  | right =>
      obtain ⟨w, hw, rfl⟩ := Option.map_eq_some_iff.mp hstep
      exact (apart_step h.symm hfail hturn hw).symm

theorem sockets_undisturbed (sa : LmSocketAddress) (sls : List (Side × Label)) (d : Duo)
    (hfail : Meets duoStep OnlyFailures (duoNew sa) sls)
    (hturns : Meets duoStep TakesTurns (duoNew sa) sls)
    (hrun : exec duoStep (duoNew sa) sls = some d) :
    WorksThrough d.left.log ∧ WorksThrough d.right.log := by
  have hstart : Apart (duoNew sa).left (duoNew sa).right :=
    ⟨trying_new sa, trying_new sa, rfl, Or.inr (Or.inr ⟨rfl, rfl⟩)⟩
  have hmeets : Meets duoStep (fun d sl => OnlyFailures d sl ∧ TakesTurns d sl) _ _ :=
    Along.and hfail hturns
  have hend : Apart d.left d.right :=
    exec_invariant (I := fun d => Apart d.left d.right)
      (fun _ _ _ h hc hs => apart_duoStep h hc.1 hc.2 hs) hstart hmeets hrun
  exact ⟨hend.worksThrough, hend.symm.worksThrough⟩

/-- One socket fails everywhere at once, then the other one here and there. -/
theorem sockets_undisturbed_in_turn :
    ∃ d, exec duoStep (duoNew sampleSa)
        [(.left, .connect [⟨5, -1, 111⟩, ⟨-1, 0, 0⟩, ⟨5, -1, 111⟩]), (.left, .handlersDone),
          (.right, .connect [⟨5, -1, 115⟩]), (.right, .connectDone 5 111),
          (.right, .poll [⟨1, 3⟩]), (.right, .dispatch 1 0 [⟨6, -1, 111⟩, ⟨6, -1, 111⟩])] =
        some d ∧
      WorksThrough d.left.log ∧ WorksThrough d.right.log :=
  ⟨_, rfl, sockets_undisturbed sampleSa
    [(.left, .connect [⟨5, -1, 111⟩, ⟨-1, 0, 0⟩, ⟨5, -1, 111⟩]), (.left, .handlersDone),
      (.right, .connect [⟨5, -1, 115⟩]), (.right, .connectDone 5 111),
      (.right, .poll [⟨1, 3⟩]), (.right, .dispatch 1 0 [⟨6, -1, 111⟩, ⟨6, -1, 111⟩])] _ (by decide) (by decide) rfl⟩

/-- Both connect before the first attempt of either has failed: the left one
attempts the second address, and the right one goes from the first to the
third. -/
theorem shared_iterator_skips :
    Meets duoStep OnlyFailures (duoNew sampleSa)
        [(.left, .connect [⟨5, -1, 115⟩]), (.right, .connect [⟨6, -1, 115⟩]),
          (.left, .connectDone 5 111), (.left, .poll [⟨1, 0⟩]),
          (.left, .dispatch 1 0 [⟨7, -1, 115⟩]), (.right, .connectDone 6 111),
          (.right, .poll [⟨1, 1⟩]), (.right, .dispatch 1 0 [⟨8, -1, 115⟩])] ∧
      ∃ d, exec duoStep (duoNew sampleSa)
          [(.left, .connect [⟨5, -1, 115⟩]), (.right, .connect [⟨6, -1, 115⟩]),
            (.left, .connectDone 5 111), (.left, .poll [⟨1, 0⟩]),
            (.left, .dispatch 1 0 [⟨7, -1, 115⟩]), (.right, .connectDone 6 111),
            (.right, .poll [⟨1, 1⟩]), (.right, .dispatch 1 0 [⟨8, -1, 115⟩])] = some d ∧
        ¬ WorksThrough d.right.log :=
  ⟨by decide, _, rfl, fun h => absurd h.order (by decide)⟩

end LmTransport.Ref
