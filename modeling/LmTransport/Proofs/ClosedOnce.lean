import LmTransport.Proofs.Descriptors

/-!
# `closed`, once for each connect

`socket_emit_disconnected_and_cleanup` emits first and resets afterwards, and
it does both unconditionally. So every `lm_channel_close` emits `closed`, on a
socket that is closed already as well, and the reset takes down whatever the
socket has when the handlers return: also a connection one of them has just
started.

The other causes are better behaved. The reset destroys the `G_IO_HUP` and
`G_IO_ERR` watches of the connection, so neither can close it again, in
whatever order they were going to fire. What can is a lookup or a `G_IO_ERR`
watch left over from before the close, by starting new attempts on a socket
nobody has connected again.
-/

namespace LmTransport.Ref

open Lts

/-! ## What the log says -/

def Event.isClosed : Event → Bool
  | .emit (.closed _) => true
  | _ => false

/-- Whether a connect call is still to be answered by a `closed`, after one
more event. -/
def owesClosed (owed : Bool) : Event → Bool
  | .connectCall => true
  | .emit (.closed _) => false
  | _ => owed

/-- A connect call has been made since the last `closed`. -/
def owed (log : List Event) : Bool := log.foldl owesClosed false

/-- Every `closed` has a connect call of its own before it. -/
def OncePerConnect : Bool → List Event → Prop
  | _, [] => True
  | b, e :: es => (e.isClosed = true → b = true) ∧ OncePerConnect (owesClosed b e) es

instance OncePerConnect.dec : (b : Bool) → (es : List Event) → Decidable (OncePerConnect b es)
  | _, [] => isTrue trivial
  | b, e :: es =>
      have := OncePerConnect.dec (owesClosed b e) es
      inferInstanceAs (Decidable ((_ → _) ∧ OncePerConnect (owesClosed b e) es))

theorem oncePerConnect_append {b : Bool} {es es' : List Event} :
    OncePerConnect b (es ++ es') ↔
      OncePerConnect b es ∧ OncePerConnect (es.foldl owesClosed b) es' := by
  induction es generalizing b with
  | nil => simp [OncePerConnect]
  | cons e es ih =>
      rw [List.cons_append, OncePerConnect, OncePerConnect, ih, List.foldl_cons, and_assoc]

theorem owed_append (log evs : List Event) :
    owed (log ++ evs) = evs.foldl owesClosed (owed log) :=
  List.foldl_append

theorem owesClosed_ofAttempts {evs : List Event} (h : ∀ e ∈ evs, e.ofAttempts = true)
    (b : Bool) : evs.foldl owesClosed b = b := by
  induction evs generalizing b with
  | nil => rfl
  | cons e evs ih =>
      have he : owesClosed b e = b := by
        have hatt := h e (List.mem_cons_self ..)
        cases e with
        | connectCall => cases hatt
        | emit s =>
            cases s with
            | closed _ => cases hatt
            | _ => rfl
        | _ => rfl
      rw [List.foldl_cons, he]
      exact ih (fun e' he' => h e' (List.mem_cons_of_mem _ he')) b

/-- Events among which there is no `closed`. -/
theorem oncePerConnect_of_none {b : Bool} {evs : List Event}
    (h : ∀ e ∈ evs, e.isClosed = false) : OncePerConnect b evs := by
  induction evs generalizing b with
  | nil => trivial
  | cons e evs ih =>
      refine ⟨fun he => ?_, ih fun e' he' => h e' (List.mem_cons_of_mem _ he')⟩
      rw [h e (List.mem_cons_self ..)] at he
      cases he

theorem Event.not_closed_of_attempts {e : Event} (h : e.ofAttempts = true) :
    e.isClosed = false := by
  cases e with
  | emit s =>
      cases s with
      | closed _ => cases h
      | _ => rfl
  | _ => rfl

/-! ## A step that announces the end of a connection -/

/-- A handler of `closed` is running. -/
def closing (stack : List Frame) : Bool :=
  stack.any fun
    | .closed _ _ => true
    | _ => false

/-- The connection `w` has is not the one that was being closed. -/
def startedInside (w : World) (c : Option GIOChannel) : Bool :=
  w.priv.ioChannel != c && w.priv.ioChannel.any fun ch => w.kernel.isOpen ch.fd

/-- A connection started while the handlers of a `closed` ran is still in place
after the cleanup that follows them. -/
def Survives (w : World) (l : Label) (w' : World) : Prop :=
  match l, w.stack with
  | .handlersDone, .closed c _ :: _ =>
      startedInside w c = true → w'.priv.handle = w.priv.handle ∧
        w'.priv.ioChannel = w.priv.ioChannel ∧ w'.priv.watches = w.priv.watches
  | _, _ => True

instance (w : World) (l : Label) (w' : World) : Decidable (Survives w l w') := by
  unfold Survives
  split <;> infer_instance

/-- Every `closed` answers a connect call of its own, and no connection started
from a handler of `closed` is torn down with the old one. -/
def ClosedOnce (w : World) (l : Label) (w' : World) : Prop :=
  OncePerConnect false w'.log ∧ Survives w l w'

instance (w : World) (l : Label) (w' : World) : Decidable (ClosedOnce w l w') :=
  inferInstanceAs (Decidable (_ ∧ _))

/-- The attempt leaves no connection behind. -/
def SysCalls.failsAtOnce (o : SysCalls) : Bool := !lmSockValid o.socket || o.refused

/-- A `G_IO_ERR` watch that is not the recorded one is about to be
dispatched. -/
def staleErr (w : World) : Label → Bool
  | .dispatch src _ _ =>
      (w.ctx.find src).any fun s => s.condition == .err && w.priv.watches.errWatch != some src
  | _ => false

/-- Between a `closed` and the next connect call the socket is not closed
again, and neither a lookup nor a watch from before makes it open a
descriptor. -/
def LeftAlone (w : World) : Label → Prop
  | .close => False
  | .lookupDone _ _ os => ∀ o ∈ os, lmSockValid o.socket = false
  | l => staleErr w l = false

instance (w : World) (l : Label) : Decidable (LeftAlone w l) := by
  unfold LeftAlone
  split <;> infer_instance

/-- And a handler of `closed` starts no connection. -/
def ClosedInOrder (w : World) (l : Label) : Prop :=
  (owed w.log = false → LeftAlone w l) ∧
    (closing w.stack = true → ∀ o ∈ l.calls, o.failsAtOnce = true)

instance (w : World) (l : Label) : Decidable (ClosedInOrder w l) :=
  inferInstanceAs (Decidable ((_ → _) ∧ (_ → _)))

/-! ## The invariant -/

/-- The `G_IO_HUP` source is the recorded one, records go with a channel, and
a channel goes with a connect call that has had no `closed` yet: unless a
`closed` is under way, and then the channel is the one being closed, or that of
an attempt which has failed. -/
structure ClosedInv (w : World) : Prop where
  empty : w.priv.ioChannel = none → ∀ c, w.priv.watches.get c = none
  unconnected : w.priv.connected = false → w.priv.watches.hupWatch = none
  hups : ∀ s ∈ w.ctx.sources, s.condition = .hup → w.priv.watches.hupWatch = some s.id
  owed : closing w.stack = false → w.priv.ioChannel ≠ none → owed w.log = true
  old : ∀ c k, .closed c k ∈ w.stack → startedInside w c = false

theorem closedInv_new (sa : LmSocketAddress) : ClosedInv (lmSocketNew sa) where
  empty := fun _ c => by cases c <;> rfl
  unconnected := fun _ => rfl
  hups := fun s hs => by cases hs
  owed := fun _ hch => absurd rfl hch
  old := fun c k hmem => by cases hmem

theorem closing_of_mem {stack : List Frame} {c : Option GIOChannel} {k : Caller}
    (h : Frame.closed c k ∈ stack) : closing stack = true :=
  List.any_eq_true.mpr ⟨_, h, rfl⟩

/-- A step that leaves the connection, its records and its sources alone. -/
theorem ClosedInv.congr {w w' : World} (h : ClosedInv w) (hpriv : w'.priv = w.priv)
    (hctx : ∀ s ∈ w'.ctx.sources, s ∈ w.ctx.sources) (hfds : w'.kernel.fds = w.kernel.fds)
    (howed : closing w'.stack = false → closing w.stack = false ∧
      (Ref.owed w.log = true → Ref.owed w'.log = true))
    (hframes : ∀ c k, .closed c k ∈ w'.stack → .closed c k ∈ w.stack ∨ c = w.priv.ioChannel) :
    ClosedInv w' := by
  refine ⟨?_, ?_, fun s hs hc => ?_, fun hno hch => ?_, fun c k hmem => ?_⟩
  · rw [hpriv]; exact h.empty
  · rw [hpriv]; exact h.unconnected
  · rw [hpriv]; exact h.hups s (hctx s hs) hc
  · obtain ⟨hwas, hlog⟩ := howed hno
    exact hlog (h.owed hwas (hpriv ▸ hch))
  · have hsame : startedInside w' c = startedInside w c := by
      simp only [startedInside, hpriv, Kernel.isOpen, hfds]
    rw [hsame]
    rcases hframes c k hmem with hold | rfl
    · exact h.old c k hold
    · simp [startedInside]

theorem ClosedInv.returnTo {w : World} {k : Caller} (h : ClosedInv w) :
    ClosedInv (returnTo k w) := by
  refine h.congr (by rw [returnTo_priv]) (fun s hs => mem_returnTo hs) (by rw [returnTo_kernel])
    (fun hno => ?_) (fun c k' hmem => ?_)
  · rw [returnTo_stack] at hno
    exact ⟨hno, fun howed => by rw [returnTo_log]; exact howed⟩
  · rw [returnTo_stack] at hmem
    exact Or.inl hmem

/-- The reset clears everything the invariant speaks of, whatever is under
way. -/
theorem closedInv_reset {w : World}
    (hempty : w.priv.ioChannel = none → ∀ c, w.priv.watches.get c = none)
    (hhups : ∀ s ∈ w.ctx.sources, s.condition = .hup → w.priv.watches.hupWatch = some s.id) :
    ClosedInv (socketReset w) := by
  have hget : ∀ c, (socketReset w).priv.watches.get c = none := by
    intro c
    rw [socketReset_priv]
    simp only []
    split
    · next hch => exact hempty hch c
    · cases c <;> rfl
  refine ⟨fun _ => hget, fun _ => hget .hup, fun s hs hc => ?_, fun _ hch => ?_,
    fun c k _ => ?_⟩
  · obtain ⟨hmem, hgone⟩ := mem_socketReset.mp hs
    have hrec := hhups s hmem hc
    by_cases hch : w.priv.ioChannel = none
    · rw [show w.priv.watches.hupWatch = none from hempty hch .hup] at hrec
      cases hrec
    · exact absurd hrec (hgone hch .hup)
  · exact absurd (socketReset_ioChannel w) hch
  · rw [startedInside, socketReset_ioChannel]
    exact Bool.and_false _

/-- An attempt is watched for being up and for failing. -/
theorem mem_attemptStarted_hup (addr : AddrInfo) {o : SysCalls} {w : World} {s : GSource}
    (hs : s ∈ (attemptStarted addr o w).ctx.sources) (hc : s.condition = .hup) :
    s ∈ w.ctx.sources := by
  rcases List.mem_append.mp hs with hs | hs
  · rcases List.mem_append.mp hs with hs | hs
    · exact hs
    · rw [List.mem_singleton.mp hs] at hc
      cases hc
  · rw [List.mem_singleton.mp hs] at hc
    cases hc

/-- A new attempt that came to nothing: its channel is recorded, its descriptor
is closed. -/
theorem ClosedInv.refused {addr : AddrInfo} {o : SysCalls} {w : World} (h : ClosedInv w)
    (howed : closing w.stack = false → Ref.owed w.log = true) :
    ClosedInv (socketCloseHandle (attemptStarted addr o w)) := by
  refine ⟨fun hnone => ?_, h.unconnected, fun s hs hc => ?_, fun hno _ => ?_, fun c k _ => ?_⟩
  · cases hnone
  · exact h.hups s (mem_attemptStarted_hup addr hs hc) hc
  · show Ref.owed (w.log ++ _ ++ _ ++ _) = true
    rw [owed_append, owed_append, owed_append]
    exact howed hno
  · have hclosed : (socketCloseHandle (attemptStarted addr o w)).kernel.isOpen o.socket =
        false := by
      show (lmSockClose _ o.socket).isOpen o.socket = false
      simp
    simp only [startedInside, socketCloseHandle, attemptStarted, Option.any_some,
      Bool.and_eq_false_iff] at hclosed ⊢
    exact Or.inr hclosed

/-- An attempt that is up or in progress, with no `closed` under way. -/
theorem ClosedInv.started {addr : AddrInfo} {o : SysCalls} {w : World} (h : ClosedInv w)
    (hno : closing w.stack = false) (howed : Ref.owed w.log = true) :
    ClosedInv (attemptStarted addr o w) := by
  refine ⟨fun hnone => ?_, h.unconnected, fun s hs hc => ?_, fun _ _ => ?_, fun c k hmem => ?_⟩
  · cases hnone
  · exact h.hups s (mem_attemptStarted_hup addr hs hc) hc
  · show Ref.owed (w.log ++ _ ++ _) = true
    rw [owed_append, owed_append]
    exact howed
  · rw [closing_of_mem (show Frame.closed c k ∈ w.stack from hmem)] at hno
    cases hno

theorem ClosedInv.attempts {k : Caller} {os : List SysCalls} {w w' : World}
    (h : ClosedInv w) (hinside : closing w.stack = true → ∀ o ∈ os, o.failsAtOnce = true)
    (howed : closing w.stack = false →
      Ref.owed w.log = true ∨ ∀ o ∈ os, lmSockValid o.socket = false)
    (hnext : socketAttemptConnectNext k os w = some w') : ClosedInv w' := by
  have hiter : ClosedInv (socketGetIter w) ∧ (socketGetIter w).stack = w.stack ∧
      Ref.owed (socketGetIter w).log = Ref.owed w.log := by
    unfold socketGetIter
    split
    · exact ⟨h, rfl, rfl⟩
    · have hlog : Ref.owed (w.log ++ [.resultIter w.sa.results]) = Ref.owed w.log := by
        rw [owed_append]; rfl
      exact ⟨⟨h.empty, h.unconnected, h.hups, fun hno hch => hlog.trans (h.owed hno hch),
        h.old⟩, rfl, hlog⟩
  have hlog : ∀ {w₁ : World} {evs : List Event}, Ref.owed w₁.log = Ref.owed w.log →
      (∀ e ∈ evs, e.ofAttempts = true) → Ref.owed (w₁.log ++ evs) = Ref.owed w.log := by
    intro w₁ evs hw₁ hevs
    rw [owed_append, owesClosed_ofAttempts hevs, hw₁]
  refine attemptLoop_rule
    (C := fun o => (closing w.stack = true → o.failsAtOnce = true) ∧
      (closing w.stack = false → Ref.owed w.log = true ∨ lmSockValid o.socket = false))
    (I := fun w₁ => ClosedInv w₁ ∧ w₁.stack = w.stack ∧ Ref.owed w₁.log = Ref.owed w.log)
    (J := ClosedInv) ?_ ?_ ?_ ?_ (fun o ho => ⟨fun hin => hinside hin o ho,
      fun hno => (howed hno).imp id fun hall => hall o ho⟩) hiter hnext
  · intro w₁ hI _
    obtain ⟨hinv, hstack, hsame⟩ := hI
    refine hinv.congr rfl (fun _ hs => hs) rfl (fun hno => ⟨hno, fun how => ?_⟩)
      (fun c k' hmem => ?_)
    · exact (hlog hsame (by simp [Event.ofAttempts])).trans (hsame.symm.trans how)
    · rcases List.mem_cons.mp hmem with heq | hmem
      · cases heq
      · exact Or.inl hmem
  · intro w₁ addr rest o hI _ _ _
    obtain ⟨hinv, hstack, hsame⟩ := hI
    have hlog' : Ref.owed (attemptNoSocket addr o.socket (advanced rest w₁)).log =
        Ref.owed w.log := hlog hsame (by simp [Event.ofAttempts])
    refine ⟨⟨hinv.empty, hinv.unconnected, hinv.hups, fun hno hch => ?_, hinv.old⟩, hstack,
      hlog'⟩
    exact hlog'.trans (hsame.symm.trans (hinv.owed hno hch))
  · intro w₁ addr rest o hI _ hC hv _ _
    obtain ⟨hinv, hstack, hsame⟩ := hI
    have hadv : ClosedInv (advanced rest w₁) :=
      ⟨hinv.empty, hinv.unconnected, hinv.hups, hinv.owed, hinv.old⟩
    refine ⟨hadv.refused fun hno => ?_, hstack, ?_⟩
    · rw [show (advanced rest w₁).stack = w₁.stack from rfl, hstack] at hno
      refine hsame.trans ((hC.2 hno).resolve_right fun hinvalid => ?_)
      rw [hv] at hinvalid
      cases hinvalid
    · show Ref.owed (w₁.log ++ _ ++ _ ++ _) = _
      rw [List.append_assoc, List.append_assoc]
      exact hlog hsame (by simp [Event.ofAttempts])
  · intro w₁ addr rest o hI _ hC hv _ hr
    obtain ⟨hinv, hstack, hsame⟩ := hI
    have hadv : ClosedInv (advanced rest w₁) :=
      ⟨hinv.empty, hinv.unconnected, hinv.hups, hinv.owed, hinv.old⟩
    have hno : closing w.stack = false := by
      by_contra hin
      have hfail := hC.1 (by simpa using hin)
      rw [SysCalls.failsAtOnce, hv, hr] at hfail
      cases hfail
    refine (hadv.started ?_ ?_).returnTo
    · show closing w₁.stack = false
      rw [hstack]
      exact hno
    · refine hsame.trans ((hC.2 hno).resolve_right fun hinvalid => ?_)
      rw [hv] at hinvalid
      cases hinvalid

theorem connectedNow_closedInv {w : World} (h : ClosedInv w)
    (hconn : w.priv.connected = false) : ClosedInv (connectedNow w) := by
  have hnone := h.unconnected hconn
  have hnohup : ∀ s ∈ w.ctx.sources, s.condition ≠ .hup := by
    intro s hs hc
    have hrec := h.hups s hs hc
    rw [hnone] at hrec
    cases hrec
  cases hch : w.priv.ioChannel with
  | none =>
      rw [connectedNow_none hch]
      refine ⟨fun _ c => ?_, fun hno => ?_, fun s hs hc => ?_, fun _ hsome => ?_, h.old⟩
      · have hget := h.empty hch c
        cases c with
        | inn => rfl
        | hup => rfl
        | out => exact hget
        | err => exact hget
      · cases hno
      · exact absurd hc (hnohup s hs)
      · exact absurd hch hsome
  | some ch =>
      rw [connectedNow_some hch]
      refine ⟨fun hno => ?_, fun hno => ?_, fun s hs hc => ?_, h.owed, h.old⟩
      · rw [hch] at hno
        cases hno
      · cases hno
      · rcases List.mem_append.mp hs with hs | hs
        · rcases List.mem_append.mp hs with hs | hs
          · exact absurd hc (hnohup s hs)
          · rw [List.mem_singleton.mp hs] at hc
            cases hc
        · rw [List.mem_singleton.mp hs]

theorem ClosedInv.resume {f : Frame} {rest : List Frame} {w : World} (h : ClosedInv w)
    (hstack : w.stack = f :: rest) : ClosedInv (resume f { w with stack := rest }) := by
  -- popping a frame of another kind does not end a `closed` emission
  have hpop : (∀ c k, f ≠ .closed c k) → ClosedInv { w with stack := rest } := by
    intro hother
    refine h.congr rfl (fun _ hs => hs) rfl (fun hno => ⟨?_, id⟩) (fun c k hmem => ?_)
    · rw [hstack, closing, List.any_cons, Bool.or_eq_false_iff]
      refine ⟨?_, hno⟩
      cases f with
      | closed c k => exact absurd rfl (hother c k)
      | _ => rfl
    · exact Or.inl (by rw [hstack]; exact List.mem_cons_of_mem _ hmem)
  rcases resume_cases f { w with stack := rest } with
    ⟨k, rfl, hw⟩ | ⟨c, k, rfl, hw⟩ | ⟨hreturns, hw⟩ <;> rw [hw]
  · refine (hpop (by simp)).congr rfl (fun _ hs => hs) rfl (fun hno => ⟨hno, fun how => ?_⟩)
      (fun c k' hmem => ?_)
    · show Ref.owed (w.log ++ _) = true
      rw [owed_append]
      exact how
    · rcases List.mem_cons.mp hmem with heq | hmem
      · cases heq
      · exact Or.inl hmem
  · have hreset : ClosedInv (socketReset { w with stack := rest }) :=
      closedInv_reset h.empty h.hups
    exact hreset.returnTo
  · refine (hpop fun c k hf => ?_).returnTo
    rw [hf] at hreturns
    cases hreturns

/-! ## One event -/

/-- A `closed` for a connect call that has had none, the only one the step
emits, or no `closed` at all. -/
theorem oncePerConnect_step {log evs : List Event} (h : OncePerConnect false log)
    (hevs : (∀ e ∈ evs, e.isClosed = false) ∨ (evs.length = 1 ∧ owed log = true)) :
    OncePerConnect false (log ++ evs) := by
  rw [oncePerConnect_append]
  refine ⟨h, ?_⟩
  rcases hevs with hnone | ⟨hone, howed⟩
  · exact oncePerConnect_of_none hnone
  · obtain ⟨e, rfl⟩ := List.length_eq_one_iff.mp hone
    exact ⟨fun _ => howed, trivial⟩

theorem oncePerConnect_of_untouched {w w' : World} (h : OncePerConnect false w.log)
    (hu : Untouched w w') : OncePerConnect false w'.log := by
  obtain ⟨evs, hevs, hall⟩ := hu.log
  rw [hevs]
  exact oncePerConnect_step h (Or.inl fun e he => Event.not_closed_of_attempts (hall e he))

/-- A `G_IO_ERR` or `G_IO_HUP` that fires belongs to a connect call that has
had no `closed`, unless it is a leftover. -/
theorem ClosedInv.owed_of_recorded {w : World} {s : GSource} {c : GIOCondition}
    (h : ClosedInv w) (hidle : w.stack = []) (hrec : w.priv.watches.get c = some s.id) :
    Ref.owed w.log = true := by
  refine h.owed (by rw [hidle]; rfl) fun hnone => ?_
  rw [h.empty hnone c] at hrec
  cases hrec

theorem ClosedInv.owed_of_err {w : World} {s : GSource} {g : Int} {os : List SysCalls}
    (h : ClosedInv w) (hlive : Live w s) (hcond : s.condition = .err)
    (hc : Ref.owed w.log = false → LeftAlone w (.dispatch s.id g os)) :
    Ref.owed w.log = true := by
  by_contra hno
  have hstale := hc (by simpa using hno)
  simp only [LeftAlone, staleErr, hlive.found, Option.any_some, hcond, beq_self_eq_true,
    Bool.true_and, bne_eq_false_iff_eq] at hstale
  exact hno (h.owed_of_recorded (c := .err) hlive.idle hstale)

theorem closedInv_step {w w' : World} {l : Label} (h : ClosedInv w) (hc : ClosedInOrder w l)
    (hstep : step w l = some w') : ClosedInv w' := by
  have hsame : ∀ {w₁ : World} {evs : List Event}, w₁.priv = w.priv →
      (∀ s ∈ w₁.ctx.sources, s ∈ w.ctx.sources) → w₁.kernel.fds = w.kernel.fds →
      w₁.stack = w.stack → w₁.log = w.log ++ evs → evs.foldl owesClosed true = true →
      ClosedInv w₁ := by
    intro w₁ evs hpriv hctx hfds hstack hlog hevs
    refine h.congr hpriv hctx hfds (fun hno => ⟨hstack ▸ hno, fun how => ?_⟩)
      (fun c k hmem => Or.inl (hstack ▸ hmem))
    rw [hlog, owed_append, how]
    exact hevs
  have hpush : ∀ {w₁ : World} {f : Frame} {e : Event}, w₁.priv = w.priv →
      w₁.ctx = w.ctx → w₁.kernel.fds = w.kernel.fds → w₁.stack = f :: w.stack →
      w₁.log = w.log ++ [e] →
      (∀ c k, f = .closed c k → c = w.priv.ioChannel) →
      (closing [f] = false → owesClosed true e = true) → ClosedInv w₁ := by
    intro w₁ f e hpriv hctx hfds hstack hlog hf he
    refine h.congr hpriv (fun s hs => hctx ▸ hs) hfds (fun hno => ?_) (fun c k hmem => ?_)
    · rw [hstack, closing, List.any_cons, Bool.or_eq_false_iff] at hno
      refine ⟨hno.2, fun how => ?_⟩
      rw [hlog, owed_append, how]
      exact he (by rw [closing, List.any_cons, List.any_nil, Bool.or_false]; exact hno.1)
    · rw [hstack] at hmem
      rcases List.mem_cons.mp hmem with heq | hmem
      · exact Or.inr (hf c k heq.symm)
      · exact Or.inl hmem
  cases step_cases hstep with
  | connectLookup _ _ =>
      refine ⟨h.empty, h.unconnected, h.hups, fun _ _ => ?_, h.old⟩
      show owed (w.log ++ _) = true
      rw [owed_append]
      rfl
  | connectAttempt _ _ hnext =>
      have howed : owed (w.note .connectCall).log = true := owed_append ..
      have hnote : ClosedInv (w.note .connectCall) :=
        ⟨h.empty, h.unconnected, h.hups, fun _ _ => howed, h.old⟩
      exact hnote.attempts hc.2 (fun _ => Or.inl howed) hnext
  | close _ | errConnected _ _ _ _ | hup _ _ _ =>
      refine hpush rfl rfl rfl rfl rfl (fun c k heq => ?_) (fun hno => by cases hno)
      cases heq
      rfl
  | lookupFailed _ _ _ | readable _ _ _ | writeable _ _ _ _ =>
      exact hpush rfl rfl rfl rfl rfl (fun c k heq => by cases heq) (fun _ => rfl)
  | finalize _ hstack =>
      exact (closedInv_reset h.empty h.hups).congr rfl (fun _ hs => hs) rfl
        (fun hno => ⟨hno, id⟩) (fun _ _ hmem => Or.inl hmem)
  | resume hstack => exact h.resume hstack
  | lateLookup _ _ _ | lateDispatch _ _ => exact hsame rfl (fun _ hs => hs) rfl rfl rfl rfl
  | poll _ _ _ => exact hsame rfl (fun _ hs => hs) rfl rfl (List.append_nil _).symm rfl
  | @lookupOk id ai os _ _ _ hstack hnext =>
      have hdrop : ClosedInv (lookedUp id ai w) :=
        hsame rfl (fun _ hs => hs) rfl rfl (List.append_nil _).symm rfl
      refine hdrop.attempts (fun hin => ?_) (fun _ => ?_) hnext
      · rw [show (lookedUp id ai w).stack = [] from hstack] at hin
        cases hin
      · cases how : owed w.log with
        | true => exact Or.inl how
        | false => exact Or.inr (hc.1 how)
  | @connected s _ _ _ _ hconn =>
      have htake : ClosedInv (w.take s.id) :=
        hsame rfl (fun _ hs => hs) rfl rfl (List.append_nil _).symm rfl
      refine (connectedNow_closedInv htake hconn).congr rfl (fun _ hs => hs) rfl
        (fun hno => ⟨hno, fun how => ?_⟩) (fun c k hmem => ?_)
      · show owed (w.log ++ _) = true
        rw [owed_append, show owed w.log = true from how]
        rfl
      · rcases List.mem_cons.mp hmem with heq | hmem
        · cases heq
        · exact Or.inl hmem
  | errWaiting _ _ _ _ _ =>
      exact hsame rfl (fun _ hs => hs) (lmSockGetError_fds ..) rfl (List.append_nil _).symm rfl
  | @errFailed s g os _ _ hlive hcond _ _ hnext =>
      have hread : ClosedInv (readError g (w.take s.id)) :=
        hsame rfl (fun _ hs => hs) (lmSockGetError_fds ..) rfl (List.append_nil _).symm rfl
      refine hread.attempts (fun hin => ?_) (fun _ => ?_) hnext
      · rw [show (readError g (w.take s.id)).stack = [] from hlive.idle] at hin
        cases hin
      · exact Or.inl (h.owed_of_err hlive hcond hc.1)
  | connectDone hk =>
      obtain ⟨o, -, -, -, rfl⟩ := connectDone_some hk
      exact hsame rfl (fun _ hs => hs) (modify_fds ..) rfl (List.append_nil _).symm rfl
  | connectionError hk =>
      obtain ⟨o, -, -, -, -, rfl⟩ := connectionError_some hk
      exact hsame rfl (fun _ hs => hs) (modify_fds ..) rfl (List.append_nil _).symm rfl

theorem closed_step {w w' : World} {l : Label} (h : ClosedInv w)
    (hlog : OncePerConnect false w.log) (hc : ClosedInOrder w l)
    (hstep : step w l = some w') : OncePerConnect false w'.log := by
  have hone : ∀ {e : Event}, e.isClosed = false ∨ owed w.log = true →
      OncePerConnect false (w.log ++ [e]) := by
    intro e he
    refine oncePerConnect_step hlog (he.imp (fun hno e' he' => ?_) fun how => ⟨rfl, how⟩)
    rw [List.mem_singleton.mp he']
    exact hno
  cases step_cases hstep with
  | connectLookup _ _ | lateLookup _ _ _ | lookupFailed _ _ _ | lateDispatch _ _
  | readable _ _ _ | writeable _ _ _ _ | connected _ _ _ _ => exact hone (Or.inl rfl)
  | poll _ _ _ | errWaiting _ _ _ _ _ | connectDone _ | connectionError _ => exact hlog
  | connectAttempt _ _ hnext =>
      exact oncePerConnect_of_untouched (hone (Or.inl rfl)) (untouched_of_next hnext).1
  | close _ =>
      refine hone (Or.inr ?_)
      by_contra hno
      exact hc.1 (by simpa using hno)
  | finalize _ _ =>
      show OncePerConnect false (socketReset w).log
      rw [socketReset_log]
      exact hone (Or.inl rfl)
  | @resume f rest _ =>
      rcases resume_cases f { w with stack := rest } with
        ⟨k, -, hw⟩ | ⟨c, k, -, hw⟩ | ⟨-, hw⟩ <;> rw [hw]
      · exact hone (Or.inl rfl)
      · rw [returnTo_log, socketReset_log]
        exact hone (Or.inl rfl)
      · rw [returnTo_log]
        exact hlog
  | lookupOk _ _ _ hnext =>
      exact oncePerConnect_of_untouched (w := lookedUp _ _ w) hlog (untouched_of_next hnext).1
  | errConnected _ hlive hcond _ => exact hone (Or.inr (h.owed_of_err hlive hcond hc.1))
  | errFailed _ _ _ _ _ hnext =>
      exact oncePerConnect_of_untouched (w := readError _ (w.take _)) hlog (untouched_of_next hnext).1
  | hup _ hlive hcond =>
      have hrec := h.hups _ hlive.attached hcond
      exact hone (Or.inr (h.owed_of_recorded (c := .hup) hlive.idle hrec))

/-- There is no such connection for the cleanup to tear down. -/
theorem survives_step {w w' : World} {l : Label} (h : ClosedInv w) : Survives w l w' := by
  unfold Survives
  split
  · next c k rest hstack =>
      intro hin
      rw [h.old c k (by rw [hstack]; exact List.mem_cons_self ..)] at hin
      cases hin
  · trivial

/-! ## The run -/

theorem closed_once (sa : LmSocketAddress) (as : List Label)
    (hc : Meets step ClosedInOrder (lmSocketNew sa) as) :
    Along step ClosedOnce (lmSocketNew sa) as := by
  have hstart : ClosedInv (lmSocketNew sa) ∧ OncePerConnect false (lmSocketNew sa).log :=
    ⟨closedInv_new sa, trivial⟩
  refine along_of_invariant (I := fun w => ClosedInv w ∧ OncePerConnect false w.log) ?_
    hstart hc
  intro w l w' hinv hl hs
  obtain ⟨h, hlog⟩ := hinv
  have hlog' := closed_step h hlog hl hs
  exact ⟨⟨hlog', survives_step h⟩, closedInv_step h hl hs, hlog'⟩

/-- The peer hangs up; a handler of `closed` starts a lookup, and the next
connection is made when it is done. -/
theorem closed_once_reconnect :
    Along step ClosedOnce (lmSocketNew sampleSa)
      [.connect [⟨5, 0, 0⟩], .poll [⟨0, 0⟩], .dispatch 0 0 [], .handlersDone, .handlersDone,
        .poll [⟨3, 0⟩], .dispatch 3 0 [], .handlersDone, .connect [⟨5, 0, 0⟩], .close,
        .handlersDone] :=
  closed_once _ _ (by decide)

/-- Closing twice emits twice, and a connection started from a handler of
`closed` does not outlive it. -/
theorem closed_twice_and_reconnect_lost :
    ¬ Along step ClosedOnce (lmSocketNew sampleSa)
        [.connect [⟨5, 0, 0⟩], .close, .handlersDone, .close] ∧
      ¬ Along step ClosedOnce (lmSocketNew sampleSa)
        [.connect [⟨5, 0, 0⟩], .close, .connect [⟨6, 0, 0⟩], .handlersDone] := by
  constructor <;> decide

end LmTransport.Ref
