import LmTransport.Proofs.Descriptors

/-!
# When `LM_SOCKET_CONNECT_OK` is true

`socket_out_cb` takes the first `G_IO_OUT` it sees for a successful connect.
It is one if the descriptor the poll found writeable is the current one and its
connect did not fail, and neither is checked: a connect that failed is
writeable too, and a watch left over from an earlier attempt reports on a
descriptor the socket has moved on from. The number does not tell them apart:
another callback of the same round may have closed it and got it again for the
next attempt, and a number that was closed may be another part of the process's
by now. The `opened` signal comes after the handlers of the result, whatever
they did to the socket in between.

The condition of this file excludes just that: an unconnected socket is not
handed a `G_IO_OUT` that the poll found on anything but the current attempt or
on a refused one, and the handlers of a successful result neither reset the
socket nor make it open another descriptor.
-/

namespace LmTransport.Ref

open Lts

/-- What the descriptor in `priv->handle` stands for, if the socket opened
it. -/
def ownFile (w : World) : Option Nat :=
  (w.kernel.fds w.priv.handle).filter fun file => !w.kernel.others.contains file

/-- The attempt on the descriptor in `priv->handle` has completed
successfully. -/
def ConnectSucceeded (w : World) : Prop :=
  ((ownFile w).bind fun file => w.kernel.objs[file]?).any (fun o => o.status.succeeded) = true

instance (w : World) : Decidable (ConnectSucceeded w) :=
  inferInstanceAs (Decidable (_ = _))

/-- How often the socket has said that it is connected. -/
def successes (log : List Event) : Nat :=
  log.countP fun e => e = .emit (.connectResult .ok) ∨ e = .emit .opened

/-- The step emits `connect_result (LM_SOCKET_CONNECT_OK)` or `opened`, or
makes the socket a connected one. -/
def Announces (w w' : World) : Prop :=
  successes w.log < successes w'.log ∨
    (w.priv.connected = false ∧ w'.priv.connected = true)

instance (w w' : World) : Decidable (Announces w w') :=
  inferInstanceAs (Decidable (_ ∨ _))

def TruthfulResult (w : World) (_ : Process.Label) (w' : World) : Prop :=
  Announces w w' → ConnectSucceeded w'

instance (w : World) (l : Process.Label) (w' : World) : Decidable (TruthfulResult w l w') :=
  inferInstanceAs (Decidable (_ → _))

/-- The handlers of a successful connect result are still running. -/
def announcing (stack : List Frame) : Bool :=
  stack.any fun
    | .connectResult .ok _ => true
    | _ => false

/-- The poll found this source on the current attempt, which was not refused. -/
def foundCurrent (w : World) (src : Nat) : Bool :=
  w.found.any fun f =>
    f.src == src && ownFile w == some f.file &&
      (w.kernel.objs[f.file]?).any fun o => o.status != .refused

/-- An unconnected socket is about to be handed a `G_IO_OUT` that says nothing
about its current attempt. -/
def misleadingOut (w : World) : Process.Label → Bool
  | .socket (.dispatch src _ _) =>
      (w.ctx.find src).any fun s =>
        s.condition == .out && !w.priv.connected && !foundCurrent w src
  | _ => false

/-- The socket is reset, or opens another descriptor. -/
def leavesAttempt (w : World) : Process.Label → Bool
  | .socket l => runsReset w l || !l.calls.isEmpty
  | _ => false

/-- What a run has to avoid for its connect results to be true. -/
def NoFalseStart (w : World) (l : Process.Label) : Prop :=
  misleadingOut w l = false ∧ (announcing w.stack = true → leavesAttempt w l = false)

instance (w : World) (l : Process.Label) : Decidable (NoFalseStart w l) :=
  inferInstanceAs (Decidable (_ ∧ (_ → _)))

/-! ## What becomes of an attempt

An attempt that is over stays over, and a success a success. -/

def Kernel.Grows (k k' : Kernel) : Prop :=
  ∀ (i : Nat) (o : SockObj), k.objs[i]? = some o → ∃ o' : SockObj, k'.objs[i]? = some o' ∧
    (o.status.succeeded = true → o'.status.succeeded = true) ∧
    (o.status = .refused → o'.status = .refused)

theorem Kernel.Grows.of_objs {k k' : Kernel} (h : k'.objs = k.objs) : k.Grows k' :=
  fun _ o ho => ⟨o, h ▸ ho, id, id⟩

theorem Kernel.Grows.trans {k k' k'' : Kernel} (h : k.Grows k') (h' : k'.Grows k'') :
    k.Grows k'' := by
  intro i o ho
  obtain ⟨o', ho', hsucc, href⟩ := h i o ho
  obtain ⟨o'', ho'', hsucc', href'⟩ := h' i o' ho'
  exact ⟨o'', ho'', hsucc' ∘ hsucc, href' ∘ href⟩

theorem Kernel.Grows.append {k k' : Kernel} {new : SockObj} (h : k'.objs = k.objs ++ [new]) :
    k.Grows k' := by
  intro i o ho
  obtain ⟨hlt, -⟩ := List.getElem?_eq_some_iff.mp ho
  exact ⟨o, by rw [h, List.getElem?_append_left hlt, ho], id, id⟩

theorem Kernel.Grows.modify {k : Kernel} {fd : Int} {f : SockObj → SockObj}
    (hf : ∀ o, k.obj fd = some o →
      (o.status.succeeded = true → (f o).status.succeeded = true) ∧
      (o.status = .refused → (f o).status = .refused)) : k.Grows (k.modify fd f) := by
  intro i o ho
  cases hfd : k.fds fd with
  | none => exact ⟨o, by rw [Kernel.modify, hfd]; exact ho, id, id⟩
  | some j =>
      by_cases hij : j = i
      · subst hij
        obtain ⟨hsucc, href⟩ := hf o (obj_some.mpr ⟨j, hfd, ho⟩)
        exact ⟨f o, by simp [Kernel.modify, hfd, ho], hsucc, href⟩
      · exact ⟨o, by simp [Kernel.modify, hfd, hij, ho], id, id⟩

theorem grows_getError (k : Kernel) (fd garbage : Int) :
    k.Grows (lmSockGetError k fd garbage).2 := by
  unfold lmSockGetError
  split
  · exact .of_objs rfl
  · exact .modify fun _ _ => ⟨id, id⟩

theorem grows_connectDone {k k' : Kernel} {fd err : Int}
    (h : k.connectDone fd err = some k') : k.Grows k' := by
  obtain ⟨o, ho, hprog, -, rfl⟩ := connectDone_some h
  refine .modify fun o' ho' => ?_
  rw [ho, Option.some.injEq] at ho'
  subst ho'
  refine ⟨fun hs => ?_, fun hr => ?_⟩
  · rw [hprog] at hs
    cases hs
  · rw [hprog] at hr
    cases hr

theorem grows_connectionError {k k' : Kernel} {fd err : Int}
    (h : k.connectionError fd err = some k') : k.Grows k' := by
  obtain ⟨o, ho, hup, -, -, rfl⟩ := connectionError_some h
  refine .modify fun o' ho' => ⟨fun _ => rfl, fun hr => ?_⟩
  rw [ho, Option.some.injEq] at ho'
  rw [← ho', hup] at hr
  cases hr

/-- A round of attempts adds to the history, and polls nothing. -/
theorem grows_of_next {k : Caller} {os : List SysCalls} {w w' : World}
    (h : socketAttemptConnectNext k os w = some w') :
    w.kernel.Grows w'.kernel ∧ w'.found = w.found := by
  have hiter : w.kernel.Grows (socketGetIter w).kernel ∧ (socketGetIter w).found = w.found := by
    unfold socketGetIter
    split <;> exact ⟨.of_objs rfl, rfl⟩
  refine attemptLoop_rule (C := fun _ => True)
    (I := fun w₁ => w.kernel.Grows w₁.kernel ∧ w₁.found = w.found)
    (J := fun w₁ => w.kernel.Grows w₁.kernel ∧ w₁.found = w.found)
    ?_ ?_ ?_ ?_ (fun _ _ => trivial) hiter h
  · intro w₁ hI _
    exact hI
  · intro w₁ addr rest o hI _ _ _
    exact ⟨hI.1.trans (.append rfl), hI.2⟩
  · intro w₁ addr rest o hI _ _ _ _ _
    exact ⟨hI.1.trans (.append rfl), hI.2⟩
  · intro w₁ addr rest o hI _ _ _ _ _
    rw [returnTo_kernel, returnTo_found]
    exact ⟨hI.1.trans (.append rfl), hI.2⟩

/-- What the last poll found has been connected or refused. -/
def FoundOver (w : World) : Prop :=
  ∀ f ∈ w.found, ∃ o, w.kernel.objs[f.file]? = some o ∧
    (o.status = .refused ∨ o.status.succeeded = true)

theorem FoundOver.grows {w w' : World} (h : FoundOver w) (hgrows : w.kernel.Grows w'.kernel)
    (hfound : ∀ f ∈ w'.found, f ∈ w.found) : FoundOver w' := by
  intro f hf
  obtain ⟨o, ho, hover⟩ := h f (hfound f hf)
  obtain ⟨o', ho', hsucc, href⟩ := hgrows _ o ho
  exact ⟨o', ho', hover.imp href hsucc⟩

theorem FoundOver.congr {w w' : World} (h : FoundOver w) (hkernel : w'.kernel = w.kernel)
    (hfound : w'.found = w.found) : FoundOver w' :=
  h.grows (.of_objs (by rw [hkernel])) fun _ hf => hfound ▸ hf

theorem FoundOver.reset {w : World} (h : FoundOver w) : FoundOver (socketReset w) :=
  h.grows (.of_objs (by rw [socketReset_kernel]; rfl)) fun _ hf => by rwa [socketReset_found] at hf

theorem FoundOver.returnTo {w : World} (h : FoundOver w) (k : Caller) :
    FoundOver (returnTo k w) :=
  h.congr (returnTo_kernel k w) (returnTo_found k w)

theorem FoundOver.take {w : World} (h : FoundOver w) (src : Nat) : FoundOver (w.take src) :=
  h.grows (.of_objs rfl) fun _ hf => List.mem_of_mem_filter hf

theorem FoundOver.readError {w : World} (h : FoundOver w) (garbage : Int) :
    FoundOver (readError garbage w) :=
  h.grows (grows_getError w.kernel w.priv.handle garbage) fun _ hf => hf

theorem FoundOver.attempts {k : Caller} {os : List SysCalls} {w w' : World} (h : FoundOver w)
    (hnext : socketAttemptConnectNext k os w = some w') : FoundOver w' := by
  obtain ⟨hgrows, hfound⟩ := grows_of_next hnext
  exact h.grows hgrows fun _ hf => hfound ▸ hf

theorem FoundOver.resume {f : Frame} {w : World} (h : FoundOver w) : FoundOver (resume f w) := by
  rcases resume_cases f w with ⟨k, -, hw⟩ | ⟨c, k, -, hw⟩ | ⟨-, hw⟩ <;> rw [hw]
  · exact h.congr rfl rfl
  · exact h.reset.returnTo k
  · exact h.returnTo _

/-- Only a descriptor whose attempt is over is ever ready. -/
theorem foundOver_poll {w : World} {found : List Found}
    (hfound : ∀ f ∈ found, w.finds f = true) : FoundOver { w with found } := by
  intro f hf
  obtain ⟨s, -, hready⟩ := Option.any_eq_true .. |>.mp (hfound f hf)
  rw [Bool.and_eq_true, beq_iff_eq] at hready
  obtain ⟨o, ho, hover⟩ := succeeded_of_ready hready.1
  obtain ⟨i, hi, hoi⟩ := obj_some.mp ho
  rw [hready.2, Option.some.injEq] at hi
  exact ⟨o, hi ▸ hoi, hover⟩

theorem foundOver_step {w w' : World} {l : Label} (h : FoundOver w)
    (hstep : step w l = some w') : FoundOver w' := by
  cases step_cases hstep with
  | connectLookup _ _ | close _ | lateLookup _ _ _ | lookupFailed _ _ _ => exact h
  | connectAttempt _ _ hnext => exact FoundOver.attempts (w := w.note .connectCall) h hnext
  | finalize _ _ => exact h.reset
  | resume _ => exact FoundOver.resume (h.congr rfl rfl)
  | lookupOk _ _ _ hnext => exact FoundOver.attempts (w := lookedUp _ _ w) h hnext
  | poll _ _ hfound => exact foundOver_poll hfound
  | lateDispatch _ _ | readable _ _ _ | writeable _ _ _ _ | connected _ _ _ _
  | errConnected _ _ _ _ | hup _ _ _ => exact (h.take _).congr rfl rfl
  | errWaiting _ _ _ _ _ => exact (h.take _).readError _
  | errFailed _ _ _ _ _ hnext => exact ((h.take _).readError _).attempts hnext
  | connectDone hk => exact h.grows (grows_connectDone hk) fun _ hf => hf
  | connectionError hk => exact h.grows (grows_connectionError hk) fun _ hf => hf

theorem foundOver_process {w w' : World} {l : Process.Label} (h : FoundOver w)
    (hstep : Process.step w l = some w') : FoundOver w' := by
  cases Process.step_cases hstep with
  | socket hstep => exact foundOver_step h hstep
  | lastUnref _ _ =>
      have hidle : FoundOver { w with stack := [] } := h
      exact FoundOver.returnTo (w := socketFinalize { w with stack := [] }) hidle.reset _
  | openOther _ _ => exact h.grows (.append rfl) fun _ hf => hf

/-! ## What keeps a connect successful -/

theorem ownFile_some {w : World} {file : Nat} :
    ownFile w = some file ↔
      w.kernel.fds w.priv.handle = some file ∧ file ∉ w.kernel.others := by
  rw [ownFile, Option.filter_eq_some_iff]
  simp

theorem connectSucceeded_iff {w : World} :
    ConnectSucceeded w ↔
      ∃ file o, w.kernel.fds w.priv.handle = some file ∧ file ∉ w.kernel.others ∧
        w.kernel.objs[file]? = some o ∧ o.status.succeeded = true := by
  unfold ConnectSucceeded
  constructor
  · intro h
    obtain ⟨o, ho, hs⟩ := Option.any_eq_true .. |>.mp h
    obtain ⟨file, hfile, hobj⟩ := Option.bind_eq_some_iff.mp ho
    obtain ⟨hfd, hown⟩ := ownFile_some.mp hfile
    exact ⟨file, o, hfd, hown, hobj, hs⟩
  · rintro ⟨file, o, hfd, hown, hobj, hs⟩
    rw [ownFile_some.mpr ⟨hfd, hown⟩, Option.bind_some, hobj]
    exact hs

theorem ConnectSucceeded.congr {w w' : World} (h : ConnectSucceeded w)
    (hkernel : w'.kernel = w.kernel) (hhandle : w'.priv.handle = w.priv.handle) :
    ConnectSucceeded w' := by
  unfold ConnectSucceeded ownFile
  rw [hkernel, hhandle]
  exact h

/-- Neither what the kernel does nor what other parts of the process open takes
it away. -/
theorem ConnectSucceeded.grows {w w' : World} (h : ConnectSucceeded w)
    (hgrows : w.kernel.Grows w'.kernel)
    (hfds : ∀ file, w.kernel.fds w.priv.handle = some file →
      w'.kernel.fds w'.priv.handle = some file)
    (hothers : ∀ file < w.kernel.objs.length, file ∈ w'.kernel.others →
      file ∈ w.kernel.others) : ConnectSucceeded w' := by
  obtain ⟨file, o, hfd, hown, hobj, hs⟩ := connectSucceeded_iff.mp h
  obtain ⟨o', hobj', hsucc, -⟩ := hgrows file o hobj
  obtain ⟨hlt, -⟩ := List.getElem?_eq_some_iff.mp hobj
  exact connectSucceeded_iff.mpr
    ⟨file, o', hfds file hfd, fun hmem => hown (hothers file hlt hmem), hobj', hsucc hs⟩

theorem ConnectSucceeded.otherOpened {w : World} {addr : AddrInfo} {fd : Int}
    (h : ConnectSucceeded w) (hclosed : w.kernel.isOpen fd = false) :
    ConnectSucceeded (Process.otherOpened addr fd w) := by
  refine h.grows (.append rfl) (fun file hfile => ?_) fun file hlt hmem => ?_
  · have hne : w.priv.handle ≠ fd := by
      rintro rfl
      rw [Kernel.isOpen, hfile] at hclosed
      cases hclosed
    exact (setFd_of_ne hne).trans hfile
  · rcases List.mem_cons.mp hmem with rfl | hmem
    · omega
    · exact hmem

/-- A round that obtains no answers from the system leaves the kernel and the
handle as they are. -/
theorem kept_of_no_calls {k : Caller} {w w' : World}
    (h : socketAttemptConnectNext k [] w = some w') :
    w'.kernel = w.kernel ∧ w'.priv.handle = w.priv.handle := by
  have hiter : (socketGetIter w).kernel = w.kernel ∧
      (socketGetIter w).priv.handle = w.priv.handle := by
    unfold socketGetIter
    split <;> exact ⟨rfl, rfl⟩
  refine attemptLoop_rule (C := fun _ => False)
    (I := fun w₁ => w₁.kernel = w.kernel ∧ w₁.priv.handle = w.priv.handle)
    (J := fun w₁ => w₁.kernel = w.kernel ∧ w₁.priv.handle = w.priv.handle)
    ?_ ?_ ?_ ?_ (fun o ho => absurd ho (List.not_mem_nil)) hiter h
  · intro w₁ hI _
    exact hI
  · intro w₁ addr rest o _ _ hC
    exact hC.elim
  · intro w₁ addr rest o _ _ hC
    exact hC.elim
  · intro w₁ addr rest o _ _ hC
    exact hC.elim

/-! ## Where a success is announced -/

@[simp] theorem successes_append (log log' : List Event) :
    successes (log ++ log') = successes log + successes log' :=
  List.countP_append

theorem successes_ofAttempts {evs : List Event} (h : ∀ e ∈ evs, e.ofAttempts = true) :
    successes evs = 0 := by
  refine List.countP_eq_zero.mpr fun e he => ?_
  have hatt := h e he
  intro hsucc
  rw [decide_eq_true_eq] at hsucc
  rcases hsucc with rfl | rfl <;> cases hatt

theorem not_announces_of_same {w w' : World} (hlog : successes w'.log = successes w.log)
    (hconn : w'.priv.connected = true → w.priv.connected = true) : ¬ Announces w w' := by
  intro h
  rcases h with h | ⟨hno, hyes⟩
  · omega
  · rw [hconn hyes] at hno
    cases hno

theorem Untouched.not_announces {w₀ w w' : World} (h : Untouched w w')
    (hlog : successes w.log = successes w₀.log)
    (hconn : w.priv.connected = w₀.priv.connected) : ¬ Announces w₀ w' := by
  obtain ⟨evs, hevs, hall⟩ := h.log
  refine not_announces_of_same ?_ (fun hc => ?_)
  · rw [hevs, successes_append, successes_ofAttempts hall, hlog, Nat.add_zero]
  · rw [← hconn, ← h.connected]
    exact hc

/-- The two places that announce a success: the first `G_IO_OUT` of an
unconnected socket, and the emission of `opened` once the handlers of the
connect result are done. -/
theorem announces_cases {w w' : World} {l : Label} (hstep : step w l = some w')
    (h : Announces w w') :
    (∃ s g os, l = .dispatch s.id g os ∧ Live w s ∧ s.condition = .out ∧
      w.priv.connected = false ∧ w'.kernel = w.kernel ∧
      w'.priv.handle = w.priv.handle) ∨
    (∃ k rest, w.stack = .connectResult .ok k :: rest ∧ w'.kernel = w.kernel ∧
      w'.priv.handle = w.priv.handle) := by
  have hlog : ∀ e : Event, successes [e] = 0 → successes (w.log ++ [e]) = successes w.log :=
    fun e he => by rw [successes_append, he, Nat.add_zero]
  cases step_cases hstep with
  | connectLookup _ _ | close _ | lateLookup _ _ _ | lookupFailed _ _ _ | lateDispatch _ _
  | readable _ _ _ | writeable _ _ _ _ | errConnected _ _ _ _ | hup _ _ _ =>
      exact absurd h (not_announces_of_same (hlog _ rfl) id)
  | poll _ _ _ | errWaiting _ _ _ _ _ | connectDone _ | connectionError _ =>
      exact absurd h (not_announces_of_same rfl id)
  | connectAttempt _ _ hnext =>
      exact absurd h ((untouched_of_next hnext).1.not_announces (hlog _ rfl) rfl)
  | finalize _ _ =>
      refine absurd h (not_announces_of_same ?_ fun hc => ?_)
      · show successes (socketReset w).log = _
        rw [socketReset_log]
        exact hlog _ rfl
      · exact absurd hc (by simp [socketFinalize])
  | @resume f rest hstack =>
      rcases resume_cases f { w with stack := rest } with
        ⟨k, rfl, hw⟩ | ⟨c, k, rfl, hw⟩ | ⟨-, hw⟩
      · exact Or.inr ⟨k, rest, hstack, rfl, rfl⟩
      · refine absurd h (not_announces_of_same ?_ fun hc => ?_)
        · rw [hw, returnTo_log, socketReset_log]
          exact hlog _ rfl
        · rw [hw, returnTo_priv, socketReset_priv] at hc
          cases hc
      · refine absurd h (not_announces_of_same ?_ fun hc => ?_)
        · rw [hw, returnTo_log]
        · rwa [hw, returnTo_priv] at hc
  | lookupOk _ _ _ hnext => exact absurd h ((untouched_of_next hnext).1.not_announces rfl rfl)
  | connected _ hlive hc hconn => exact Or.inl ⟨_, _, _, rfl, hlive, hc, hconn, rfl, rfl⟩
  | errFailed _ _ _ _ _ hnext => exact absurd h ((untouched_of_next hnext).1.not_announces rfl rfl)

/-! ## The run -/

/-- While the handlers of a successful result run, it stays true. -/
def ResultStands (w : World) : Prop := announcing w.stack = true → ConnectSucceeded w

/-- A step that keeps the kernel and the handle, and announces nothing new. -/
theorem ResultStands.congr {w w' : World} (h : ResultStands w)
    (hkernel : w'.kernel = w.kernel) (hhandle : w'.priv.handle = w.priv.handle)
    (hstack : announcing w'.stack = true → announcing w.stack = true) : ResultStands w' :=
  fun hann => (h (hstack hann)).congr hkernel hhandle

theorem ResultStands.of_idle {w w' : World} (hidle : w.stack = [])
    (hstack : w'.stack = w.stack ∨ ∃ f, w'.stack = f :: w.stack ∧ announcing [f] = false) :
    ResultStands w' := by
  intro hann
  rcases hstack with hs | ⟨f, hs, hf⟩
  · rw [hs, hidle] at hann
    cases hann
  · rw [hs, hidle, hf] at hann
    cases hann

theorem ResultStands.attempts {k : Caller} {os : List SysCalls} {w w' : World}
    (h : ResultStands w) (hos : announcing w.stack = true → os = [])
    (hnext : socketAttemptConnectNext k os w = some w') : ResultStands w' := by
  intro hann
  have hwas : announcing w.stack = true := by
    rcases (untouched_of_next hnext).2 with hs | hs
    · rwa [hs] at hann
    · rw [hs] at hann
      exact hann
  have hnil := hos hwas
  subst hnil
  obtain ⟨hkernel, hhandle⟩ := kept_of_no_calls hnext
  exact (h hwas).congr hkernel hhandle

/-- A `G_IO_OUT` that the poll found on the current attempt, not refused, means
what the socket takes it to mean. -/
theorem connectSucceeded_of_out {w : World} {s : GSource} {g : Int} {os : List SysCalls}
    (hover : FoundOver w) (hlive : Live w s) (hc : s.condition = .out)
    (hconn : w.priv.connected = false)
    (hlead : misleadingOut w (.socket (.dispatch s.id g os)) = false) : ConnectSucceeded w := by
  simp only [misleadingOut, hlive.found, Option.any_some, hc, hconn, beq_self_eq_true,
    Bool.not_false, Bool.true_and, Bool.not_eq_false'] at hlead
  obtain ⟨f, hf, hcurrent⟩ := List.any_eq_true.mp hlead
  rw [Bool.and_eq_true, Bool.and_eq_true, beq_iff_eq] at hcurrent
  obtain ⟨hfd, hown⟩ := ownFile_some.mp (beq_iff_eq.mp hcurrent.1.2)
  obtain ⟨o, hobj, hstatus⟩ := hover f hf
  rw [hobj, Option.any_some, bne_iff_ne] at hcurrent
  exact connectSucceeded_iff.mpr
    ⟨f.file, o, hfd, hown, hobj, hstatus.resolve_left hcurrent.2⟩

theorem ResultStands.resume {f : Frame} {rest : List Frame} {w : World}
    (h : ResultStands w) (hstack : w.stack = f :: rest)
    (hreset : announcing w.stack = true → runsReset w .handlersDone = false) :
    ResultStands (resume f { w with stack := rest }) := by
  have hrest : announcing rest = true → announcing w.stack = true := fun hr => by
    rw [hstack, announcing, List.any_cons]
    exact Bool.or_eq_true_iff.mpr (Or.inr hr)
  rcases resume_cases f { w with stack := rest } with
    ⟨k, rfl, hw⟩ | ⟨c, k, rfl, hw⟩ | ⟨-, hw⟩ <;> rw [hw]
  · exact h.congr rfl rfl hrest
  · -- this frame resets the socket, so no result was being announced
    intro hann
    rw [returnTo_stack, socketReset_stack] at hann
    have hno := hreset (hrest hann)
    rw [runsReset, hstack] at hno
    cases hno
  · exact h.congr (by rw [returnTo_kernel]) (by rw [returnTo_priv])
      (fun hr => hrest (by rwa [returnTo_stack] at hr))

theorem resultStands_step {w w' : World} {l : Label} (h : ResultStands w) (hover : FoundOver w)
    (hc : NoFalseStart w (.socket l)) (hstep : step w l = some w') : ResultStands w' := by
  have hleaves : announcing w.stack = true → runsReset w l = false ∧ l.calls = [] := fun ha => by
    simpa [leavesAttempt] using hc.2 ha
  cases step_cases hstep with
  | connectLookup _ _ | close _ => exact h.congr rfl rfl id
  | connectAttempt _ _ hnext =>
      exact ResultStands.attempts (w := w.note .connectCall) h (fun ha => (hleaves ha).2) hnext
  | finalize _ hstack =>
      refine ResultStands.of_idle hstack (Or.inl ?_)
      exact socketReset_stack w
  | resume hstack => exact h.resume hstack fun ha => (hleaves ha).1
  | lateLookup _ _ hstack | poll hstack _ _ => exact .of_idle hstack (Or.inl rfl)
  | lookupFailed _ _ hstack => exact .of_idle hstack (Or.inr ⟨_, rfl, rfl⟩)
  | lookupOk _ _ hstack hnext =>
      refine .of_idle hstack ((untouched_of_next hnext).2.imp id fun hs => ⟨_, hs, rfl⟩)
  | lateDispatch _ hlive => exact .of_idle hlive.idle (Or.inl rfl)
  | readable _ hlive _ | writeable _ hlive _ _ | errConnected _ hlive _ _ | hup _ hlive _ =>
      exact .of_idle hlive.idle (Or.inr ⟨_, rfl, rfl⟩)
  | connected _ hlive hcond hconn =>
      exact fun _ => (connectSucceeded_of_out hover hlive hcond hconn hc.1).congr rfl rfl
  | errWaiting _ hlive _ _ _ => exact .of_idle hlive.idle (Or.inl rfl)
  | errFailed _ hlive _ _ _ hnext =>
      refine .of_idle hlive.idle ((untouched_of_next hnext).2.imp id fun hs => ⟨_, hs, rfl⟩)
  | connectDone hk =>
      obtain ⟨o, -, -, -, rfl⟩ := connectDone_some hk
      refine fun hann => (h hann).grows (grows_connectDone hk) (fun file hfile => ?_) ?_
      · exact (congrFun (modify_fds ..) _).trans hfile
      · intro file _ hmem
        rwa [modify_others] at hmem
  | connectionError hk =>
      obtain ⟨o, -, -, -, -, rfl⟩ := connectionError_some hk
      refine fun hann => (h hann).grows (grows_connectionError hk) (fun file hfile => ?_) ?_
      · exact (congrFun (modify_fds ..) _).trans hfile
      · intro file _ hmem
        rwa [modify_others] at hmem

theorem truthful_step {w w' : World} {l : Label} (h : ResultStands w) (hover : FoundOver w)
    (hc : NoFalseStart w (.socket l)) (hstep : step w l = some w') :
    TruthfulResult w (.socket l) w' := by
  intro hann
  rcases announces_cases hstep hann with
    ⟨s, g, os, rfl, hlive, hcond, hconn, hkernel, hhandle⟩ | ⟨k, rest, hstack, hkernel, hhandle⟩
  · exact (connectSucceeded_of_out hover hlive hcond hconn hc.1).congr hkernel hhandle
  · refine (h ?_).congr hkernel hhandle
    rw [hstack]
    rfl

/-- The socket that goes away announces nothing, nor does another part of the
process. -/
theorem truthful_process {w w' : World} {l : Process.Label} (h : ResultStands w)
    (hover : FoundOver w) (hc : NoFalseStart w l) (hstep : Process.step w l = some w') :
    TruthfulResult w l w' ∧ ResultStands w' := by
  cases Process.step_cases hstep with
  | socket hstep => exact ⟨truthful_step h hover hc hstep, resultStands_step h hover hc hstep⟩
  | @lastUnref f _ hstack =>
      have hgone : (returnTo f.caller (socketFinalize { w with stack := [] })).stack = [] := by
        rw [returnTo_stack]
        exact socketReset_stack _
      refine ⟨fun hann => absurd hann (not_announces_of_same ?_ fun hconn => ?_), fun hann => ?_⟩
      · rw [returnTo_log]
        show successes (socketReset { w with stack := [] }).log = _
        rw [socketReset_log, successes_append]
        rfl
      · rw [returnTo_priv] at hconn
        exact absurd hconn (by simp [socketFinalize])
      · rw [hgone] at hann
        cases hann
  | openOther _ hclosed =>
      exact ⟨fun hann => absurd hann (not_announces_of_same rfl id),
        fun hann => (h hann).otherOpened hclosed⟩

theorem connect_results_true (sa : LmSocketAddress) (as : List Process.Label)
    (hc : Meets Process.step NoFalseStart (lmSocketNew sa) as) :
    Along Process.step TruthfulResult (lmSocketNew sa) as := by
  have hstart : ResultStands (lmSocketNew sa) ∧ FoundOver (lmSocketNew sa) :=
    ⟨(fun hann => by cases hann), nofun⟩
  refine along_of_invariant (I := fun w => ResultStands w ∧ FoundOver w) ?_ hstart hc
  intro w l w' h hl hs
  obtain ⟨htrue, hstands⟩ := truthful_process h.1 h.2 hl hs
  exact ⟨htrue, hstands, foundOver_process h.2 hs⟩

/-- The first address refuses at once, and the second attempt gets its
descriptor: the watches of both poll it, and it is the older one that is
dispatched first. -/
theorem connect_results_true_fallback :
    Along Process.step TruthfulResult (lmSocketNew sampleSa)
      [.socket (.connect [⟨5, -1, 111⟩, ⟨5, -1, 115⟩]), .socket (.connectDone 5 0),
        .socket (.poll [⟨0, 1⟩, ⟨2, 1⟩]), .socket (.dispatch 0 0 []), .socket .handlersDone,
        .socket .handlersDone, .socket (.dispatch 2 0 [])] :=
  connect_results_true _ _ (by decide)

/-- The connect is refused, which makes the descriptor ready for both watches,
and `G_IO_OUT` is dispatched first: the socket reports success. -/
theorem refused_connect_reported_ok :
    ¬ Along Process.step TruthfulResult (lmSocketNew sampleSa)
      [.socket (.connect [⟨5, -1, 115⟩]), .socket (.connectDone 5 111),
        .socket (.poll [⟨0, 0⟩, ⟨1, 0⟩]), .socket (.dispatch 0 0 [])] := by
  decide

end LmTransport.Ref
