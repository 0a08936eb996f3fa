import LmTransport.Proofs.SocketSteps
import LmTransport.Lib.Fallback

/-!
# One `lm_socket_connect` over the list of addresses

The iteration is started by the connect (or by the lookup it had to wait for)
and carried on by `socket_err_cb`, which takes the `SO_ERROR` of the current
handle for its reason to go on: zero, or no socket at all, is as good a reason
as an error. It is run by every `G_IO_ERR` watch that fires, and the watches of
earlier attempts are still attached.

The condition of this file is that a `socket_err_cb` which goes on to the next
address had an error to read. An error that has not been read belongs to the
latest attempt, and to nothing else: that is what the invariant keeps track
of, and with it the list is worked through in the sense of
`Fallback.Sequential`.
-/

namespace LmTransport.Ref

open Lts Fallback

/-- How often `LM_SOCKET_CONNECT_FAILED_TRIED_ALL` has been emitted. -/
def triedAlls (log : List Event) : Nat :=
  log.count (.emit (.connectResult .failedTriedAll))

/-- The addresses have been attempted in list order, each once and after the
one before it had failed, and the failure of all of them is reported once and
only when it is true. -/
def FallbackSafe (w : World) : Prop :=
  Sequential SockObj.addr (fun o => o.status.failed = true) w.sa.results w.kernel.objs
    (triedAlls w.log)

def Label.isConnect : Label → Bool
  | .connect _ => true
  | _ => false

/-- `socket_err_cb` is about to go on to the next address. -/
def errRetries (w : World) : Label → Bool
  | .dispatch src g _ =>
      (w.ctx.find src).any fun s =>
        s.condition == .err && !w.priv.connected &&
          !lmSockIsBlockingError (readErrorValue g w)
  | _ => false

/-- It has an error of the current descriptor to read. -/
def RetriesOnError (w : World) (l : Label) : Prop :=
  errRetries w l = true → (w.kernel.obj w.priv.handle).any (fun o => o.soError != 0) = true

instance (w : World) (l : Label) : Decidable (RetriesOnError w l) :=
  inferInstanceAs (Decidable (_ → _))

/-! ## The invariant -/

/-- A failed attempt the socket knows about. -/
def Settled (o : SockObj) : Prop := o.status.failed = true ∧ o.soError = 0

/-- A pending error is that of a failed attempt. -/
def ErrorsTrue (o : SockObj) : Prop := o.soError ≠ 0 → o.status.failed = true

/-- The iterator and the descriptor table agree with the attempts made so far:
what is left in the one is what they have left of the list, and the other
leads to the latest of them through the handle only. -/
structure InPlace (w : World) : Prop where
  iter : w.priv.saIter = true →
    w.kernel.objs.map SockObj.addr ++ w.sa.remaining = w.sa.results
  bounded : ∀ fd i, w.kernel.fds fd = some i → i < w.kernel.objs.length
  last : ∀ fd i, w.kernel.fds fd = some i → i + 1 = w.kernel.objs.length →
    fd = w.priv.handle ∧ w.priv.saIter = true

structure FallbackInv (w : World) : Prop extends InPlace w where
  seq : Sequential SockObj.addr Settled w.sa.results w.kernel.objs (triedAlls w.log)
  unread : ∀ o ∈ w.kernel.objs, ErrorsTrue o
  pending : w.lookups ≠ [] →
    w.kernel.objs = [] ∧ w.priv.saIter = false ∧ triedAlls w.log = 0
  single : w.lookups.length ≤ 1

/-- The state in which a round of attempts may start: every attempt so far has
failed, and nothing has been reported. -/
structure RoundReady (w : World) : Prop extends InPlace w where
  failed : ∀ o ∈ w.kernel.objs, Settled o
  silent : triedAlls w.log = 0
  fresh : w.priv.saIter = false → w.kernel.objs = []
  noLookup : w.lookups = []

theorem FallbackInv.safe {w : World} (h : FallbackInv w) : FallbackSafe w :=
  h.seq.mono fun _ ho => ho.1

@[simp] theorem triedAlls_append (log log' : List Event) :
    triedAlls (log ++ log') = triedAlls log + triedAlls log' :=
  List.count_append

theorem InPlace.congr {w w' : World} (h : InPlace w) (hkernel : w'.kernel = w.kernel)
    (hsa : w'.sa = w.sa) (hhandle : w'.priv.handle = w.priv.handle)
    (hiter : w'.priv.saIter = w.priv.saIter) : InPlace w' := by
  refine ⟨?_, ?_, ?_⟩
  · rw [hkernel, hsa, hiter]; exact h.iter
  · rw [hkernel]; exact h.bounded
  · rw [hkernel, hhandle, hiter]; exact h.last

/-- A step that makes no attempt and reports nothing. -/
theorem FallbackInv.congr {w w' : World} (h : FallbackInv w)
    (hkernel : w'.kernel = w.kernel) (hsa : w'.sa = w.sa)
    (hhandle : w'.priv.handle = w.priv.handle) (hiter : w'.priv.saIter = w.priv.saIter)
    (hlog : triedAlls w'.log = triedAlls w.log)
    (hlook : w'.lookups = w.lookups ∨ w'.lookups = []) : FallbackInv w' := by
  refine ⟨h.toInPlace.congr hkernel hsa hhandle hiter, ?_, ?_, ?_, ?_⟩
  · rw [hkernel, hsa, hlog]; exact h.seq
  · rw [hkernel]; exact h.unread
  · rw [hkernel, hiter, hlog]
    rcases hlook with heq | hnil
    · rw [heq]; exact h.pending
    · exact fun hno => absurd hnil hno
  · rcases hlook with heq | hnil
    · rw [heq]; exact h.single
    · rw [hnil]; exact Nat.zero_le 1

/-- Something happens to one attempt which, if it had failed and that was
known, leaves it so. -/
theorem FallbackInv.modify {w : World} {fd : Int} {f : SockObj → SockObj} (h : FallbackInv w)
    (haddr : ∀ o, (f o).addr = o.addr)
    (hf : ∀ o, w.kernel.obj fd = some o → Settled o → Settled (f o))
    (hread : ∀ o, w.kernel.obj fd = some o → ErrorsTrue o → ErrorsTrue (f o)) :
    FallbackInv { w with kernel := w.kernel.modify fd f } := by
  cases hfd : w.kernel.fds fd with
  | none =>
      rw [Kernel.modify, hfd]
      exact h
  | some i =>
      have hobj : ∀ {o}, w.kernel.objs[i]? = some o → w.kernel.obj fd = some o :=
        fun ho => obj_some.mpr ⟨i, hfd, ho⟩
      rw [Kernel.modify, hfd]
      refine ⟨⟨fun hi => ?_, fun x j hx => ?_, fun x j hx hj => ?_⟩, ?_, ?_, ?_, h.single⟩
      · rw [map_modify_of_eq haddr]
        exact h.iter hi
      · rw [List.length_modify]
        exact h.bounded x j hx
      · rw [List.length_modify] at hj
        exact h.last x j hx hj
      · exact h.seq.modify haddr fun o ho hs => hf o (hobj ho) hs
      · intro o ho
        obtain ⟨j, hj⟩ := List.mem_iff_getElem?.mp ho
        refine failed_modify ?_ ?_ hj
        · exact fun o' ho' hold => hread o' (hobj ho') hold
        · exact fun o' ho' => h.unread o' (List.mem_of_getElem? ho')
      · intro hlook
        obtain ⟨hnil, hrest⟩ := h.pending hlook
        exact ⟨by rw [hnil]; exact List.modify_nil .., hrest⟩

/-! ## A round of attempts -/

theorem RoundReady.getIter {w : World} (h : RoundReady w) :
    RoundReady (socketGetIter w) ∧ (socketGetIter w).priv.saIter = true := by
  unfold socketGetIter
  split
  · next hi => exact ⟨h, hi⟩
  · next hi =>
      have hnil := h.fresh (by simpa using hi)
      have hlog : triedAlls (w.log ++ [.resultIter w.sa.results]) = triedAlls w.log := by
        rw [triedAlls_append]; rfl
      refine ⟨⟨⟨fun _ => ?_, h.bounded, fun fd i hfd hlast => ?_⟩, h.failed, ?_, ?_,
        h.noLookup⟩, rfl⟩
      · show w.kernel.objs.map _ ++ (lmSocketAddressGetResultIter w.sa).remaining =
          (lmSocketAddressGetResultIter w.sa).results
        rw [hnil, lmSocketAddressGetResultIter_remaining, lmSocketAddressGetResultIter_results]
        rfl
      · have hlt := h.bounded fd i hfd
        rw [hnil] at hlt
        exact absurd hlt (Nat.not_lt_zero i)
      · exact hlog.trans h.silent
      · intro hno
        cases hno

/-- What an attempt adds to the kernel, whatever came of it: a new object that
no descriptor leads to except, perhaps, the new handle. -/
theorem inPlace_append {w w' : World} {o : SockObj} {rest : List AddrInfo} (h : InPlace w)
    (hi : w.priv.saIter = true) (hrem : w.sa.remaining = o.addr :: rest)
    (hobjs : w'.kernel.objs = w.kernel.objs ++ [o])
    (hfds : ∀ fd i, w'.kernel.fds fd = some i → w.kernel.fds fd = some i ∨
      (fd = w'.priv.handle ∧ i = w.kernel.objs.length))
    (hsa : w'.sa = { w.sa with resultsIter := some ⟨rest⟩ }) (hi' : w'.priv.saIter = true) :
    InPlace w' := by
  refine ⟨fun _ => ?_, fun fd i hfd => ?_, fun fd i hfd hlast => ⟨?_, hi'⟩⟩
  · have hall := h.iter hi
    rw [hrem] at hall
    rw [hobjs, hsa, List.map_append, List.append_assoc]
    exact hall
  · rw [hobjs, List.length_append, List.length_singleton]
    rcases hfds fd i hfd with hold | ⟨-, rfl⟩
    · exact Nat.lt_succ_of_lt (h.bounded fd i hold)
    · exact Nat.lt_succ_self _
  · rw [hobjs, List.length_append, List.length_singleton] at hlast
    rcases hfds fd i hfd with hold | ⟨hhandle, -⟩
    · have hlt := h.bounded fd i hold
      omega
    · exact hhandle

/-- An attempt that failed at once, with or without a socket: the round goes
on. -/
theorem RoundReady.failedAtOnce {w w' : World} {o : SockObj} {rest : List AddrInfo}
    (h : RoundReady w) (hi : w.priv.saIter = true) (hrem : w.sa.remaining = o.addr :: rest)
    (ho : Settled o) (hobjs : w'.kernel.objs = w.kernel.objs ++ [o])
    (hfds : ∀ fd i, w'.kernel.fds fd = some i → w.kernel.fds fd = some i)
    (hsa : w'.sa = { w.sa with resultsIter := some ⟨rest⟩ }) (hi' : w'.priv.saIter = true)
    (hlog : triedAlls w'.log = triedAlls w.log) (hlook : w'.lookups = w.lookups) :
    RoundReady w' := by
  refine ⟨inPlace_append h.toInPlace hi hrem hobjs (fun fd i hfd => Or.inl (hfds fd i hfd))
    hsa hi', fun b hb => ?_, hlog.trans h.silent, fun hno => ?_, hlook.trans h.noLookup⟩
  · rw [hobjs, List.mem_append, List.mem_singleton] at hb
    rcases hb with hb | rfl
    · exact h.failed b hb
    · exact ho
  · rw [hi'] at hno
    cases hno

/-- An attempt that is up or in progress ends the round. -/
theorem RoundReady.started {addr : AddrInfo} {o : SysCalls} {rest : List AddrInfo} {w : World}
    (h : RoundReady w) (hi : w.priv.saIter = true) (hrem : w.sa.remaining = addr :: rest) :
    FallbackInv (attemptStarted addr o (advanced rest w)) := by
  have hlog : triedAlls (attemptStarted addr o (advanced rest w)).log = 0 := by
    show triedAlls (w.log ++ _ ++ _) = 0
    rw [triedAlls_append, triedAlls_append, h.silent]
    rfl
  refine ⟨inPlace_append (o := ⟨addr, o.status, 0⟩) h.toInPlace hi hrem rfl
    (fun fd i hfd => ?_) rfl hi, ?_, ?_, fun hlook => absurd h.noLookup hlook, ?_⟩
  · have hfd' : setFd w.kernel.fds o.socket (some w.kernel.objs.length) fd = some i := hfd
    by_cases hnew : fd = o.socket
    · rw [hnew, setFd_self, Option.some.injEq] at hfd'
      exact Or.inr ⟨hnew, hfd'.symm⟩
    · rw [setFd_of_ne hnew] at hfd'
      exact Or.inl hfd'
  · rw [hlog]
    refine @Sequential.attempt _ _ _ _ _ _ ⟨addr, o.status, 0⟩ rest h.failed ?_
    have hall := h.iter hi
    rw [hrem] at hall
    exact hall
  · intro b hb hne
    rcases List.mem_append.mp hb with hb | hb
    · exact absurd (h.failed b hb).2 hne
    · rw [List.mem_singleton.mp hb] at hne
      exact absurd rfl hne
  · show w.lookups.length ≤ 1
    rw [h.noLookup]
    exact Nat.zero_le 1

/-- Nothing left: the round ends with the report. -/
theorem RoundReady.reported {k : Caller} {w : World} (h : RoundReady w)
    (hi : w.priv.saIter = true) (hrem : w.sa.remaining = []) :
    FallbackInv (socketEmitConnectResult .failedTriedAll k w) := by
  have hall := h.iter hi
  rw [hrem, List.append_nil] at hall
  have hlog : triedAlls (w.log ++ [.emit (.connectResult .failedTriedAll)]) = 1 := by
    rw [triedAlls_append, h.silent]
    rfl
  refine ⟨h.toInPlace.congr rfl rfl rfl rfl, ?_, fun o ho _ => (h.failed o ho).1,
    fun hlook => absurd h.noLookup hlook, ?_⟩
  · show Sequential _ _ _ _ (triedAlls (w.log ++ _))
    rw [hlog]
    exact Sequential.report h.failed hall
  · show w.lookups.length ≤ 1
    rw [h.noLookup]
    exact Nat.zero_le 1

theorem FallbackInv.returnTo {k : Caller} {w : World} (h : FallbackInv w) :
    FallbackInv (returnTo k w) :=
  h.congr (by rw [returnTo_kernel]) (by rw [returnTo_sa]) (by rw [returnTo_priv])
    (by rw [returnTo_priv]) (by rw [returnTo_log]) (Or.inl (by rw [returnTo_lookups]))

theorem RoundReady.attempts {k : Caller} {os : List SysCalls} {w w' : World}
    (h : RoundReady w) (hnext : socketAttemptConnectNext k os w = some w') :
    FallbackInv w' := by
  refine attemptLoop_rule (C := fun _ => True)
    (I := fun w₁ => RoundReady w₁ ∧ w₁.priv.saIter = true) (J := FallbackInv)
    ?_ ?_ ?_ ?_ (fun _ _ => trivial) h.getIter hnext
  · intro w₁ hI hrem
    exact hI.1.reported hI.2 hrem
  · intro w₁ addr rest o hI hrem _ _
    refine ⟨hI.1.failedAtOnce (o := ⟨addr, .noSocket, 0⟩) hI.2 hrem ⟨rfl, rfl⟩ rfl
      (fun _ _ hfd => hfd) rfl hI.2 ?_ rfl, hI.2⟩
    show triedAlls (w₁.log ++ _) = _
    rw [triedAlls_append]
    rfl
  · intro w₁ addr rest o hI hrem _ _ _ hr
    refine ⟨hI.1.failedAtOnce (o := ⟨addr, o.status, 0⟩) hI.2 hrem
      ⟨by rw [o.status_of_refused hr]; rfl, rfl⟩ rfl (fun fd i hfd => ?_) rfl hI.2 ?_ rfl, hI.2⟩
    · have hfd' : setFd (setFd w₁.kernel.fds o.socket _) o.socket none fd = some i := hfd
      by_cases hnew : fd = o.socket
      · rw [hnew, setFd_self] at hfd'
        cases hfd'
      · rwa [setFd_of_ne hnew, setFd_of_ne hnew] at hfd'
    · show triedAlls (w₁.log ++ _ ++ _ ++ _) = _
      rw [triedAlls_append, triedAlls_append, triedAlls_append]
      rfl
  · intro w₁ addr rest o hI hrem _ _ _ _
    exact (hI.1.started hI.2 hrem).returnTo

/-! ## One event -/

/-- With an error to read, `socket_err_cb` is right to go on. -/
theorem FallbackInv.roundReady {w : World} {g : Int} {o : SockObj} (h : FallbackInv w)
    (ho : w.kernel.obj w.priv.handle = some o) (herr : o.soError ≠ 0) :
    RoundReady (readError g w) := by
  obtain ⟨i, hi, hoi⟩ := obj_some.mp ho
  obtain ⟨hlast, hsilent⟩ := h.seq.latest hoi fun hs => herr hs.2
  have hread : readError g w =
      { w with kernel := w.kernel.modify w.priv.handle fun o => { o with soError := 0 } } := by
    unfold readError lmSockGetError
    rw [ho]
  have hstay : FallbackInv (readError g w) := by
    rw [hread]
    exact h.modify (fun _ => rfl) (fun _ _ hs => ⟨hs.1, rfl⟩) (fun _ _ _ hne => absurd rfl hne)
  have hobjs : (readError g w).kernel.objs =
      w.kernel.objs.modify i fun o => { o with soError := 0 } := by
    rw [hread, Kernel.modify, hi]
  have hsome : (readError g w).kernel.objs[i]? = some { o with soError := 0 } := by
    rw [hobjs, List.getElem?_modify]
    simp [hoi]
  refine ⟨hstay.toInPlace, ?_, hsilent, fun hno => ?_, ?_⟩
  · refine hstay.seq.all_failed hsome ?_ ⟨h.unread o (List.mem_of_getElem? hoi) herr, rfl⟩
    rw [hobjs, List.length_modify]
    exact hlast
  · have hiter := (h.last _ i hi hlast).2
    rw [show (readError g w).priv.saIter = w.priv.saIter from rfl, hiter] at hno
    cases hno
  · by_contra hlook
    rw [(h.pending hlook).1] at hoi
    cases hoi

theorem FallbackInv.reset {w : World} (h : FallbackInv w) : FallbackInv (socketReset w) := by
  have hfds : ∀ {fd i}, (socketReset w).kernel.fds fd = some i →
      fd ≠ w.priv.handle ∧ w.kernel.fds fd = some i := by
    intro fd i hfd
    rw [socketReset_kernel] at hfd
    have hfd' : setFd w.kernel.fds w.priv.handle none fd = some i := hfd
    by_cases hsame : fd = w.priv.handle
    · rw [hsame, setFd_self] at hfd'
      cases hfd'
    · rw [setFd_of_ne hsame] at hfd'
      exact ⟨hsame, hfd'⟩
  have hobjs : (socketReset w).kernel.objs = w.kernel.objs := by
    rw [socketReset_kernel]
    rfl
  have hlog : triedAlls (socketReset w).log = triedAlls w.log := by
    rw [socketReset_log, triedAlls_append]
    rfl
  refine ⟨⟨fun hi => ?_, fun fd i hfd => ?_, fun fd i hfd hlast => ?_⟩, ?_, ?_, ?_, ?_⟩
  · rw [socketReset_saIter] at hi
    cases hi
  · rw [hobjs]
    exact h.bounded fd i (hfds hfd).2
  · rw [hobjs] at hlast
    exact absurd (h.last fd i (hfds hfd).2 hlast).1 (hfds hfd).1
  · rw [hobjs, hlog, socketReset_sa]
    exact h.seq
  · rw [hobjs]
    exact h.unread
  · rw [hobjs, hlog, socketReset_lookups, socketReset_saIter]
    exact fun hlook => ⟨(h.pending hlook).1, rfl, (h.pending hlook).2.2⟩
  · rw [socketReset_lookups]
    exact h.single

theorem FallbackInv.resume {f : Frame} {rest : List Frame} {w : World} (h : FallbackInv w) :
    FallbackInv (resume f { w with stack := rest }) := by
  have hpop : FallbackInv { w with stack := rest } :=
    h.congr rfl rfl rfl rfl rfl (Or.inl rfl)
  rcases resume_cases f { w with stack := rest } with
    ⟨k, rfl, hw⟩ | ⟨c, k, rfl, hw⟩ | ⟨-, hw⟩ <;> rw [hw]
  · refine hpop.congr rfl rfl rfl rfl ?_ (Or.inl rfl)
    show triedAlls (w.log ++ _) = _
    rw [triedAlls_append]
    rfl
  · exact hpop.reset.returnTo
  · exact hpop.returnTo

theorem fallbackInv_step {w w' : World} {l : Label} (h : FallbackInv w)
    (hl : l.isConnect = false) (hc : RetriesOnError w l) (hstep : step w l = some w') :
    FallbackInv w' := by
  have hnote : ∀ e : Event, triedAlls [e] = 0 → triedAlls (w.log ++ [e]) = triedAlls w.log :=
    fun e he => by rw [triedAlls_append, he, Nat.add_zero]
  have hdrop : ∀ {id}, id ∈ w.lookups → w.lookups.erase id = [] := by
    intro id hid
    have hlen := h.single
    have herase := List.length_erase_of_mem hid
    exact List.length_eq_zero_iff.mp (by omega)
  cases step_cases hstep with
  | connectLookup _ _ | connectAttempt _ _ _ => cases hl
  | poll _ _ _ => exact h.congr rfl rfl rfl rfl rfl (Or.inl rfl)
  | close _ | lateDispatch _ _ | readable _ _ _ | writeable _ _ _ _ | connected _ _ _ _
  | errConnected _ _ _ _ | hup _ _ _ =>
      exact h.congr rfl rfl rfl rfl (hnote _ rfl) (Or.inl rfl)
  | lateLookup _ hid _ | lookupFailed _ hid _ =>
      exact h.congr rfl rfl rfl rfl (hnote _ rfl) (Or.inr (hdrop hid))
  | finalize _ _ => exact h.reset.congr rfl rfl rfl rfl rfl (Or.inl rfl)
  | resume _ => exact h.resume
  | lookupOk _ hid _ hnext =>
      obtain ⟨hnil, hiter, hsilent⟩ := h.pending (List.ne_nil_of_mem hid)
      refine RoundReady.attempts (w := lookedUp _ _ w)
        ⟨⟨fun hi => ?_, h.bounded, h.last⟩, fun o ho => ?_, hsilent, fun _ => hnil,
          hdrop hid⟩ hnext
      · rw [show w.priv.saIter = true from hi] at hiter
        cases hiter
      · have ho' : o ∈ w.kernel.objs := ho
        rw [hnil] at ho'
        cases ho'
  | @errWaiting s _ _ _ _ _ _ =>
      have htake : FallbackInv (w.take s.id) := h.congr rfl rfl rfl rfl rfl (Or.inl rfl)
      unfold readError lmSockGetError
      split
      · exact htake
      · exact htake.modify (fun _ => rfl) (fun _ _ hs => ⟨hs.1, rfl⟩)
          (fun _ _ _ hne => absurd rfl hne)
  | @errFailed s _ _ _ _ hlive hcond hconn herr hnext =>
      have htake : FallbackInv (w.take s.id) := h.congr rfl rfl rfl rfl rfl (Or.inl rfl)
      have hretry := hc (by simp [errRetries, hlive.found, hcond, hconn, herr])
      obtain ⟨o, ho, hne⟩ := Option.any_eq_true .. |>.mp hretry
      exact (htake.roundReady ho (by simpa using hne)).attempts hnext
  | connectDone hk =>
      obtain ⟨o, ho, hprog, -, rfl⟩ := connectDone_some hk
      refine h.modify (fun _ => rfl) (fun o' ho' hs => ?_) (fun o' _ _ hne => ?_)
      · rw [ho, Option.some.injEq] at ho'
        have hfailed := hs.1
        rw [← ho', hprog] at hfailed
        cases hfailed
      · rw [if_neg hne]
        rfl
  | connectionError hk =>
      obtain ⟨o, ho, hup, hne, -, rfl⟩ := connectionError_some hk
      refine h.modify (fun _ => rfl) (fun o' ho' hs => ?_) (fun _ _ _ _ => rfl)
      rw [ho, Option.some.injEq] at ho'
      have hfailed := hs.1
      rw [← ho', hup] at hfailed
      cases hfailed

/-- The connect itself starts the iteration, or the lookup that will. -/
theorem fallbackInv_connect {sa : LmSocketAddress} {os : List SysCalls} {w : World}
    (hstep : step (lmSocketNew sa) (.connect os) = some w) : FallbackInv w := by
  have hfds : ∀ fd i, (lmSocketNew sa).kernel.fds fd ≠ some i := fun fd i hfd => by cases hfd
  have hplace : InPlace (lmSocketNew sa) :=
    ⟨fun hi => absurd hi Bool.false_ne_true, fun fd i hfd => absurd hfd (hfds fd i),
      fun fd i hfd => absurd hfd (hfds fd i)⟩
  cases step_cases hstep with
  | connectLookup _ _ =>
      exact ⟨hplace.congr rfl rfl rfl rfl, Sequential.nil _,
        fun o ho => absurd ho List.not_mem_nil, fun _ => ⟨rfl, rfl, rfl⟩, Nat.le_refl 1⟩
  | connectAttempt _ _ hnext =>
      exact RoundReady.attempts (w := (lmSocketNew sa).note .connectCall)
        ⟨hplace.congr rfl rfl rfl rfl, fun o ho => absurd ho List.not_mem_nil, rfl,
          fun _ => rfl, rfl⟩ hnext

/-! ## The run -/

theorem addresses_tried_in_turn (sa : LmSocketAddress) (os : List SysCalls)
    (as : List Label) (w : World) (hone : ∀ l ∈ as, l.isConnect = false)
    (hc : Meets step RetriesOnError (lmSocketNew sa) (.connect os :: as))
    (hrun : exec step (lmSocketNew sa) (.connect os :: as) = some w) : FallbackSafe w := by
  obtain ⟨w₁, hconnect, hrest⟩ := exec_cons_some hrun
  have hmeets := (hc w₁ hconnect).2.and (meets_of_labels hone)
  have hinv := exec_invariant (I := FallbackInv)
    (fun _ _ _ h hl hs => fallbackInv_step h hl.2 hl.1 hs) (fallbackInv_connect hconnect)
    hmeets hrest
  exact hinv.safe

theorem addresses_tried_in_turn_all_fail :
    ∃ w, exec step (lmSocketNew sampleSa)
        [.connect [⟨5, -1, 115⟩], .connectDone 5 111, .poll [⟨1, 0⟩],
          .dispatch 1 0 [⟨6, -1, 111⟩, ⟨7, -1, 115⟩], .connectDone 7 110, .poll [⟨5, 2⟩],
          .dispatch 5 0 []] = some w ∧ FallbackSafe w :=
  ⟨_, rfl, addresses_tried_in_turn sampleSa [⟨5, -1, 115⟩]
    [.connectDone 5 111, .poll [⟨1, 0⟩], .dispatch 1 0 [⟨6, -1, 111⟩, ⟨7, -1, 115⟩],
      .connectDone 7 110, .poll [⟨5, 2⟩], .dispatch 5 0 []] _ (by decide) (by decide) rfl⟩

/-- The first attempt fails at once, the second gets its descriptor and fails
later: two `G_IO_ERR` watches poll one descriptor. The first to fire starts the
third attempt, the other gives up on it while it is in progress. -/
theorem attempt_abandoned :
    ∃ w, exec step (lmSocketNew sampleSa)
        [.connect [⟨5, -1, 111⟩, ⟨5, -1, 115⟩], .connectDone 5 111,
          .poll [⟨1, 1⟩, ⟨3, 1⟩], .dispatch 3 0 [⟨6, -1, 115⟩], .dispatch 1 0 []] = some w ∧
      ¬ FallbackSafe w := by
  refine ⟨_, rfl, fun h => ?_⟩
  have hfailed := (h.complete (by decide)).2
  exact absurd (hfailed ⟨sampleAddr 3, .inProgress, 0⟩ (by decide)) (by decide)

end LmTransport.Ref
