import LmTransport.Proofs.Handshake
import LmTransport.Lib.Lifecycle

/-!
# The life of a TLS session

One flag stands for a session that is alive, a handshake that is done and
reads and writes that go through GnuTLS, and of the calls only the handshake
touches it. So the channel owns its sessions properly when its caller calls it
in phases: a handshake only while no session is alive, then reads and writes,
then one close, and after that nothing but another handshake or the end.

For a channel that has been finalized the phases are also necessary: a second
handshake loses the first session for good, and so does a finalization without
a close; a call after the close uses a session that is gone.
-/

namespace LmTransport.Ref.Gnutls

open Lts

/-- The log, read as a trace of sessions. -/
def sessionEvents (log : List Event) : List (Lifecycle.Ev (Option Nat)) :=
  log.filterMap fun
    | .init s => some (.acquire s)
    | .recv s _ => some (.use s)
    | .send s _ _ => some (.use s)
    | .bye s => some (.use s)
    | .deinit s => some (.release s)
    | _ => none

@[simp] theorem sessionEvents_append (log log' : List Event) :
    sessionEvents (log ++ log') = sessionEvents log ++ sessionEvents log' :=
  List.filterMap_append

/-- Only live sessions are used and torn down, and a finalized channel has torn
down every session it set up, once. -/
def OwnsSessions (w : World) : Prop :=
  Lifecycle.Sound ∅ (sessionEvents w.log) ∧
    (w.fate = .finalized → Lifecycle.held ∅ (sessionEvents w.log) = ∅ ∧
      ∀ s, (sessionEvents w.log).count (.release s) = (sessionEvents w.log).count (.acquire s))

/-! ## The phases -/

/-- No session yet, a live one, or one that has been torn down. -/
inductive Phase where
  | fresh
  | live
  | dead
deriving DecidableEq, Repr

def Phase.next : Phase → Label → Phase
  | _, .startHandshake _ _ => .live
  | .live, .close _ => .dead
  | p, _ => p

def Phase.allows : Phase → Label → Bool
  | .live, .startHandshake _ _ => false
  | .live, .finalize => false
  | .dead, .read _ _ _ => false
  | .dead, .write _ _ _ _ => false
  | .dead, .close _ => false
  | _, _ => true

/-- The calls come in an order the phases allow. -/
def InPhases : Phase → List Label → Prop
  | _, [] => True
  | p, l :: ls => p.allows l = true ∧ InPhases (p.next l) ls

instance InPhases.dec : (p : Phase) → (ls : List Label) → Decidable (InPhases p ls)
  | _, [] => isTrue trivial
  | p, l :: ls =>
      have := InPhases.dec (p.next l) ls
      inferInstanceAs (Decidable (_ ∧ InPhases (p.next l) ls))

/-! ## The invariant -/

def heldSessions (w : World) : Finset (Option Nat) :=
  Lifecycle.held ∅ (sessionEvents w.log)

/-- What the phase says about the channel. -/
structure PhaseInv (p : Phase) (w : World) : Prop where
  sound : Lifecycle.Sound ∅ (sessionEvents w.log)
  encrypted : w.priv.isEncrypted = true ↔ p ≠ .fresh
  held : heldSessions w = if p = .live then {w.priv.gnutlsSession} else ∅
  numbered : Numbered w
  live : w.fate = .finalized → p ≠ .live

theorem phaseInv_new : PhaseInv .fresh lmSecureChannelNew where
  sound := trivial
  encrypted := ⟨nofun, fun h => absurd rfl h⟩
  held := rfl
  numbered := ⟨nofun, nofun⟩
  live := nofun

theorem sessionEvents_transport (io : List TransportCall) :
    sessionEvents (io.map TransportCall.event) = [] := by
  refine List.filterMap_eq_nil_iff.mpr fun e he => ?_
  obtain ⟨c, -, rfl⟩ := List.mem_map.mp he
  cases c <;> rfl

theorem sessionEvents_handshake (ask : Feedback) (host : String) (h : Handshake) (w : World) :
    sessionEvents (handshakeEvents ask host h w) = [.acquire (some w.nextSession)] := by
  unfold handshakeEvents
  rw [List.cons_append, ← List.singleton_append, sessionEvents_append, sessionEvents_append,
    sessionEvents_transport]
  split <;> rfl

/-- A loop uses its session once a call. -/
theorem sessionEvents_loop {κ : Type} {io : κ → List TransportCall} {call : Event}
    {s : Option Nat} (hcall : sessionEvents [call] = [.use s]) (calls : List κ) :
    sessionEvents (calls.flatMap fun c => call :: (io c).map TransportCall.event) =
      List.replicate calls.length (.use s) := by
  induction calls with
  | nil => rfl
  | cons c calls ih =>
      rw [List.flatMap_cons, sessionEvents_append, ih, ← List.singleton_append,
        sessionEvents_append, sessionEvents_transport, hcall]
      rfl

theorem sessionEvents_recv (s : Option Nat) (count : Nat) (calls : List RecvCall) :
    sessionEvents (calls.flatMap (recvEvents s count)) = List.replicate calls.length (.use s) :=
  sessionEvents_loop rfl calls

theorem sessionEvents_send (s : Option Nat) (buf : List UInt8) (count : Int)
    (calls : List SendCall) : sessionEvents (calls.flatMap (sendEvents s buf count)) =
      List.replicate calls.length (.use s) :=
  sessionEvents_loop rfl calls

theorem sessionEvents_close (s : Option Nat) (io : List TransportCall) :
    sessionEvents (.bye s :: io.map TransportCall.event ++ [.deinit s, .innerClose]) =
      [.use s, .release s] := by
  rw [List.cons_append, ← List.singleton_append, sessionEvents_append, sessionEvents_append,
    sessionEvents_transport]
  rfl

/-- A call that uses the session `n` times, which takes a live one if it uses it
at all. -/
theorem PhaseInv.uses {p : Phase} {w w' : World} {evs : List Event} {n : Nat}
    (h : PhaseInv p w) (hn : Numbered w') (hlog : w'.log = w.log ++ evs)
    (hevs : sessionEvents evs = List.replicate n (.use w.priv.gnutlsSession))
    (hlive : n = 0 ∨ p = .live) (hpriv : w'.priv = w.priv)
    (hfate : w'.fate = .finalized → p ≠ .live) : PhaseInv p w' := by
  have hheld := h.held
  unfold heldSessions at hheld
  refine ⟨?_, ?_, ?_, hn, hfate⟩
  · rw [hlog, sessionEvents_append, hevs, Lifecycle.sound_append,
      Lifecycle.sound_replicate_use, hheld]
    refine ⟨h.sound, hlive.imp id fun hp => ?_⟩
    rw [if_pos hp]
    exact Finset.mem_singleton_self _
  · rw [hpriv]
    exact h.encrypted
  · rw [heldSessions, hlog, sessionEvents_append, hevs, Lifecycle.held_append,
      Lifecycle.held_replicate_use, hheld, hpriv]

theorem PhaseInv.handshake {ask : Feedback} {host : String} {hs : Handshake} {p : Phase}
    {w : World} (h : PhaseInv p w) (hp : p ≠ .live) (hrun : w.fate = .running) :
    PhaseInv .live (gnutlsChannelStartHandshake ask host hs w) := by
  have hheld := h.held
  rw [if_neg hp] at hheld
  unfold heldSessions at hheld
  refine ⟨?_, ?_, ?_, h.numbered.handshake, fun hfin => ?_⟩
  · rw [startHandshake_log, sessionEvents_append, sessionEvents_handshake,
      Lifecycle.sound_append, hheld]
    exact ⟨h.sound, Finset.notMem_empty _, trivial⟩
  · rw [startHandshake_priv]
    exact ⟨fun _ => by simp, fun _ => rfl⟩
  · rw [heldSessions, startHandshake_log, sessionEvents_append, sessionEvents_handshake,
      Lifecycle.held_append, hheld, startHandshake_priv, if_pos rfl]
    rfl
  · rw [startHandshake_fate, hrun] at hfin
    cases hfin

/-- An encrypted channel is in the live phase, if the phase allows the call. -/
theorem PhaseInv.live_of {p : Phase} {w : World} {l : Label} (h : PhaseInv p w)
    (henc : w.priv.isEncrypted = true) (hall : p.allows l = true)
    (hdead : Phase.dead.allows l = false) : p = .live := by
  cases p with
  | fresh => exact absurd rfl (h.encrypted.mp henc)
  | live => rfl
  | dead => rw [hdead] at hall; cases hall

theorem PhaseInv.fresh_of {p : Phase} {w : World} (h : PhaseInv p w)
    (henc : w.priv.isEncrypted = false) : p = .fresh := by
  by_contra hp
  rw [h.encrypted.mpr hp] at henc
  cases henc

theorem PhaseInv.close {io : List TransportCall} {w : World} (h : PhaseInv .live w)
    (hn : Numbered
      { w with
        log := w.log ++ .bye w.priv.gnutlsSession :: io.map TransportCall.event ++
          [.deinit w.priv.gnutlsSession, .innerClose] }) :
    PhaseInv .dead
      { w with
        log := w.log ++ .bye w.priv.gnutlsSession :: io.map TransportCall.event ++
          [.deinit w.priv.gnutlsSession, .innerClose] } := by
  have hheld := h.held
  rw [if_pos rfl] at hheld
  unfold heldSessions at hheld
  have hevs : sessionEvents (w.log ++ .bye w.priv.gnutlsSession :: io.map TransportCall.event ++
      [.deinit w.priv.gnutlsSession, .innerClose]) =
        sessionEvents w.log ++ [.use w.priv.gnutlsSession, .release w.priv.gnutlsSession] := by
    rw [List.append_assoc, sessionEvents_append, sessionEvents_close]
  refine ⟨?_, ⟨fun _ => by simp, fun _ => h.encrypted.mpr (by simp)⟩, ?_, hn, by simp⟩
  · rw [hevs, Lifecycle.sound_append, hheld]
    exact ⟨h.sound, Finset.mem_singleton_self _, Finset.mem_singleton_self _, trivial⟩
  · rw [heldSessions, hevs, Lifecycle.held_append, hheld]
    simp [Lifecycle.apply]

theorem phaseInv_step {ask : Feedback} {p : Phase} {w w' : World} {l : Label}
    (h : PhaseInv p w) (hall : p.allows l = true) (hstep : step ask w l = some w') :
    PhaseInv (p.next l) w' := by
  obtain ⟨hrun, hcase⟩ := gnutls_step_cases hstep
  have hn := numbered_step h.numbered hstep
  have hidle : w'.fate = .running → (w'.fate = .finalized → p ≠ .live) := fun hr hf => by
    rw [hr] at hf
    cases hf
  have hquiet : ∀ {e : Event}, sessionEvents [e] = [] → w'.log = w.log ++ [e] →
      w'.priv = w.priv → (w'.fate = .finalized → p ≠ .live) → PhaseInv p w' :=
    fun he hlog hpriv hfate => h.uses hn hlog he (n := 0) (Or.inl rfl) hpriv hfate
  cases hcase with
  | setExpectedFingerprint s =>
      have hp : p.next (.setExpectedFingerprint s) = p := by cases p <;> rfl
      rw [hp]
      exact h.uses hn (List.append_nil _).symm (n := 0) rfl (Or.inl rfl) rfl (hidle hrun)
  | startHandshake host hs =>
      have hp : p ≠ .live := fun hp => by
        rw [hp] at hall
        cases hall
      have hnext : p.next (.startHandshake host hs) = .live := by cases p <;> rfl
      rw [hnext]
      exact h.handshake hp hrun
  | readInner henc | writeInner henc | closeInner henc =>
      rw [h.fresh_of henc] at hquiet hidle ⊢
      exact hquiet rfl rfl rfl (hidle hrun)
  | recv henc hne hfate =>
      have hp := h.live_of henc hall rfl
      subst hp
      exact h.uses hn rfl (sessionEvents_recv ..) (Or.inr rfl) rfl fun hf => absurd hf hfate
  | readNull henc =>
      have hp := h.live_of henc hall rfl
      subst hp
      exact h.uses hn (List.append_nil _).symm (n := 0) rfl (Or.inl rfl) rfl nofun
  | send henc hne hfate =>
      have hp := h.live_of henc hall rfl
      subst hp
      exact h.uses hn rfl (sessionEvents_send ..) (Or.inr rfl) rfl fun hf => absurd hf hfate
  | close henc =>
      have hp := h.live_of henc hall rfl
      subst hp
      exact h.close hn
  | innerClosed reason =>
      have hp : p.next (.innerClosed reason) = p := by cases p <;> rfl
      rw [hp]
      exact hquiet rfl rfl rfl (hidle hrun)
  | finalize =>
      have hp : p ≠ .live := fun hp => by
        rw [hp] at hall
        cases hall
      have hnext : p.next .finalize = p := by cases p <;> rfl
      rw [hnext]
      exact hquiet rfl rfl rfl fun _ => hp

theorem PhaseInv.owns {p : Phase} {w : World} (h : PhaseInv p w) : OwnsSessions w := by
  refine ⟨h.sound, fun hfin => ?_⟩
  have hheld := h.held
  rw [if_neg (h.live hfin)] at hheld
  exact ⟨hheld, Lifecycle.count_release_eq h.sound hheld⟩

/-! ## Out of phase -/

/-- A session nobody will tear down: it is held, and the channel has another
one. -/
structure Lost (s : Option Nat) (w : World) : Prop where
  held : s ∈ heldSessions w
  other : w.priv.gnutlsSession ≠ s
  old : ∀ n, s = some n → n < w.nextSession

theorem lost_step {ask : Feedback} {s : Option Nat} {w w' : World} {l : Label} (h : Lost s w)
    (hstep : step ask w l = some w') : Lost s w' := by
  have hkeep : ∀ {evs : List Event}, w'.log = w.log ++ evs →
      (.release s) ∉ sessionEvents evs → w'.priv.gnutlsSession ≠ s →
      w.nextSession ≤ w'.nextSession → Lost s w' := by
    intro evs hlog hrelease hother hnext
    refine ⟨?_, hother, fun n hn => Nat.lt_of_lt_of_le (h.old n hn) hnext⟩
    rw [heldSessions, hlog, sessionEvents_append, Lifecycle.held_append]
    exact Lifecycle.mem_held_of_mem h.held hrelease
  cases (gnutls_step_cases hstep).2 with
  | setExpectedFingerprint _ | readNull _ =>
      exact hkeep (List.append_nil _).symm List.not_mem_nil h.other (Nat.le_refl _)
  | readInner _ | writeInner _ | closeInner _ | innerClosed _ | finalize =>
      exact hkeep rfl List.not_mem_nil h.other (Nat.le_refl _)
  | startHandshake host hs =>
      refine hkeep (startHandshake_log ..) ?_ ?_ ?_
      · rw [sessionEvents_handshake]
        simp
      · rw [startHandshake_priv]
        exact fun hs => Nat.lt_irrefl _ (h.old _ hs.symm)
      · rw [startHandshake_nextSession]
        exact Nat.le_succ _
  | recv _ _ _ =>
      refine hkeep rfl ?_ h.other (Nat.le_refl _)
      rw [sessionEvents_recv]
      simp
  | send _ _ _ =>
      refine hkeep rfl ?_ h.other (Nat.le_refl _)
      rw [sessionEvents_send]
      simp
  | close _ =>
      refine hkeep (List.append_assoc ..) ?_ h.other (Nat.le_refl _)
      rw [sessionEvents_close]
      simp [Ne.symm h.other]

/-- A call the phase does not allow is never made good. -/
theorem not_owns_of_out_of_phase {ask : Feedback} {p : Phase} {w w₁ w' : World} {l : Label}
    {as : List Label} (h : PhaseInv p w) (hall : p.allows l = false)
    (hstep : step ask w l = some w₁) (hrest : exec (step ask) w₁ as = some w')
    (hfin : w'.fate = .finalized) : ¬ OwnsSessions w' := by
  intro hown
  obtain ⟨hsound, howns⟩ := hown
  obtain ⟨hend, -⟩ := howns hfin
  obtain ⟨evs, hlog⟩ := log_run hrest
  have hheld := h.held
  -- a use or a release of a session that is gone stays in the log
  have hgone : ∀ {es : List Event} {ev : Lifecycle.Ev (Option Nat)} {rest},
      p = .dead → w₁.log = w.log ++ es → sessionEvents es = ev :: rest →
      ev = .use w.priv.gnutlsSession → False := by
    intro es ev rest hp hlog₁ hes hev
    rw [if_neg (by simp [hp]), heldSessions] at hheld
    rw [hlog, hlog₁, sessionEvents_append, sessionEvents_append, Lifecycle.sound_append,
      Lifecycle.sound_append, hheld, hes, hev] at hsound
    exact Finset.notMem_empty _ hsound.1.2.1
  have hfresh : w.priv.isEncrypted = false → False := fun henc => by
    rw [h.fresh_of henc] at hall
    cases l <;> cases hall
  have hdead : w.priv.isEncrypted = true → Phase.live.allows l = true → p = .dead := by
    intro henc hlive
    cases p with
    | fresh => exact absurd rfl (h.encrypted.mp henc)
    | live => rw [hlive] at hall; cases hall
    | dead => rfl
  cases (gnutls_step_cases hstep).2 with
  | setExpectedFingerprint s => cases p <;> cases hall
  | startHandshake host hs =>
      cases p with
      | fresh => cases hall
      | dead => cases hall
      | live =>
          rw [if_pos rfl] at hheld
          have hlost : Lost w.priv.gnutlsSession (gnutlsChannelStartHandshake ask host hs w) := by
            refine ⟨?_, ?_, fun n hn => ?_⟩
            · rw [heldSessions, startHandshake_log, sessionEvents_append,
                sessionEvents_handshake, Lifecycle.held_append]
              refine Lifecycle.mem_held_of_mem ?_ (by simp)
              rw [← heldSessions, hheld]
              exact Finset.mem_singleton_self _
            · rw [startHandshake_priv]
              exact fun hs => Nat.lt_irrefl _ (h.numbered.current _ hs.symm)
            · rw [startHandshake_nextSession]
              exact Nat.lt_succ_of_lt (h.numbered.current n hn)
          have hlast : Lost w.priv.gnutlsSession w' :=
            exec_preserves (I := Lost w.priv.gnutlsSession)
              (fun _ _ _ hl hs => lost_step hl hs) hlost hrest
          have hmem := hlast.held
          rw [heldSessions, hend] at hmem
          exact Finset.notMem_empty _ hmem
  | readInner henc | writeInner henc | closeInner henc => exact hfresh henc
  | @recv count calls fate henc hne hfate =>
      obtain ⟨c, cs, rfl⟩ := List.exists_cons_of_ne_nil hne
      exact hgone (hdead henc rfl) rfl (sessionEvents_recv _ count (c :: cs)) rfl
  | readNull henc =>
      rw [run_stopped (by simp) hrest] at hfin
      cases hfin
  | @send buf count out calls fate henc hne hfate =>
      obtain ⟨c, cs, rfl⟩ := List.exists_cons_of_ne_nil hne
      exact hgone (hdead henc rfl) rfl (sessionEvents_send _ buf count (c :: cs)) rfl
  | close henc =>
      exact hgone (hdead henc rfl) (List.append_assoc ..) (sessionEvents_close _ _) rfl
  | innerClosed reason => cases p <;> cases hall
  | finalize =>
      cases p with
      | fresh => cases hall
      | dead => cases hall
      | live =>
          have hw' : w' = gnutlsChannelFinalize w :=
            run_stopped (by simp [gnutlsChannelFinalize]) hrest
          rw [if_pos rfl, heldSessions] at hheld
          rw [hw'] at hend
          have hsame : sessionEvents (gnutlsChannelFinalize w).log = sessionEvents w.log := by
            simp [gnutlsChannelFinalize, World.note, sessionEvents]
          rw [hsame, hheld] at hend
          exact Finset.singleton_ne_empty _ hend

/-! ## The run -/

theorem owns_of_inPhases {ask : Feedback} {p : Phase} {w w' : World} {as : List Label}
    (h : PhaseInv p w) (has : InPhases p as) (hrun : exec (step ask) w as = some w') :
    OwnsSessions w' := by
  induction as generalizing p w with
  | nil =>
      rw [exec_nil, Option.some.injEq] at hrun
      exact hrun ▸ h.owns
  | cons l as ih =>
      obtain ⟨w₁, hstep, hrest⟩ := exec_cons_some hrun
      exact ih (phaseInv_step h has.1 hstep) has.2 hrest

theorem inPhases_of_owns {ask : Feedback} {p : Phase} {w w' : World} {as : List Label}
    (h : PhaseInv p w) (howns : OwnsSessions w') (hfin : w'.fate = .finalized)
    (hrun : exec (step ask) w as = some w') : InPhases p as := by
  induction as generalizing p w with
  | nil => trivial
  | cons l as ih =>
      obtain ⟨w₁, hstep, hrest⟩ := exec_cons_some hrun
      cases hall : p.allows l with
      | false => exact absurd howns (not_owns_of_out_of_phase h hall hstep hrest hfin)
      | true => exact ⟨hall, ih (phaseInv_step h hall hstep) hrest⟩

/-- In phase the sessions are owned at every point of the run; and a channel
that has been finalized owned them only if it was called in phase. -/
theorem sessions_owned (ask : Feedback) (as : List Label) (w : World)
    (hrun : exec (step ask) lmSecureChannelNew as = some w) :
    (InPhases .fresh as → OwnsSessions w) ∧
      (w.fate = .finalized → OwnsSessions w → InPhases .fresh as) :=
  ⟨fun has => owns_of_inPhases phaseInv_new has hrun,
    fun hfin howns => inPhases_of_owns phaseInv_new howns hfin hrun⟩

theorem sessions_owned_twice :
    ∃ w, exec (step alwaysContinue) lmSecureChannelNew
        [.startHandshake "example" ⟨[], 0, goodPeer⟩, .write [104, 105] 2 true (.gnutls [⟨[], 2⟩]),
          .close [], .startHandshake "example" ⟨[], 0, goodPeer⟩, .close [], .finalize] = some w ∧
      OwnsSessions w :=
  ⟨_, rfl, (sessions_owned alwaysContinue
    [.startHandshake "example" ⟨[], 0, goodPeer⟩, .write [104, 105] 2 true (.gnutls [⟨[], 2⟩]),
      .close [], .startHandshake "example" ⟨[], 0, goodPeer⟩, .close [], .finalize] _ rfl).1
    (by decide)⟩

/-- Closing twice says goodbye on a session that is gone, and a channel that is
finalized without a close keeps its session for ever. -/
theorem session_misused :
    (∃ w, exec (step alwaysContinue) lmSecureChannelNew
        [.startHandshake "example" ⟨[], 0, goodPeer⟩, .close [], .close []] = some w ∧
      ¬ OwnsSessions w) ∧
    ∃ w, exec (step alwaysContinue) lmSecureChannelNew
        [.startHandshake "example" ⟨[], 0, goodPeer⟩, .finalize] = some w ∧ ¬ OwnsSessions w := by
  refine ⟨⟨_, rfl, fun h => ?_⟩, ⟨_, rfl, fun h => ?_⟩⟩
  · exact absurd h.1 (by decide)
  · exact absurd (h.2 rfl).1 (by decide)

end LmTransport.Ref.Gnutls
