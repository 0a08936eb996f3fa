import LmTransport.Ref.GnutlsChannel
import LmTransport.Lib.Run

/-!
# What one call can do to a TLS channel

The inversion of the channel's `step`, and what each way through it adds to the
log. The transport callbacks only ever add reads and writes of the inner
channel; the retry loops add a call of GnuTLS for each round, on the session in
`priv`, which they leave alone.
-/

namespace LmTransport.Ref.Gnutls

/-! ## Fields -/

/-- The verdict on the peer, and what was asked on the way to it. -/
def verdict (ask : Feedback) (peer : Peer) (server : String) (w : World) :
    Bool × List LmSSLStatus :=
  askInTurn ask [] (certificateProblems peer server w.secure.expectedFingerprint)

/-- The verification writes the verdict to the log, and it may set a
property. -/
theorem verify_eq (ask : Feedback) (peer : Peer) (server : String) (w : World) :
    (gnutlsChannelVerifyCertificate ask peer server w).2 =
      { w with
        secure := (gnutlsChannelVerifyCertificate ask peer server w).2.secure
        log := w.log ++ [.verify w.priv.gnutlsSession (verdict ask peer server w).2
          (verdict ask peer server w).1] } := by
  simp only [gnutlsChannelVerifyCertificate]
  split <;> rfl

/-- What a handshake adds to the log, the new session being `some n`. -/
def handshakeEvents (ask : Feedback) (host : String) (h : Handshake) (w : World) :
    List Event :=
  .init (some w.nextSession) :: h.io.map TransportCall.event ++
    .handshake (some w.nextSession) h.ret ::
      if 0 ≤ h.ret then
        [.verify (some w.nextSession) (verdict ask h.peer host w).2 (verdict ask h.peer host w).1]
      else []

/-- A handshake leaves a new session and an encrypted channel, whatever came of
it. -/
theorem startHandshake_eq (ask : Feedback) (host : String) (h : Handshake) (w : World) :
    gnutlsChannelStartHandshake ask host h w =
      { w with
        priv := ⟨some w.nextSession, true⟩
        secure := (gnutlsChannelStartHandshake ask host h w).secure
        nextSession := w.nextSession + 1
        log := w.log ++ handshakeEvents ask host h w } := by
  simp only [gnutlsChannelStartHandshake, handshakeEvents]
  split
  · rw [verify_eq]
    simp [World.note, World.transport, gnutlsInit, verdict]
  · simp [World.note, World.transport, gnutlsInit]

theorem startHandshake_log (ask : Feedback) (host : String) (h : Handshake) (w : World) :
    (gnutlsChannelStartHandshake ask host h w).log =
      w.log ++ handshakeEvents ask host h w := by
  rw [startHandshake_eq]

theorem startHandshake_priv (ask : Feedback) (host : String) (h : Handshake) (w : World) :
    (gnutlsChannelStartHandshake ask host h w).priv = ⟨some w.nextSession, true⟩ := by
  rw [startHandshake_eq]

theorem startHandshake_nextSession (ask : Feedback) (host : String) (h : Handshake)
    (w : World) : (gnutlsChannelStartHandshake ask host h w).nextSession = w.nextSession + 1 := by
  rw [startHandshake_eq]

theorem startHandshake_fate (ask : Feedback) (host : String) (h : Handshake) (w : World) :
    (gnutlsChannelStartHandshake ask host h w).fate = w.fate := by
  rw [startHandshake_eq]

/-! ## The retry loops -/

/-- A `gint` keeps what fits into it. -/
theorem toGint_eq {r : Int} (hlow : -2 ^ 31 ≤ r) (hhigh : r < 2 ^ 31) : toGint r = r := by
  unfold toGint
  rw [Int.bmod_eq_of_le (by omega) (by omega)]

def recvEvents (s : Option Nat) (count : Nat) (c : RecvCall) : List Event :=
  .recv s count :: c.io.map TransportCall.event

def sendEvents (s : Option Nat) (buf : List UInt8) (count : Int) (c : SendCall) :
    List Event :=
  .send s buf (toGsize count) :: c.io.map TransportCall.event

theorem recordRecv_eq (count : Nat) (c : RecvCall) (w : World) :
    recordRecv count c w =
      { w with log := w.log ++ recvEvents w.priv.gnutlsSession count c } := by
  simp [recordRecv, recvEvents, World.note, World.transport]

theorem recordSend_eq (buf : List UInt8) (count : Int) (c : SendCall) (w : World) :
    recordSend buf count c w =
      { w with log := w.log ++ sendEvents w.priv.gnutlsSession buf count c } := by
  simp [recordSend, sendEvents, World.note, World.transport]

/-- The loop makes at least one call, and all it does is to make its calls. -/
theorem retryLoop_some {κ : Type} {record : κ → World → World} {again : κ → Bool}
    (ev : Option Nat → κ → List Event)
    (hrecord : ∀ c w, record c w = { w with log := w.log ++ ev w.priv.gnutlsSession c })
    {calls : List κ} {w w' : World} {e : Ending κ}
    (h : gnutlsRetryLoop record again calls w = some (e, w')) :
    calls ≠ [] ∧ w' = { w with log := w.log ++ calls.flatMap (ev w.priv.gnutlsSession) } := by
  induction calls generalizing w with
  | nil => cases h
  | cons c cs ih =>
      refine ⟨List.cons_ne_nil c cs, ?_⟩
      cases cs with
      | nil =>
          simp only [gnutlsRetryLoop, Option.some.injEq, Prod.mk.injEq] at h
          rw [← h.2, hrecord, List.flatMap_singleton]
      | cons c' cs =>
          rw [gnutlsRetryLoop] at h
          · split at h
            · obtain ⟨-, hw'⟩ := ih h
              rw [hw', hrecord]
              simp
            · cases h
          · simp

/-- The loop returns one of its calls, and one it does not go on after. -/
theorem retryLoop_returns {κ : Type} {record : κ → World → World} {again : κ → Bool}
    {calls : List κ} {c : κ} {w w' : World}
    (h : gnutlsRetryLoop record again calls w = some (.returns c, w')) :
    c ∈ calls ∧ again c = false := by
  induction calls generalizing w with
  | nil => cases h
  | cons d calls ih =>
      cases calls with
      | nil =>
          simp only [gnutlsRetryLoop, Option.some.injEq, Prod.mk.injEq] at h
          obtain ⟨hret, -⟩ := h
          split at hret
          · cases hret
          · next hagain =>
              injection hret with hc
              subst hc
              exact ⟨List.mem_singleton_self d, Bool.eq_false_iff.mpr hagain⟩
      | cons d' calls =>
          rw [gnutlsRetryLoop] at h
          · split at h
            · exact (ih h).imp_left (List.mem_cons_of_mem d)
            · cases h
          · exact nofun

/-- What an encrypted channel returns is what one of the calls received. -/
theorem read_received {count : Nat} {out : Bool} {a : Answer ReadResult RecvCall}
    {w w' : World} {r : ReadResult} (henc : w.priv.isEncrypted = true)
    (h : gnutlsChannelRead count out a w = some (.returns r, w')) :
    ∃ calls c, a = .gnutls calls ∧ c ∈ calls ∧ r = recvResult c := by
  unfold gnutlsChannelRead at h
  rw [henc] at h
  cases a with
  | inner r => cases h
  | gnutls calls =>
      simp only [] at h
      split at h
      · split at h
        · cases h
        · next c _ hloop =>
            cases h
            exact ⟨calls, c, rfl, (retryLoop_returns hloop).1, rfl⟩
        · cases h
        · cases h
      · split at h
        · cases h
        · cases h

theorem Ending.fate_ne_finalized {α : Type} (e : Ending α) : e.fate ≠ .finalized := by
  cases e <;> simp [Ending.fate]

/-! ## The inversion -/

/-- Everything one call can do. -/
inductive Happens (ask : Feedback) (w : World) : Label → World → Prop where
  | setExpectedFingerprint (s) :
      Happens ask w (.setExpectedFingerprint s)
        { w with secure := { w.secure with expectedFingerprint := s } }
  | startHandshake (host h) :
      Happens ask w (.startHandshake host h) (gnutlsChannelStartHandshake ask host h w)
  | readInner {count out r} (henc : w.priv.isEncrypted = false) :
      Happens ask w (.read count out (.inner r)) (w.note (.innerRead .application r.data))
  | recv {count calls fate} (henc : w.priv.isEncrypted = true) (hne : calls ≠ [])
      (hfate : fate ≠ .finalized) :
      Happens ask w (.read count true (.gnutls calls))
        { w with fate, log := w.log ++ calls.flatMap (recvEvents w.priv.gnutlsSession count) }
  | readNull {count} (henc : w.priv.isEncrypted = true) :
      Happens ask w (.read count false (.gnutls [])) { w with fate := .crashed }
  | writeInner {buf count out r} (henc : w.priv.isEncrypted = false) :
      Happens ask w (.write buf count out (.inner r))
        (w.note (.innerWrite .application buf count))
  | send {buf count out calls fate} (henc : w.priv.isEncrypted = true) (hne : calls ≠ [])
      (hfate : fate ≠ .finalized) :
      Happens ask w (.write buf count out (.gnutls calls))
        { w with fate, log := w.log ++ calls.flatMap (sendEvents w.priv.gnutlsSession buf count) }
  | closeInner (henc : w.priv.isEncrypted = false) :
      Happens ask w (.close []) (w.note .innerClose)
  | close {io} (henc : w.priv.isEncrypted = true) :
      Happens ask w (.close io)
        { w with
          log := w.log ++ .bye w.priv.gnutlsSession :: io.map TransportCall.event ++
            [.deinit w.priv.gnutlsSession, .innerClose] }
  | innerClosed (reason) :
      Happens ask w (.innerClosed reason) (channelInnerClosedCb reason w)
  | finalize : Happens ask w .finalize (gnutlsChannelFinalize w)

theorem read_cases {ask : Feedback} {count : Nat} {out : Bool}
    {a : Answer ReadResult RecvCall} {w w' : World} (hrun : w.fate = .running)
    (h : afterCall (gnutlsChannelRead count out a w) = some w') :
    Happens ask w (.read count out a) w' := by
  unfold gnutlsChannelRead at h
  cases henc : w.priv.isEncrypted with
  | false =>
      rw [henc] at h
      cases a with
      | gnutls calls => cases h
      | inner r =>
          simp only [afterCall, Option.map_some, Ending.fate, Option.some.injEq] at h
          rw [← h, ← hrun]
          exact .readInner henc
  | true =>
      rw [henc] at h
      cases a with
      | inner r => cases h
      | gnutls calls =>
          cases out with
          | false =>
              simp only [Bool.false_eq_true, if_false, afterCall] at h
              split at h
              · next hnil =>
                  rw [List.isEmpty_iff] at hnil
                  subst hnil
                  simp only [Option.map_some, Ending.fate, Option.some.injEq] at h
                  exact h ▸ .readNull henc
              · cases h
          | true =>
              simp only [if_true, afterCall] at h
              split at h
              · cases h
              all_goals
                next hloop =>
                  obtain ⟨hne, rfl⟩ :=
                    retryLoop_some (recvEvents · count) (recordRecv_eq count) hloop
                  simp only [Option.map_some, Option.some.injEq] at h
                  exact h ▸ .recv henc hne (Ending.fate_ne_finalized _)

theorem write_cases {ask : Feedback} {buf : List UInt8} {count : Int} {out : Bool}
    {a : Answer WriteResult SendCall} {w w' : World} (hrun : w.fate = .running)
    (h : afterCall (gnutlsChannelWrite buf count out a w) = some w') :
    Happens ask w (.write buf count out a) w' := by
  unfold gnutlsChannelWrite at h
  cases henc : w.priv.isEncrypted with
  | false =>
      rw [henc] at h
      cases a with
      | gnutls calls => cases h
      | inner r =>
          simp only [afterCall, Option.map_some, Ending.fate, Option.some.injEq] at h
          rw [← h, ← hrun]
          exact .writeInner henc
  | true =>
      rw [henc] at h
      cases a with
      | inner r => cases h
      | gnutls calls =>
          cases out with
          | false =>
              simp only [Bool.false_eq_true, if_false, afterCall] at h
              split at h
              · next c =>
                  simp only [Option.map_some, Ending.fate, Option.some.injEq] at h
                  rw [← h, recordSend_eq, ← List.flatMap_singleton (sendEvents _ buf count) c]
                  exact .send henc (List.cons_ne_nil _ _) (by simp)
              · cases h
          | true =>
              simp only [if_true, afterCall] at h
              split at h
              · cases h
              all_goals
                next hloop =>
                  obtain ⟨hne, rfl⟩ :=
                    retryLoop_some (sendEvents · buf count) (recordSend_eq buf count) hloop
                  simp only [Option.map_some, Option.some.injEq] at h
                  exact h ▸ .send henc hne (Ending.fate_ne_finalized _)

theorem close_cases {ask : Feedback} {io : List TransportCall} {w w' : World}
    (h : gnutlsChannelClose io w = some w') : Happens ask w (.close io) w' := by
  unfold gnutlsChannelClose at h
  split at h
  · next henc =>
      rw [Option.some.injEq] at h
      have hw' : w' = { w with
          log := w.log ++ .bye w.priv.gnutlsSession :: io.map TransportCall.event ++
            [.deinit w.priv.gnutlsSession, .innerClose] } := by
        rw [← h]
        simp [World.note, World.transport]
      exact hw' ▸ .close henc
  · next henc =>
      split at h
      · next hnil =>
          rw [List.isEmpty_iff] at hnil
          subst hnil
          rw [Option.some.injEq] at h
          exact h ▸ .closeInner (by simpa using henc)
      · cases h

/-- The inversion of `step`. -/
theorem gnutls_step_cases {ask : Feedback} {w w' : World} {l : Label}
    (h : step ask w l = some w') : w.fate = .running ∧ Happens ask w l w' := by
  unfold step at h
  split at h
  · cases h
  · next hrun =>
      rw [not_not] at hrun
      refine ⟨hrun, ?_⟩
      cases l with
      | setExpectedFingerprint s => exact Option.some.inj h ▸ .setExpectedFingerprint s
      | startHandshake host hs => exact Option.some.inj h ▸ .startHandshake host hs
      | read count out a => exact read_cases hrun h
      | write buf count out a => exact write_cases hrun h
      | close io => exact close_cases h
      | innerClosed reason => exact Option.some.inj h ▸ .innerClosed reason
      | finalize => exact Option.some.inj h ▸ .finalize

theorem log_step {ask : Feedback} {w w' : World} {l : Label} (h : step ask w l = some w') :
    ∃ evs, w'.log = w.log ++ evs := by
  cases (gnutls_step_cases h).2 with
  | setExpectedFingerprint _ | readNull _ => exact ⟨[], (List.append_nil _).symm⟩
  | startHandshake host hs => exact ⟨_, startHandshake_log ..⟩
  | readInner _ | recv _ _ _ | writeInner _ | send _ _ _ | closeInner _ | innerClosed _
  | finalize => exact ⟨_, rfl⟩
  | close _ => exact ⟨_, List.append_assoc ..⟩

theorem log_run {ask : Feedback} {w w' : World} {as : List Label}
    (h : Lts.exec (step ask) w as = some w') : ∃ evs, w'.log = w.log ++ evs := by
  refine Lts.exec_preserves (I := fun t => ∃ evs, t.log = w.log ++ evs) ?_
    ⟨[], (List.append_nil _).symm⟩ h
  intro s a t hinv hstep
  obtain ⟨evs, hs⟩ := hinv
  obtain ⟨evs', ht⟩ := log_step hstep
  exact ⟨evs ++ evs', by rw [ht, hs, List.append_assoc]⟩

/-- A channel that is not running any more stays as it is. -/
theorem run_stopped {ask : Feedback} {w w' : World} {as : List Label}
    (hstop : w.fate ≠ .running) (h : Lts.exec (step ask) w as = some w') : w' = w := by
  cases as with
  | nil =>
      rw [Lts.exec_nil, Option.some.injEq] at h
      exact h.symm
  | cons a as =>
      obtain ⟨t, ht, -⟩ := Lts.exec_cons_some h
      exact absurd (gnutls_step_cases ht).1 hstop

/-! ## Session numbers

A session is spoken of only after its `gnutls_init`, and numbers are not given
out twice. -/

def Event.session : Event → Option Nat
  | .init s => s
  | .handshake s _ => s
  | .verify s _ _ => s
  | .recv s _ => s
  | .send s _ _ => s
  | .bye s => s
  | .deinit s => s
  | _ => none

/-- The sessions spoken of so far have numbers that are not given out again. -/
structure Numbered (w : World) : Prop where
  current : ∀ n, w.priv.gnutlsSession = some n → n < w.nextSession
  logged : ∀ e ∈ w.log, ∀ n, e.session = some n → n < w.nextSession

theorem session_transport (c : TransportCall) : c.event.session = none := by
  cases c <;> rfl

theorem session_handshake {ask : Feedback} {host : String} {h : Handshake} {w : World}
    {e : Event} (he : e ∈ handshakeEvents ask host h w) :
    e.session = none ∨ e.session = some w.nextSession := by
  unfold handshakeEvents at he
  rw [List.cons_append, List.mem_cons, List.mem_append, List.mem_cons] at he
  rcases he with rfl | hio | rfl | hrest
  · exact Or.inr rfl
  · obtain ⟨c, -, rfl⟩ := List.mem_map.mp hio
    exact Or.inl (session_transport c)
  · exact Or.inr rfl
  · split at hrest
    · rw [List.mem_singleton.mp hrest]
      exact Or.inr rfl
    · cases hrest

/-- What a loop logs is its own call, over and over, and transport calls. -/
theorem mem_loopEvents {κ : Type} {io : κ → List TransportCall} {call e : Event}
    {calls : List κ} (he : e ∈ calls.flatMap fun c => call :: (io c).map TransportCall.event) :
    e = call ∨ ∃ t : TransportCall, e = t.event := by
  obtain ⟨c, -, hc⟩ := List.mem_flatMap.mp he
  rcases List.mem_cons.mp hc with heq | hio
  · exact Or.inl heq
  · obtain ⟨t, -, heq⟩ := List.mem_map.mp hio
    exact Or.inr ⟨t, heq.symm⟩

theorem session_loop {κ : Type} {io : κ → List TransportCall} {call e : Event}
    {calls : List κ} (he : e ∈ calls.flatMap fun c => call :: (io c).map TransportCall.event) :
    e.session = none ∨ e.session = call.session := by
  rcases mem_loopEvents he with rfl | ⟨t, rfl⟩
  · exact Or.inr rfl
  · exact Or.inl (session_transport t)

theorem session_close {s : Option Nat} {io : List TransportCall} {e : Event}
    (he : e ∈ .bye s :: io.map TransportCall.event ++ [.deinit s, .innerClose]) :
    e.session = none ∨ e.session = s := by
  rw [List.cons_append, List.mem_cons, List.mem_append] at he
  rcases he with rfl | hio | hrest
  · exact Or.inr rfl
  · obtain ⟨t, -, rfl⟩ := List.mem_map.mp hio
    exact Or.inl (session_transport t)
  · rcases List.mem_cons.mp hrest with rfl | hrest
    · exact Or.inr rfl
    · rw [List.mem_singleton.mp hrest]
      exact Or.inl rfl

theorem Numbered.extend {w w' : World} {evs : List Event} (h : Numbered w)
    (hlog : w'.log = w.log ++ evs) (hpriv : w'.priv = w.priv)
    (hnext : w'.nextSession = w.nextSession)
    (hsession : ∀ e ∈ evs, e.session = none ∨ e.session = w.priv.gnutlsSession) :
    Numbered w' := by
  refine ⟨fun n hs => ?_, fun e he n hs => ?_⟩
  · rw [hpriv] at hs
    rw [hnext]
    exact h.current n hs
  · rw [hnext]
    rw [hlog] at he
    rcases List.mem_append.mp he with hold | hnew
    · exact h.logged e hold n hs
    · rcases hsession e hnew with hnone | hcur
      · rw [hnone] at hs
        cases hs
      · exact h.current n (hcur ▸ hs)

theorem Numbered.handshake {ask : Feedback} {host : String} {h : Handshake} {w : World}
    (hn : Numbered w) : Numbered (gnutlsChannelStartHandshake ask host h w) := by
  refine ⟨fun n hs => ?_, fun e he n hs => ?_⟩
  · rw [startHandshake_priv, Option.some.injEq] at hs
    rw [startHandshake_nextSession]
    omega
  · rw [startHandshake_nextSession]
    rw [startHandshake_log] at he
    rcases List.mem_append.mp he with hold | hnew
    · have hlt := hn.logged e hold n hs
      omega
    · rcases session_handshake hnew with hnone | hcur
      · rw [hnone] at hs
        cases hs
      · rw [hcur, Option.some.injEq] at hs
        omega

theorem numbered_step {ask : Feedback} {w w' : World} {l : Label} (h : Numbered w)
    (hstep : step ask w l = some w') : Numbered w' := by
  cases (gnutls_step_cases hstep).2 with
  | setExpectedFingerprint _ | readNull _ =>
      exact h.extend (List.append_nil _).symm rfl rfl (by simp)
  | startHandshake host hs => exact h.handshake
  | readInner _ | writeInner _ | closeInner _ | innerClosed _ | finalize =>
      exact h.extend rfl rfl rfl (by simp [Event.session])
  | recv _ _ _ => exact h.extend rfl rfl rfl fun e he => session_loop he
  | send _ _ _ => exact h.extend rfl rfl rfl fun e he => session_loop he
  | close _ => exact h.extend (List.append_assoc ..) rfl rfl fun e he => session_close he

end LmTransport.Ref.Gnutls
