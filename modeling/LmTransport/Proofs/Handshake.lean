import LmTransport.Proofs.GnutlsSteps

/-!
# What `is_encrypted` says about the peer

`gnutls_channel_start_handshake` collects two failures, of the handshake and of
the verification, and then sets `is_encrypted` whether or not there was one.
Reads and writes go by that flag, so what it says about the session is what the
last handshake came to: the property of this file holds along a run exactly
when every handshake of the run succeeds, and succeeding is said in terms of
what GnuTLS and the feedback function answered.
-/

namespace LmTransport.Ref.Gnutls

open Lts

/-! ## The verdict -/

/-- The problems that hold. -/
def holding (problems : List (Bool × LmSSLStatus)) : List LmSSLStatus :=
  (problems.filter (·.1)).map (·.2)

/-- The feedback function accepts each of them, asked one after the other. -/
def Accepted (ask : Feedback) (asked problems : List LmSSLStatus) : Prop :=
  ∀ i, (h : i < problems.length) → ask (asked ++ problems.take i) problems[i] = true

instance (ask : Feedback) (asked problems : List LmSSLStatus) :
    Decidable (Accepted ask asked problems) :=
  inferInstanceAs (Decidable (∀ i, (_ : i < problems.length) → _))

theorem accepted_cons {ask : Feedback} {asked : List LmSSLStatus} {p : LmSSLStatus}
    {ps : List LmSSLStatus} :
    Accepted ask asked (p :: ps) ↔ ask asked p = true ∧ Accepted ask (asked ++ [p]) ps := by
  constructor
  · intro h
    refine ⟨?_, fun i hi => ?_⟩
    · have h0 := h 0 (Nat.zero_lt_succ _)
      simpa using h0
    · have hs := h (i + 1) (Nat.succ_lt_succ hi)
      simpa using hs
  · intro h i hi
    obtain ⟨hp, hps⟩ := h
    cases i with
    | zero => simpa using hp
    | succ i =>
        have hs := hps i (Nat.lt_of_succ_lt_succ hi)
        simpa using hs

/-- `TRUE` is the verdict when all that holds has been accepted, and it has all
been asked about then. -/
theorem askInTurn_iff {ask : Feedback} {problems : List (Bool × LmSSLStatus)}
    {asked : List LmSSLStatus} :
    (askInTurn ask asked problems).1 = true ↔ Accepted ask asked (holding problems) := by
  induction problems generalizing asked with
  | nil => exact ⟨fun _ i hi => absurd hi (Nat.not_lt_zero i), fun _ => rfl⟩
  | cons problem problems ih =>
      obtain ⟨holds, p⟩ := problem
      cases holds with
      | false => exact ih
      | true =>
          rw [show holding ((true, p) :: problems) = p :: holding problems from rfl,
            accepted_cons, ← ih]
          show (if ask asked p = true then _ else _ : Bool × List LmSSLStatus).1 = true ↔ _
          split
          · next hp => exact ⟨fun h => ⟨hp, h⟩, fun h => h.2⟩
          · next hp => exact ⟨fun h => absurd h (by simp), fun h => absurd h.1 hp⟩

theorem verdict_iff {ask : Feedback} {peer : Peer} {server : String} {w : World} :
    (verdict ask peer server w).1 = true ↔
      Accepted ask []
        (holding (certificateProblems peer server w.secure.expectedFingerprint)) :=
  askInTurn_iff

/-! ## Authenticated sessions -/

/-- The handshake of the session succeeded, and its peer was accepted. -/
def Authenticated (log : List Event) (s : Option Nat) : Prop :=
  (∃ ret, 0 ≤ ret ∧ .handshake s ret ∈ log) ∧ ∃ asked, .verify s asked true ∈ log

/-- An encrypted channel has an authenticated session, and application data has
been sent on no other. -/
structure SafeChannel (w : World) : Prop where
  encrypted : w.priv.isEncrypted = true → Authenticated w.log w.priv.gnutlsSession
  sent : ∀ s buf count, .send s buf count ∈ w.log → Authenticated w.log s

def HandshakeSucceeds (ask : Feedback) (w : World) : Label → Prop
  | .startHandshake host h =>
      0 ≤ h.ret ∧ Accepted ask []
        (holding (certificateProblems h.peer host w.secure.expectedFingerprint))
  | _ => True

instance (ask : Feedback) (w : World) : (l : Label) → Decidable (HandshakeSucceeds ask w l)
  | .startHandshake _ _ => inferInstanceAs (Decidable (_ ∧ _))
  | .setExpectedFingerprint _ | .read _ _ _ | .write _ _ _ _ | .close _ | .innerClosed _
  | .finalize => isTrue trivial

/-! ## What keeps a channel safe -/

theorem Authenticated.mono {log log' : List Event} {s : Option Nat} (h : Authenticated log s)
    (hsub : ∀ e ∈ log, e ∈ log') : Authenticated log' s := by
  obtain ⟨⟨ret, hret, hmem⟩, asked, hverify⟩ := h
  exact ⟨⟨ret, hret, hsub _ hmem⟩, asked, hsub _ hverify⟩

theorem not_send_transport (io : List TransportCall) {s : Option Nat} {buf : List UInt8}
    {count : Nat} : .send s buf count ∉ io.map TransportCall.event := by
  intro hmem
  obtain ⟨c, -, hc⟩ := List.mem_map.mp hmem
  cases c <;> cases hc

/-- What is sent by a call that is not a handshake is sent on the session the
channel has, and only when it is encrypted. -/
theorem SafeChannel.extend {w w' : World} {evs : List Event} (h : SafeChannel w)
    (hlog : w'.log = w.log ++ evs) (hpriv : w'.priv = w.priv)
    (hsent : ∀ s buf count, .send s buf count ∈ evs →
      w.priv.isEncrypted = true ∧ s = w.priv.gnutlsSession) : SafeChannel w' := by
  have hsub : ∀ e ∈ w.log, e ∈ w'.log := fun e he => by
    rw [hlog]
    exact List.mem_append_left _ he
  refine ⟨fun henc => ?_, fun s buf count hmem => ?_⟩
  · rw [hpriv] at henc ⊢
    exact (h.encrypted henc).mono hsub
  · rw [hlog] at hmem
    rcases List.mem_append.mp hmem with hold | hnew
    · exact (h.sent s buf count hold).mono hsub
    · obtain ⟨henc, rfl⟩ := hsent s buf count hnew
      exact (h.encrypted henc).mono hsub

/-- The new session is authenticated just when its own handshake succeeded:
nothing in the log before speaks of it. -/
theorem authenticated_handshake (ask : Feedback) (host : String) (h : Handshake) {w : World}
    (hn : Numbered w) :
    Authenticated (w.log ++ handshakeEvents ask host h w) (some w.nextSession) ↔
      HandshakeSucceeds ask w (.startHandshake host h) := by
  have hold : ∀ e ∈ w.log, e.session ≠ some w.nextSession := fun e he hs =>
    absurd (hn.logged e he _ hs) (Nat.lt_irrefl _)
  have hio : ∀ e ∈ h.io.map TransportCall.event, e.session ≠ some w.nextSession := by
    intro e he
    obtain ⟨c, -, rfl⟩ := List.mem_map.mp he
    rw [session_transport]
    simp
  have hnew : ∀ e : Event, e.session = some w.nextSession →
      (e ∈ w.log ++ handshakeEvents ask host h w ↔
        e = .init (some w.nextSession) ∨ e = .handshake (some w.nextSession) h.ret ∨
          (0 ≤ h.ret ∧ e = .verify (some w.nextSession) (verdict ask h.peer host w).2
            (verdict ask h.peer host w).1)) := by
    intro e hs
    have hno : e ∉ w.log := fun he => hold e he hs
    have hnoio : e ∉ h.io.map TransportCall.event := fun he => hio e he hs
    unfold handshakeEvents
    rw [List.mem_append, List.mem_append, List.mem_cons, List.mem_cons]
    split
    · next hret => simp [hno, hnoio, hret]
    · next hret => simp [hno, hnoio, hret]
  constructor
  · intro hauth
    obtain ⟨⟨ret, hret, hmem⟩, asked, hverify⟩ := hauth
    rcases (hnew _ rfl).mp hmem with hcase | hcase | ⟨-, hcase⟩
    · cases hcase
    · cases hcase
      refine ⟨hret, verdict_iff.mp ?_⟩
      rcases (hnew _ rfl).mp hverify with hcase | hcase | ⟨-, hcase⟩
      · cases hcase
      · cases hcase
      · injection hcase with _ _ hok
        exact hok.symm
    · cases hcase
  · intro hok
    obtain ⟨hret, hacc⟩ := hok
    refine ⟨⟨h.ret, hret, (hnew _ rfl).mpr (Or.inr (Or.inl rfl))⟩,
      (verdict ask h.peer host w).2, (hnew _ rfl).mpr (Or.inr (Or.inr ⟨hret, ?_⟩))⟩
    rw [verdict_iff.mpr hacc]

theorem not_send_handshake {ask : Feedback} {host : String} {h : Handshake} {w : World}
    {s : Option Nat} {buf : List UInt8} {count : Nat} :
    .send s buf count ∉ handshakeEvents ask host h w := by
  intro hmem
  unfold handshakeEvents at hmem
  rw [List.cons_append, List.mem_cons, List.mem_append, List.mem_cons] at hmem
  rcases hmem with hcase | hio | hcase | hrest
  · cases hcase
  · exact not_send_transport h.io hio
  · cases hcase
  · split at hrest <;> simp at hrest

/-- A handshake leaves a safe channel exactly when it succeeds. -/
theorem safeChannel_handshake {ask : Feedback} {host : String} {h : Handshake} {w : World}
    (hsafe : SafeChannel w) (hn : Numbered w) :
    SafeChannel (gnutlsChannelStartHandshake ask host h w) ↔
      HandshakeSucceeds ask w (.startHandshake host h) := by
  have hauth := authenticated_handshake ask host h hn
  constructor
  · intro hs
    rw [← hauth]
    have henc := hs.encrypted (by rw [startHandshake_priv])
    rwa [startHandshake_priv, startHandshake_log] at henc
  · intro hok
    refine ⟨fun _ => ?_, fun s buf count hmem => ?_⟩
    · rw [startHandshake_priv, startHandshake_log]
      exact hauth.mpr hok
    · rw [startHandshake_log] at hmem ⊢
      rcases List.mem_append.mp hmem with hold | hnew
      · exact (hsafe.sent s buf count hold).mono fun e he => List.mem_append_left _ he
      · exact absurd hnew not_send_handshake

/-- Every call but a failing handshake keeps the channel safe. -/
theorem safeChannel_step {ask : Feedback} {w w' : World} {l : Label} (h : SafeChannel w)
    (hn : Numbered w) (hstep : step ask w l = some w') :
    SafeChannel w' ↔ HandshakeSucceeds ask w l := by
  have hkeep : ∀ {evs : List Event}, w'.log = w.log ++ evs → w'.priv = w.priv →
      (∀ s buf count, .send s buf count ∈ evs →
        w.priv.isEncrypted = true ∧ s = w.priv.gnutlsSession) → (SafeChannel w' ↔ True) := by
    intro evs hlog hpriv hsent
    exact ⟨fun _ => trivial, fun _ => h.extend hlog hpriv hsent⟩
  cases (gnutls_step_cases hstep).2 with
  | setExpectedFingerprint _ | readNull _ => exact hkeep (List.append_nil _).symm rfl (by simp)
  | startHandshake host hs => exact safeChannel_handshake h hn
  | readInner _ | writeInner _ | closeInner _ | innerClosed _ | finalize =>
      exact hkeep rfl rfl (by simp)
  | recv henc _ _ =>
      refine hkeep rfl rfl fun s buf count hmem => ?_
      rcases mem_loopEvents hmem with hcase | ⟨t, hcase⟩
      · cases hcase
      · cases t <;> cases hcase
  | send henc _ _ =>
      refine hkeep rfl rfl fun s buf count hmem => ⟨henc, ?_⟩
      rcases mem_loopEvents hmem with hcase | ⟨t, hcase⟩
      · injection hcase
      · cases t <;> cases hcase
  | @close io henc =>
      refine hkeep (List.append_assoc ..) rfl fun s buf count hmem => ?_
      rw [List.cons_append, List.mem_cons, List.mem_append] at hmem
      rcases hmem with hcase | hio | hcase
      · cases hcase
      · exact absurd hio (not_send_transport io)
      · simp at hcase

/-! ## The run -/

theorem encrypted_iff_handshakes_succeed (ask : Feedback) (as : List Label) :
    Along (step ask) (fun _ _ w => SafeChannel w) lmSecureChannelNew as ↔
      Meets (step ask) (HandshakeSucceeds ask) lmSecureChannelNew as := by
  have hstart : SafeChannel lmSecureChannelNew ∧ Numbered lmSecureChannelNew :=
    ⟨⟨nofun, nofun⟩, ⟨nofun, nofun⟩⟩
  refine along_iff_meets (I := fun w => SafeChannel w ∧ Numbered w) ?_ hstart
  intro w l w' hinv hstep
  obtain ⟨hsafe, hn⟩ := hinv
  have hiff := safeChannel_step hsafe hn hstep
  exact ⟨hiff, fun hok => ⟨hiff.mpr hok, numbered_step hn hstep⟩⟩

/-- A peer with nothing wrong about it. -/
def goodPeer : Peer :=
  { rc := 0, status := 0, expirationTime := 10, expirationNow := 5, activationTime := 0
    activationNow := 5, certType := .x509, certList := true, importRc := 0
    checkHostname := fun _ => true, fingerprintRc := 0, fingerprint := [1, 2, 0]
    digestSize := 2, beyond := [] }

/-- The handshake fails, the channel says it is encrypted all the same, and
what the application writes goes out on the session. -/
theorem failed_handshake_encrypted :
    ¬ Along (step alwaysContinue) (fun _ _ w => SafeChannel w) lmSecureChannelNew
      [.startHandshake "example" ⟨[], -1, goodPeer⟩,
        .write [104, 105] 2 true (.gnutls [⟨[], 2⟩])] := by
  intro h
  obtain ⟨-, hwrite⟩ := h _ rfl
  obtain ⟨hsafe, -⟩ := hwrite _ rfl
  obtain ⟨⟨ret, hret, hmem⟩, -⟩ := hsafe.sent (some 0) [104, 105] 2 (by decide)
  have hlog : .handshake (some 0) ret ∈ [Event.init (some 0), .handshake (some 0) (-1),
      .send (some 0) [104, 105] 2] := hmem
  have hfailed : ret = -1 := by simpa using hlog
  omega

end LmTransport.Ref.Gnutls
