import LmTransport.Proofs.Handshake

/-!
# No plaintext after a handshake

Both ways of reading and writing end at the inner channel, so what tells them
apart is who asked: the application, through the branch for a channel that is
not encrypted, or GnuTLS, through the transport callbacks. `is_encrypted` is
set by the handshake function, and no other function writes it. That is all the
invariant there is: it holds from the first handshake on, whatever that came
to, through closing and further handshakes.
-/

namespace LmTransport.Ref.Gnutls

open Lts

/-- The application's own bytes went through the inner channel. -/
def direct : Event → Bool
  | .innerRead .application _ => true
  | .innerWrite .application _ _ => true
  | _ => false

/-- A call that returned data returned what a call of `gnutls_record_recv` had
received. -/
def ReturnsReceived (w : World) : ChannelLabel → Prop
  | .call (.read count out a) =>
      ∀ r w', gnutlsChannelRead count out a w = some (.returns r, w') →
        ∃ calls c, a = .gnutls calls ∧ c ∈ calls ∧ r = recvResult c
  | _ => True

/-- One step hands nothing to the inner channel past GnuTLS, and nothing from
it to the application. -/
structure ThroughTls (c : Channel) (l : ChannelLabel) (c' : Channel) : Prop where
  io : ∃ evs, c'.world.log = c.world.log ++ evs ∧ ∀ e ∈ evs, direct e = false
  returned : ReturnsReceived c.world l

/-! ## What the calls log -/

theorem direct_transport (t : TransportCall) : direct t.event = false := by
  cases t with
  | push buf status bytesWritten => rfl
  | pull count status bytes => rfl

theorem direct_map_transport {io : List TransportCall} {e : Event}
    (he : e ∈ io.map TransportCall.event) : direct e = false := by
  obtain ⟨t, -, rfl⟩ := List.mem_map.mp he
  exact direct_transport t

theorem direct_handshake {ask : Feedback} {host : String} {h : Handshake} {w : World}
    {e : Event} (he : e ∈ handshakeEvents ask host h w) : direct e = false := by
  unfold handshakeEvents at he
  rw [List.cons_append, List.mem_cons, List.mem_append, List.mem_cons] at he
  rcases he with rfl | hio | rfl | hrest
  · rfl
  · exact direct_map_transport hio
  · rfl
  · split at hrest
    · rw [List.mem_singleton.mp hrest]
      rfl
    · cases hrest

theorem direct_loop {κ : Type} {io : κ → List TransportCall} {call e : Event}
    (hcall : direct call = false) {calls : List κ}
    (he : e ∈ calls.flatMap fun c => call :: (io c).map TransportCall.event) :
    direct e = false := by
  rcases mem_loopEvents he with rfl | ⟨t, rfl⟩
  · exact hcall
  · exact direct_transport t

theorem direct_close {s : Option Nat} {io : List TransportCall} {e : Event}
    (he : e ∈ .bye s :: io.map TransportCall.event ++ [.deinit s, .innerClose]) :
    direct e = false := by
  rw [List.cons_append, List.mem_cons, List.mem_append, List.mem_cons,
    List.mem_singleton] at he
  rcases he with rfl | hio | rfl | rfl
  · rfl
  · exact direct_map_transport hio
  · rfl
  · rfl

/-! ## One step -/

/-- Encrypted once, a channel stays so, and nothing goes past GnuTLS. -/
theorem encrypted_step {ask : Feedback} {w w' : World} {l : Label}
    (henc : w.priv.isEncrypted = true) (hs : step ask w l = some w') :
    w'.priv.isEncrypted = true ∧
      ∃ evs, w'.log = w.log ++ evs ∧ ∀ e ∈ evs, direct e = false := by
  have hone {e : Event} (he : direct e = false) : ∀ e' ∈ [e], direct e' = false := by
    intro e' hmem
    rw [List.mem_singleton.mp hmem]
    exact he
  cases (gnutls_step_cases hs).2 with
  | setExpectedFingerprint s => exact ⟨henc, [], (List.append_nil _).symm, nofun⟩
  | startHandshake host h =>
      refine ⟨?_, _, startHandshake_log .., fun e he => direct_handshake he⟩
      rw [startHandshake_priv]
  | readInner hplain => rw [henc] at hplain; cases hplain
  | recv _ _ _ => exact ⟨henc, _, rfl, fun e he => direct_loop rfl he⟩
  | readNull _ => exact ⟨henc, [], (List.append_nil _).symm, nofun⟩
  | writeInner hplain => rw [henc] at hplain; cases hplain
  | send _ _ _ => exact ⟨henc, _, rfl, fun e he => direct_loop rfl he⟩
  | closeInner hplain => rw [henc] at hplain; cases hplain
  | close _ => exact ⟨henc, _, List.append_assoc .., fun e he => direct_close he⟩
  | innerClosed reason => exact ⟨henc, _, rfl, hone rfl⟩
  | finalize => exact ⟨henc, _, rfl, hone rfl⟩

theorem throughTls_step {ask : Feedback} {c c' : Channel} {l : ChannelLabel}
    (henc : c.world.priv.isEncrypted = true) (hs : channelStep ask c l = some c') :
    ThroughTls c l c' ∧ c'.world.priv.isEncrypted = true := by
  cases l with
  | call l =>
      have hs : (step ask c.world l).map (fun world => { c with world }) = some c' := hs
      rw [Option.map_eq_some_iff] at hs
      obtain ⟨w', hw', rfl⟩ := hs
      obtain ⟨henc', hio⟩ := encrypted_step henc hw'
      refine ⟨⟨hio, ?_⟩, henc'⟩
      cases l with
      | read count out a => exact fun r w' h => read_received henc h
      | _ => trivial
  | inner e =>
      have hs : (if c.world.fate = .running then some (channelInnerCb e c) else none) = some c' :=
        hs
      split at hs
      · cases hs
        exact ⟨⟨⟨[], (List.append_nil _).symm, nofun⟩, trivial⟩, henc⟩
      · cases hs

/-! ## The run -/

/-- From the return of a handshake on, nothing the channel does goes past
GnuTLS, whatever state the handshake was started in. -/
theorem no_plaintext_after_handshake {ask : Feedback} {host : String} {h : Handshake}
    {c c' : Channel} (hs : channelStep ask c (.call (.startHandshake host h)) = some c')
    (as : List ChannelLabel) : Along (channelStep ask) ThroughTls c' as := by
  have henc : c'.world.priv.isEncrypted = true := by
    have hs : (step ask c.world (.startHandshake host h)).map
      (fun world => { c with world }) = some c' := hs
    rw [Option.map_eq_some_iff] at hs
    obtain ⟨w', hw', rfl⟩ := hs
    cases (gnutls_step_cases hw').2 with
    | startHandshake _ _ =>
        show (gnutlsChannelStartHandshake ask host h c.world).priv.isEncrypted = true
        rw [startHandshake_priv]
  exact along_of_invariant (I := fun c => c.world.priv.isEncrypted = true)
    (fun _ _ _ hI _ ht => throughTls_step hI ht) henc (meets_of_labels fun _ _ => trivial)

/-- A handshake that fails, then reading, writing and closing. -/
theorem no_plaintext_after_handshake_failed :
    ∃ c', channelStep alwaysContinue {} (.call (.startHandshake "example" ⟨[], -1, goodPeer⟩)) =
        some c' ∧
      Along (channelStep alwaysContinue) ThroughTls c'
        [.inner .readable, .call (.read 8 true (.gnutls [⟨[.pull 5 .normal [1]], 0, []⟩])),
          .call (.write [104] 1 true (.gnutls [⟨[.push [23, 3] .normal 2], 1⟩])),
          .call (.close [])] := by
  have hs : channelStep alwaysContinue {}
      (.call (.startHandshake "example" ⟨[], -1, goodPeer⟩)) = some _ := rfl
  exact ⟨_, hs, no_plaintext_after_handshake hs _⟩

end LmTransport.Ref.Gnutls
