import LmTransport.Proofs.Handshake

/-!
# Pinning a fingerprint

The fingerprint of a certificate is sixteen bytes of any value. It travels as a
string: the property is set from the buffer and ends at the first zero in it,
or somewhere behind the digest if there is none. Coming back as the expected
fingerprint, it is compared over sixteen bytes again, however long it is.

A zero in the last of the sixteen places does no harm, because the string is
followed by one. A zero before that cuts off what the comparison still looks
at, and what it looks at instead is the memory behind the string.
-/

namespace LmTransport.Ref.Gnutls

/-- The certificate of the peer has this digest, at the beginning of the
buffer. What follows it there was not written. -/
structure Presents (peer : Peer) (digest : List UInt8) : Prop where
  certType : peer.certType = .x509
  taken : 0 ≤ peer.fingerprintRc
  size : peer.digestSize = 16
  length : digest.length = 16
  written : digest <+: peer.fingerprint

/-- The user is told of a mismatch. -/
def ReportsMismatch (peer : Peer) (server : String) (w : World) : Prop :=
  .certFingerprintMismatch ∈ (verdict alwaysContinue peer server w).2

/-- A channel that expects what another one has seen reports a mismatch exactly
for the other digests. -/
def PinsFingerprint (digest : List UInt8) : Prop :=
  ∀ (peer peer' : Peer) (server server' : String) (w v : World) (other : List UInt8),
    Presents peer digest → Presents peer' other →
    v.secure.expectedFingerprint =
      (gnutlsChannelVerifyCertificate alwaysContinue peer server w).2.secure.fingerprint →
    (ReportsMismatch peer' server' v ↔ other ≠ digest)

/-- `memcmp` may look at every one of its bytes, and all of them are in the
string, its zero included, and in the digest. -/
def ComparesInside (expected : List UInt8) : Prop :=
  ∀ (peer : Peer) (digest : List UInt8), Presents peer digest →
    ∀ i < peer.digestSize, i < expected.length + 1 ∧ i < digest.length

/-! ## What is reported -/

/-- With the stub everything is asked. -/
theorem askInTurn_continue (problems : List (Bool × LmSSLStatus)) (asked : List LmSSLStatus) :
    askInTurn alwaysContinue asked problems = (true, asked ++ holding problems) := by
  induction problems generalizing asked with
  | nil => rw [askInTurn, holding, List.filter_nil, List.map_nil, List.append_nil]
  | cons problem problems ih =>
      obtain ⟨holds, p⟩ := problem
      cases holds with
      | false => exact ih asked
      | true =>
          have hrest := ih (asked ++ [p])
          rw [List.append_assoc] at hrest
          exact hrest

theorem verify_fingerprint {peer : Peer} {digest : List UInt8} (h : Presents peer digest)
    (server : String) (w : World) :
    (gnutlsChannelVerifyCertificate alwaysContinue peer server w).2.secure.fingerprint =
      some (fingerprintString peer) := by
  unfold gnutlsChannelVerifyCertificate
  simp only [askInTurn_continue, h.certType, and_self, if_true]

theorem reportsMismatch_iff {peer : Peer} {digest expected : List UInt8}
    (h : Presents peer digest) (server : String) {w : World}
    (hexp : w.secure.expectedFingerprint = some expected) :
    ReportsMismatch peer server w ↔ (expected ++ 0 :: peer.beyond).take 16 ≠ digest := by
  have hdigest : peer.fingerprint.take 16 = digest := by
    obtain ⟨rest, hrest⟩ := h.written
    rw [← hrest, ← h.length, List.take_left]
  unfold ReportsMismatch verdict
  rw [askInTurn_continue, hexp, certificateProblems, if_pos h.certType, x509Problems,
    if_pos h.taken]
  simp [holding, fingerprintDiffers, h.size, hdigest]

/-! ## The string -/

/-- Without a zero before the last place, the string and its zero begin with the
digest. -/
theorem string_covers {digest rest : List UInt8} (hlen : digest.length = 16)
    (hzero : 0 ∉ digest.take 15) (beyond : List UInt8) :
    ((digest ++ rest).takeWhile (· != 0) ++ 0 :: beyond).take 16 = digest := by
  rcases List.eq_nil_or_concat digest with rfl | ⟨init, d, rfl⟩
  · cases hlen
  · rw [List.concat_eq_append] at *
    rw [List.length_append, List.length_singleton] at hlen
    have hinit : init.length = 15 := by omega
    rw [← hinit, List.take_left] at hzero
    have hall : ∀ b ∈ init, (b != 0) = true := fun b hb => by
      simpa using fun hb0 : b = 0 => hzero (hb0 ▸ hb)
    rw [List.append_assoc, List.takeWhile_append_of_pos hall, List.singleton_append]
    by_cases hd : d = 0
    · -- the zero of the string stands for the last byte
      rw [List.takeWhile_cons_of_neg (by simp [hd]), List.append_nil, hd]
      rw [show (16 : Nat) = init.length + 1 by omega, List.take_length_add_append]
      rfl
    · rw [List.takeWhile_cons_of_pos (by simpa using hd), List.append_assoc]
      rw [show (16 : Nat) = init.length + 1 by omega, List.take_length_add_append]
      rfl

/-- With one, the memory behind the string decides. -/
theorem string_short {digest : List UInt8} (hlen : digest.length = 16)
    (hzero : 0 ∈ digest.take 15) (rest : List UInt8) :
    ∃ beyond : List UInt8,
      ((digest ++ rest).takeWhile (· != 0) ++ 0 :: beyond).take 16 ≠ digest := by
  obtain ⟨init, tail, hsplit, hinit⟩ := List.eq_append_cons_of_mem hzero
  have hall : ∀ b ∈ init, (b != 0) = true := fun b hb => by
    simpa using fun hb0 : b = 0 => hinit (hb0 ▸ hb)
  have hdigest : digest = init ++ 0 :: (tail ++ digest.drop 15) := by
    conv_lhs => rw [← List.take_append_drop 15 digest, hsplit]
    rw [List.append_assoc, List.cons_append]
  have hnext : tail ++ digest.drop 15 ≠ [] := by
    intro hnil
    have hdrop := congrArg List.length (List.append_eq_nil_iff.mp hnil).2
    rw [List.length_drop, hlen] at hdrop
    cases hdrop
  obtain ⟨d, ds, hds⟩ := List.exists_cons_of_ne_nil hnext
  rw [hds] at hdigest
  have hstring : (digest ++ rest).takeWhile (· != 0) = init := by
    rw [hdigest, List.append_assoc, List.takeWhile_append_of_pos hall, List.cons_append,
      List.takeWhile_cons_of_neg (by simp), List.append_nil]
  refine ⟨(d + 1) :: List.replicate 16 0, fun heq => ?_⟩
  rw [hstring] at heq
  have hshort : init.length + 2 ≤ 16 := by
    rw [hdigest, List.length_append, List.length_cons, List.length_cons] at hlen
    omega
  have hat := congrArg (fun xs : List UInt8 => xs[init.length + 1]?) heq
  have hother : digest[init.length + 1]? = some d := by
    rw [hdigest, List.getElem?_append_right (by omega)]
    simp
  rw [hother, List.getElem?_take_of_lt (by omega), List.getElem?_append_right (by omega)] at hat
  simp at hat

/-! ## The law -/

/-- A peer whose certificate has this digest and nothing wrong about it, with
these bytes behind the string it is compared with. -/
def digestPeer (digest beyond : List UInt8) : Peer :=
  { goodPeer with fingerprint := digest ++ [0, 0, 0, 0], digestSize := 16, beyond }

theorem digestPeer_presents {digest : List UInt8} (h : digest.length = 16)
    (beyond : List UInt8) : Presents (digestPeer digest beyond) digest :=
  ⟨rfl, Int.le_refl 0, rfl, h, List.prefix_append _ _⟩

theorem comparesInside_iff (expected : List UInt8) :
    ComparesInside expected ↔ 15 ≤ expected.length := by
  constructor
  · intro h
    have hlast := (h (digestPeer (List.replicate 16 1) []) _
      (digestPeer_presents List.length_replicate []) 15 (by decide)).1
    omega
  · intro h peer digest hpeer i hi
    rw [hpeer.size] at hi
    rw [hpeer.length]
    omega

/-- The round trip of a digest works exactly if it has no zero among its first
fifteen bytes, and an expected fingerprint is compared within its bounds exactly
if it has fifteen. -/
theorem fingerprint_pinned_iff {digest : List UInt8} (hlen : digest.length = 16)
    (expected : List UInt8) :
    (PinsFingerprint digest ↔ 0 ∉ digest.take 15) ∧
      (ComparesInside expected ↔ 15 ≤ expected.length) := by
  refine ⟨⟨fun hpins hzero => ?_, fun hzero => ?_⟩, comparesInside_iff expected⟩
  · obtain ⟨beyond, hbeyond⟩ := string_short hlen hzero [0, 0, 0, 0]
    have hfirst := digestPeer_presents hlen []
    have hsecond := digestPeer_presents hlen beyond
    have hexp := verify_fingerprint hfirst "" {}
    have hsame := hpins _ _ "" "" {} { secure := { expectedFingerprint := _ } } _ hfirst hsecond rfl
    rw [reportsMismatch_iff hsecond "" (w := { secure := { expectedFingerprint := _ } }) hexp]
      at hsame
    exact hsame.mp hbeyond rfl
  · intro peer peer' server server' w v other hpeer hpeer' hv
    rw [verify_fingerprint hpeer server w] at hv
    obtain ⟨rest, hrest⟩ := hpeer.written
    have hcovers := @string_covers _ rest hlen hzero peer'.beyond
    rw [hrest] at hcovers
    rw [reportsMismatch_iff hpeer' server' hv, fingerprintString, hcovers]
    exact ne_comm

/-- Fifteen bytes that are not zero, and one that is. -/
theorem fingerprint_pinned_sample :
    PinsFingerprint [1, 2, 3, 4, 5, 6, 7, 8, 9, 10, 11, 12, 13, 14, 15, 0] ∧
      ComparesInside [1, 2, 3, 4, 5, 6, 7, 8, 9, 10, 11, 12, 13, 14, 15] := by
  have hiff := @fingerprint_pinned_iff [1, 2, 3, 4, 5, 6, 7, 8, 9, 10, 11, 12, 13, 14, 15, 0] rfl
    [1, 2, 3, 4, 5, 6, 7, 8, 9, 10, 11, 12, 13, 14, 15]
  exact ⟨hiff.1.mpr (by decide), hiff.2.mpr (by decide)⟩

/-- A digest with a zero in the second place. The string is one byte long, and
the same certificate is reported when it comes again: the fourteen bytes that
are compared behind the string are not those of the digest. -/
theorem fingerprint_not_pinned :
    ¬ PinsFingerprint [1, 0, 3, 4, 5, 6, 7, 8, 9, 10, 11, 12, 13, 14, 15, 16] ∧
      ¬ ComparesInside [1] := by
  have hlen : ([1, 0, 3, 4, 5, 6, 7, 8, 9, 10, 11, 12, 13, 14, 15, 16] : List UInt8).length =
      16 := rfl
  refine ⟨fun hpins => ?_, fun h => absurd ((comparesInside_iff [1]).mp h) (by decide)⟩
  have hpeer := digestPeer_presents hlen []
  have hexp := verify_fingerprint hpeer "" {}
  have hsame := hpins _ _ "" "" {} { secure := { expectedFingerprint := some [1] } } _ hpeer hpeer
    hexp.symm
  rw [reportsMismatch_iff hpeer "" (w := { secure := { expectedFingerprint := some [1] } }) rfl]
    at hsame
  exact hsame.mp (by decide) rfl

end LmTransport.Ref.Gnutls
