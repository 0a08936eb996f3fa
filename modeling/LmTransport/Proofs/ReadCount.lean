import LmTransport.Proofs.GnutlsSteps
import LmTransport.Ref.ChannelStack

/-!
# What a read says it has read

The callers of `lm_channel_read` index their buffer with `*bytes_read` without
looking at the status, so every way out has to set it. Down a stack of channels
there are four: a TLS channel that is encrypted sets it first of all, the
`io_channel` of a socket sets it, and a socket without one returns `EOF` and
does not. The fourth is a `NULL` pointer, which is not asked about here.

So a read reports what it read just when it does not end up at a socket without
an `io_channel`.
-/

namespace LmTransport.Ref

open Gnutls (Ending ReadResult RecvCall toGint recvResult recvAgain gnutlsChannelRead)

/-! ## What a read reports -/

/-- `*bytes_read` has been set, and to what the status says. -/
def Reports (count : Nat) (r : ReadResult) : Prop :=
  ∃ n, r.bytesRead = some n ∧ n ≤ count ∧ (r.status = .normal → 0 < count → 0 < n) ∧
    (r.status ≠ .normal → n = 0)

/-- `gnutls_record_recv` returns a length that fits the buffer, or an error
code, which is an `int`. -/
def RecvCall.Obeys (count : Nat) (c : RecvCall) : Prop :=
  -2 ^ 31 ≤ c.ret ∧ c.ret ≤ count

/-- What is outside reports what it reads. -/
def Leaf.Obeys (count : Nat) : Leaf ReadResult RecvCall → Prop
  | .ioChannel r => Reports count r
  | .noChannel => True
  | .gnutls calls => ∀ c ∈ calls, RecvCall.Obeys count c

/-- A read gets to GnuTLS or to an `io_channel`. -/
def ChannelStack.Reaches : ChannelStack → Prop
  | .socket w => w.priv.ioChannel ≠ none
  | .passThrough inner => inner.Reaches
  | .gnutls w inner => w.priv.isEncrypted = true ∨ inner.Reaches

/-! ## At the leaves -/

theorem toGint_le {r : Int} (h : -2 ^ 31 ≤ r) : toGint r ≤ max r (-1) := by
  unfold toGint
  rw [Int.bmod_def]
  omega

theorem reports_recv {count : Nat} {c : RecvCall} (h : RecvCall.Obeys count c) :
    Reports count (recvResult c) := by
  obtain ⟨hlow, hhigh⟩ := h
  have hle := toGint_le hlow
  unfold recvResult
  split
  · next hpos =>
      refine ⟨_, rfl, ?_, fun _ _ => ?_, nofun⟩
      · omega
      · omega
  · split
    · exact ⟨0, rfl, Nat.zero_le _, nofun, fun _ => rfl⟩
    · exact ⟨0, rfl, Nat.zero_le _, nofun, fun _ => rfl⟩

theorem gnutlsRead_inner {count : Nat} {out : Bool} {w : Gnutls.World} {r : ReadResult}
    (hplain : w.priv.isEncrypted = false) :
    (gnutlsChannelRead count out (.inner r) w).map (·.1) = some (.returns r) := by
  unfold gnutlsChannelRead
  rw [hplain]
  rfl

/-- An encrypted channel reports what one of the calls has received. -/
theorem gnutlsRead_reports {count : Nat} {calls : List RecvCall} {w : Gnutls.World}
    {r : ReadResult} (henc : w.priv.isEncrypted = true)
    (hobeys : ∀ c ∈ calls, RecvCall.Obeys count c)
    (h : (gnutlsChannelRead count true (.gnutls calls) w).map (·.1) = some (.returns r)) :
    Reports count r := by
  rw [Option.map_eq_some_iff] at h
  obtain ⟨⟨ending, w'⟩, hread, hending⟩ := h
  have hending : ending = .returns r := hending
  rw [hending] at hread
  obtain ⟨calls', c, hcalls, hc, rfl⟩ := Gnutls.read_received henc hread
  injection hcalls with hcalls
  subst hcalls
  exact reports_recv (hobeys c hc)

/-! ## Down the stack -/

/-- The induction is on the stack: a channel that hands the read on returns
what its inner channel returned, whether that set `*bytes_read` or not. -/
theorem read_reports_iff {count : Nat} {a : Leaf ReadResult RecvCall} (hobeys : a.Obeys count)
    (s : ChannelStack) {r : ReadResult} (h : lmChannelRead count true a s = some (.returns r)) :
    Reports count r ↔ s.Reaches := by
  induction s with
  | socket w =>
      unfold lmChannelRead socketRead at h
      split at h
      · next hnone =>
          rw [Option.some.injEq, Ending.returns.injEq] at h
          rw [← h, ChannelStack.Reaches, hnone]
          refine iff_of_false ?_ fun hne => hne rfl
          rintro ⟨n, hn, -⟩
          cases hn
      · next ch r' hsome =>
          rw [Option.some.injEq, Ending.returns.injEq] at h
          subst h
          rw [ChannelStack.Reaches, hsome]
          exact iff_of_true hobeys nofun
      · cases h
  | passThrough inner ih => exact ih h
  | gnutls w inner ih =>
      unfold lmChannelRead at h
      split at h
      · next henc =>
          refine iff_of_true ?_ (Or.inl henc)
          split at h
          · exact gnutlsRead_reports henc hobeys h
          · cases h
      · next hplain =>
          have hplain : w.priv.isEncrypted = false := Bool.eq_false_iff.mpr hplain
          have hreaches : (ChannelStack.gnutls w inner).Reaches ↔ inner.Reaches := by
            rw [ChannelStack.Reaches, hplain]
            simp
          rw [hreaches]
          split at h
          · next r' hinner =>
              rw [gnutlsRead_inner hplain, Option.some.injEq, Ending.returns.injEq] at h
              exact ih (h ▸ hinner)
          · next hother =>
              exact absurd h (hother r)

/-- A socket that is connecting, under a TLS channel that is not encrypted yet,
under one that hands everything on. -/
theorem read_reports_connecting :
    Reports 1023 ⟨.again, some 0, []⟩ ↔
      (ChannelStack.passThrough (.gnutls {} (.socket
        { sa := lmSocketAddressNew "host" 5222, priv := { ioChannel := some ⟨0, 5⟩ } }))).Reaches :=
  @read_reports_iff 1023 (.ioChannel ⟨.again, some 0, []⟩)
    ⟨0, rfl, Nat.zero_le _, nofun, fun _ => rfl⟩ _ _ rfl

/-- A socket that was never connected returns `EOF` and leaves `*bytes_read` as
it was. -/
theorem read_unset_unconnected :
    ∃ r, lmChannelRead 1023 true .noChannel
        (.socket (lmSocketNew (lmSocketAddressNew "host" 5222))) = some (.returns r) ∧
      r.status = .eof ∧ r.bytesRead = none ∧ ¬Reports 1023 r := by
  refine ⟨_, rfl, rfl, rfl, ?_⟩
  rintro ⟨n, hn, -⟩
  cases hn

end LmTransport.Ref
