import LmTransport.Proofs.WriteContract

/-!
# Errors of an encrypted write

`gnutls_record_send` returns a signed number, and `gnutls_channel_write` keeps
it in the `gsize` of its caller. The retry loop survives that: the constants it
compares with are converted the same way, and the conversion is one to one. The
test for an error does not, because what it tests is not signed any more. So
the status is always `NORMAL`, and after an error the caller is told of more
bytes than any object has.
-/

namespace LmTransport.Ref.Gnutls

open LmTransport.Ref (GIOStatus)

/-! ## Signed and unsigned -/

/-- Different values stay different. -/
theorem toGsize_inj {m n : Int} (hm : -2 ^ 63 ≤ m ∧ m < 2 ^ 63) (hn : -2 ^ 63 ≤ n ∧ n < 2 ^ 63)
    (h : toGsize m = toGsize n) : m = n := by
  have hm' := Int.emod_nonneg m (show (2 : Int) ^ 64 ≠ 0 by decide)
  have hn' := Int.emod_nonneg n (show (2 : Int) ^ 64 ≠ 0 by decide)
  unfold toGsize at h
  omega

theorem sendAgain_iff {c : SendCall} (hc : -2 ^ 63 ≤ c.ret ∧ c.ret < 2 ^ 63) :
    sendAgain c = true ↔ c.ret = eInterrupted ∨ c.ret = eAgain := by
  have hinterrupted : -2 ^ 63 ≤ eInterrupted ∧ eInterrupted < 2 ^ 63 := by decide
  have hagain : -2 ^ 63 ≤ eAgain ∧ eAgain < 2 ^ 63 := by decide
  rw [sendAgain, Bool.or_eq_true, beq_iff_eq, beq_iff_eq]
  constructor
  · exact Or.imp (toGsize_inj hc hinterrupted) (toGsize_inj hc hagain)
  · exact Or.imp (congrArg toGsize) (congrArg toGsize)

/-! ## The retry loop -/

/-- The loop goes on through the calls that ask for it and returns the first
that does not. -/
theorem retryLoop_last {κ : Type} {record : κ → World → World} {again : κ → Bool}
    {retries : List κ} {last : κ} (hretries : ∀ c ∈ retries, again c = true)
    (hlast : again last = false) (w : World) :
    ∃ w', gnutlsRetryLoop record again (retries ++ [last]) w = some (.returns last, w') := by
  induction retries generalizing w with
  | nil =>
      rw [List.nil_append, gnutlsRetryLoop, hlast]
      exact ⟨_, rfl⟩
  | cons c retries ih =>
      obtain ⟨hc, hrest⟩ := List.forall_mem_cons.mp hretries
      obtain ⟨w', hw'⟩ := ih hrest (record c w)
      refine ⟨w', ?_⟩
      rw [List.cons_append, gnutlsRetryLoop, hc]
      · exact hw'
      · simp

/-- Nothing is below zero in a `gsize`. -/
theorem sendResult_normal (c : SendCall) : sendResult c = ⟨.normal, some (toGsize c.ret)⟩ :=
  if_pos (Nat.zero_le _)

/-! ## The write -/

/-- What a write is to make of the final result: a count when there is one, an
error when there is not, and never a count beyond what was to be written. -/
structure ReportsSend (count ret : Int) (r : WriteResult) : Prop where
  sent : 0 ≤ ret → r.status = .normal ∧ r.bytesWritten = some ret.toNat
  failed : ret < 0 → r.status = .error
  bounded : r.status = .normal → ∀ n, r.bytesWritten = some n → (n : Int) ≤ count

/-- `retries` are the calls after which the loop goes on and `last` is the one
after which it does not. The write returns, and what it returns is right exactly
if the last call is not an error. -/
theorem write_reports_iff {w : World} (henc : w.priv.isEncrypted = true) (buf : List UInt8)
    {count : Int} (hcount : 0 ≤ count ∧ count < 2 ^ 63) {retries : List SendCall}
    (hretries : ∀ c ∈ retries, c.ret = eInterrupted ∨ c.ret = eAgain) {last : SendCall}
    (hlow : -2 ^ 63 ≤ last.ret) (hle : last.ret ≤ count)
    (hlast : ¬ (last.ret = eInterrupted ∨ last.ret = eAgain)) :
    ∃ r w', gnutlsChannelWrite buf count true (.gnutls (retries ++ [last])) w =
        some (.returns r, w') ∧
      (ReportsSend count last.ret r ↔ 0 ≤ last.ret) := by
  have hagain : ∀ c ∈ retries, sendAgain c = true := by
    intro c hc
    refine (sendAgain_iff ?_).mpr (hretries c hc)
    rcases hretries c hc with h | h <;> rw [h] <;> decide
  have hstop : sendAgain last = false := by
    rw [← Bool.not_eq_true, sendAgain_iff ⟨hlow, by omega⟩]
    exact hlast
  obtain ⟨w', hloop⟩ := @retryLoop_last _ (recordSend buf count) _ _ _ hagain hstop w
  refine ⟨sendResult last, w', ?_, ?_⟩
  · unfold gnutlsChannelWrite
    rw [henc]
    simp only [if_true, hloop]
  · rw [sendResult_normal]
    constructor
    · intro h
      by_contra hneg
      have herror := h.failed (by omega)
      cases herror
    · intro hnonneg
      have hn : toGsize last.ret = last.ret.toNat := toGsize_length hnonneg (by omega)
      refine ⟨fun _ => ⟨rfl, by rw [hn]⟩, fun hneg => absurd hnonneg (by omega), fun _ n hsome => ?_⟩
      rw [← Option.some.inj hsome, hn]
      omega

/-- Two bytes after one interruption. -/
theorem write_reports_two :
    ∃ r w', gnutlsChannelWrite [104, 105] 2 true (.gnutls ([⟨[], eInterrupted⟩] ++ [⟨[], 2⟩]))
        { priv := ⟨some 0, true⟩ } = some (.returns r, w') ∧
      (ReportsSend 2 2 r ↔ (0 : Int) ≤ 2) :=
  write_reports_iff rfl [104, 105] (by decide) (by simp) (by decide) (by decide) (by decide)

/-- `GNUTLS_E_PUSH_ERROR`, -53: the status is `NORMAL`, for two bytes the count
is `2 ^ 64 - 53`. -/
theorem write_error_unreported :
    ∃ w', gnutlsChannelWrite [104, 105] 2 true (.gnutls [⟨[], -53⟩])
        { priv := ⟨some 0, true⟩ } =
          some (.returns ⟨.normal, some (2 ^ 64 - 53)⟩, w') ∧
      ¬ ReportsSend 2 (-53) ⟨.normal, some (2 ^ 64 - 53)⟩ := by
  refine ⟨_, rfl, fun h => ?_⟩
  have herror := h.failed (by decide)
  cases herror

end LmTransport.Ref.Gnutls
