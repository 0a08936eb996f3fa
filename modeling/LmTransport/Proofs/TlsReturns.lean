import LmTransport.Proofs.WriteErrors
import LmTransport.Ref.TlsIo

/-!
# When TLS input and output return

GnuTLS says `GNUTLS_E_AGAIN` when the inner channel would block, and the loops
call it again at once. They come out of it with the first call in which no
callback was stalled and GnuTLS had no reason of its own to say so, and if there
is none, not at all: a peer that stops in the middle of a record holds a read up
for good, and a channel that was closed underneath holds up a write, since the
push callback makes `0` of its `G_IO_STATUS_EOF`.

For one call this is what GnuTLS documents, carried over to the inner channel
through the two callbacks. The loops add that the first call of that kind is
the last one that is made.
-/

namespace LmTransport.Ref.TlsIo

open Interaction (Path rounds nth)
open Gnutls (RecvCall SendCall eAgain eInterrupted toGint toGsize toGint_eq recvAgain sendAgain
  sendAgain_iff gnutlsChannelPullFunc gnutlsChannelPushFunc gnutlsChannelRead gnutlsChannelWrite
  gnutlsRetryLoop recordRecv recordSend retryLoop_last retryLoop_returns)

/-! ## Stalls -/

def InnerAnswer.WouldBlock (a : InnerAnswer) : Prop :=
  (a.status = .again ∨ a.status = .error) ∧ (a.errno = .eagain ∨ a.errno = .eintr)

instance (a : InnerAnswer) : Decidable a.WouldBlock := inferInstanceAs (Decidable (_ ∧ _))

/-- A write that accepts nothing is one that answers `G_IO_STATUS_EOF`, too. -/
def Stalls : Callback → InnerAnswer → Prop
  | .pull _, a => a.WouldBlock
  | .push _, a => a.status = .eof ∨ a.status = .normal ∧ a.bytesWritten = 0 ∨ a.WouldBlock

instance : (c : Callback) → (a : InnerAnswer) → Decidable (Stalls c a)
  | .pull _, a => inferInstanceAs (Decidable a.WouldBlock)
  | .push _, _ => inferInstanceAs (Decidable (_ ∨ _))

def Call.Stalled {σ : Type} (c : Call σ) : Prop := ∃ x ∈ c.transfers, Stalls x.1 x.2

instance {σ : Type} (c : Call σ) : Decidable c.Stalled :=
  inferInstanceAs (Decidable (∃ x ∈ c.transfers, _))

/-- Nothing was stalled, and GnuTLS wants to be called again. -/
def Call.Unprompted {σ : Type} (c : Call σ) : Prop := ¬c.Stalled ∧ WantsAgain c.result.ret

instance {σ : Type} (c : Call σ) : Decidable c.Unprompted :=
  inferInstanceAs (Decidable (_ ∧ _))

/-- The callbacks tell GnuTLS when they were stalled. -/
theorem blocked_iff (c : Callback) (a : InnerAnswer) :
    Blocked c (callbackResult c a) ↔ Stalls c a := by
  obtain ⟨status, errno, bytes, n⟩ := a
  cases c with
  | pull count =>
      cases status <;>
        simp [Blocked, Stalls, callbackResult, InnerAnswer.WouldBlock, gnutlsChannelPullFunc]
  | push buf =>
      cases status <;>
        simp [Blocked, Stalls, callbackResult, InnerAnswer.WouldBlock, gnutlsChannelPushFunc]

theorem callbackResult_possible {c : Callback} {a : InnerAnswer} (h : InnerAnswer.Fits c a) :
    -1 ≤ (callbackResult c a).ret ∧ (callbackResult c a).ret ≤ c.length := by
  obtain ⟨hread, hwritten⟩ := h
  have hpull : -1 ≤ gnutlsChannelPullFunc a.status a.bytes.length ∧
      gnutlsChannelPullFunc a.status a.bytes.length ≤ c.length := by
    cases a.status <;> simp only [gnutlsChannelPullFunc] <;> omega
  have hpush : -1 ≤ gnutlsChannelPushFunc a.status a.bytesWritten ∧
      gnutlsChannelPushFunc a.status a.bytesWritten ≤ c.length := by
    cases a.status <;> simp only [gnutlsChannelPushFunc] <;> omega
  cases c with
  | pull count => exact hpull
  | push buf => exact hpush

/-! ## One call -/

section
variable {σ ε : Type} (inner : InnerChannel ε)
  (p : Interaction.Prog Callback CallbackResult (Return σ)) (e : ε)

theorem call_path :
    ∃ trace, Path p trace (call inner p e).1.result ∧ Possible trace ∧
      ((∃ x ∈ trace, Blocked x.1 x.2) ↔ (call inner p e).1.Stalled) := by
  refine ⟨_, Interaction.run_path p e, ?_, ?_⟩
  · intro x hx
    obtain ⟨y, hy, rfl⟩ := List.mem_map.mp hx
    exact callbackResult_possible (Interaction.run_forall inner.fits p e y hy)
  · constructor
    · rintro ⟨x, hx, hblocked⟩
      obtain ⟨y, hy, rfl⟩ := List.mem_map.mp hx
      exact ⟨y, hy, (blocked_iff y.1 y.2).mp hblocked⟩
    · rintro ⟨y, hy, hstalls⟩
      exact ⟨_, List.mem_map_of_mem hy, (blocked_iff y.1 y.2).mpr hstalls⟩

end

section
variable {σ ε : Type} {g : RecordLayer σ} (inner : InnerChannel ε)

/-- GnuTLS wants to be called again when something was stalled, or of its own
accord. -/
theorem wantsAgain_iff {c : Call σ} {trace : List (Callback × CallbackResult)}
    (hsignals : Signals trace c.result.ret)
    (hstalls : (∃ x ∈ trace, Blocked x.1 x.2) ↔ c.Stalled) :
    WantsAgain c.result.ret ↔ c.Stalled ∨ c.Unprompted := by
  constructor
  · intro hagain
    by_cases hstalled : c.Stalled
    · exact .inl hstalled
    · exact .inr ⟨hstalled, hagain⟩
  · rintro (hstalled | hunprompted)
    · exact hsignals.again (hstalls.mpr hstalled)
    · exact hunprompted.2

theorem recvRound_again (hg : g.Documented) (count : Nat) (s : σ × ε) :
    recvAgain (recvRound g inner count s).1.recvCall = true ↔
      (recvRound g inner count s).1.Stalled ∨ (recvRound g inner count s).1.Unprompted := by
  obtain ⟨trace, hpath, hpossible, hstalls⟩ := call_path inner (g.recv count s.1) s.2
  have hsignals := hg.recv _ _ _ _ hpath hpossible
  rw [recvAgain, Bool.or_eq_true, beq_iff_eq, beq_iff_eq]
  show toGint (call inner (g.recv count s.1) s.2).1.result.ret = eInterrupted ∨
    toGint (call inner (g.recv count s.1) s.2).1.result.ret = eAgain ↔ _
  rw [toGint_eq hsignals.bounds.1 hsignals.bounds.2, or_comm]
  exact wantsAgain_iff hsignals hstalls

theorem sendRound_again (hg : g.Documented) (buf : List UInt8) (count : Int) (s : σ × ε) :
    sendAgain (sendRound g inner buf count s).1.sendCall = true ↔
      (sendRound g inner buf count s).1.Stalled ∨ (sendRound g inner buf count s).1.Unprompted := by
  obtain ⟨trace, hpath, hpossible, hstalls⟩ :=
    call_path inner (g.send buf (toGsize count) s.1) s.2
  have hsignals := hg.send _ _ _ _ _ hpath hpossible
  have hret : -2 ^ 63 ≤ (sendRound g inner buf count s).1.sendCall.ret ∧
      (sendRound g inner buf count s).1.sendCall.ret < 2 ^ 63 :=
    ⟨Int.le_trans (by decide) hsignals.bounds.1,
      Int.lt_of_lt_of_le hsignals.bounds.2 (by decide)⟩
  rw [sendAgain_iff hret, or_comm]
  exact wantsAgain_iff hsignals hstalls

end

/-! ## The loops -/

/-- The loop comes out with the first call it does not go on after. -/
theorem retryLoop_returns_iff {τ κ σ : Type} {round : σ → τ × σ} {call : τ → κ}
    {record : κ → Gnutls.World → Gnutls.World} {again : κ → Bool} (s : σ) (w : Gnutls.World) :
    (∃ n c w', gnutlsRetryLoop record again ((rounds round n s).map call) w =
        some (.returns c, w')) ↔
      ∃ n, again (call (nth round n s)) = false := by
  constructor
  · rintro ⟨n, c, w', h⟩
    obtain ⟨hmem, hlast⟩ := retryLoop_returns h
    obtain ⟨x, hx, rfl⟩ := List.mem_map.mp hmem
    obtain ⟨i, rfl⟩ := Interaction.exists_nth hx
    exact ⟨i, hlast⟩
  · rintro ⟨n, hn⟩
    have hstop : ¬again (call (nth round n s)) = true := Bool.eq_false_iff.mp hn
    obtain ⟨m, hbefore, hm⟩ :=
      @Interaction.exists_first _ _ _ (fun x => again (call x) = true) _ _ hstop
    have hretries : ∀ c ∈ (rounds round m s).map call, again c = true := by
      intro c hc
      obtain ⟨x, hx, rfl⟩ := List.mem_map.mp hc
      exact hbefore x hx
    obtain ⟨w', hw'⟩ := @retryLoop_last _ record again _ _ hretries (Bool.eq_false_iff.mpr hm) w
    refine ⟨m + 1, call (nth round m s), w', ?_⟩
    rw [Interaction.rounds_succ, List.map_append]
    exact hw'

theorem read_returns_iff_loop {w : Gnutls.World} (henc : w.priv.isEncrypted = true) (count : Nat)
    (calls : List RecvCall) :
    (∃ r w', gnutlsChannelRead count true (.gnutls calls) w = some (.returns r, w')) ↔
      ∃ c w', gnutlsRetryLoop (recordRecv count) recvAgain calls w = some (.returns c, w') := by
  unfold gnutlsChannelRead
  rw [henc]
  simp only [if_true]
  cases gnutlsRetryLoop (recordRecv count) recvAgain calls w with
  | none => simp
  | some r =>
      obtain ⟨ending, w'⟩ := r
      cases ending <;> simp

theorem write_returns_iff_loop {w : Gnutls.World} (henc : w.priv.isEncrypted = true)
    (buf : List UInt8) (count : Int) (calls : List SendCall) :
    (∃ r w', gnutlsChannelWrite buf count true (.gnutls calls) w = some (.returns r, w')) ↔
      ∃ c w', gnutlsRetryLoop (recordSend buf count) sendAgain calls w =
        some (.returns c, w') := by
  unfold gnutlsChannelWrite
  rw [henc]
  simp only [if_true]
  cases gnutlsRetryLoop (recordSend buf count) sendAgain calls w with
  | none => simp
  | some r =>
      obtain ⟨ending, w'⟩ := r
      cases ending <;> simp

section
variable {σ ε : Type} {g : RecordLayer σ} (inner : InnerChannel ε) {w : Gnutls.World}

theorem read_returns_iff (hg : g.Documented) (henc : w.priv.isEncrypted = true) (count : Nat)
    (s : σ × ε) :
    ReadReturns g inner count w s ↔
      ∃ n, ¬(nth (recvRound g inner count) n s).Stalled ∧
        ¬(nth (recvRound g inner count) n s).Unprompted := by
  unfold ReadReturns
  simp only [read_returns_iff_loop henc, retryLoop_returns_iff]
  refine exists_congr fun n => ?_
  have hagain := Interaction.nth_forall
    (P := fun (c : Call σ) => recvAgain c.recvCall = true ↔ c.Stalled ∨ c.Unprompted)
    (recvRound_again inner hg count) n s
  rw [← not_or, ← hagain, Bool.not_eq_true]

theorem write_returns_iff (hg : g.Documented) (henc : w.priv.isEncrypted = true)
    (buf : List UInt8) (count : Int) (s : σ × ε) :
    WriteReturns g inner buf count w s ↔
      ∃ n, ¬(nth (sendRound g inner buf count) n s).Stalled ∧
        ¬(nth (sendRound g inner buf count) n s).Unprompted := by
  unfold WriteReturns
  simp only [write_returns_iff_loop henc, retryLoop_returns_iff]
  refine exists_congr fun n => ?_
  have hagain := Interaction.nth_forall
    (P := fun (c : Call σ) => sendAgain c.sendCall = true ↔ c.Stalled ∨ c.Unprompted)
    (sendRound_again inner hg buf count) n s
  rw [← not_or, ← hagain, Bool.not_eq_true]

end

/-! ## Stalled for ever -/

section
variable {σ ε : Type} {g : RecordLayer σ} {inner : InnerChannel ε} {w : Gnutls.World}

/-- A call that cannot do without callbacks of a kind the inner channel stalls
is stalled. -/
theorem call_stalls {p : Interaction.Prog Callback CallbackResult (Return σ)}
    {kind : Callback → Prop} (hneeds : ∀ trace r, Path p trace r → ∃ x ∈ trace, kind x.1)
    (hinner : ∀ c e, kind c → Stalls c (inner.transfer c e).1) (e : ε) :
    (call inner p e).1.Stalled := by
  obtain ⟨x, hx, hkind⟩ :=
    hneeds _ _ (@Interaction.run_path _ _ _ _ _ callbackResult inner.transfer p e)
  obtain ⟨y, hy, rfl⟩ := List.mem_map.mp hx
  have hstalls := Interaction.run_forall (P := fun c a => kind c → Stalls c a) hinner p e y hy
  exact ⟨y, hy, hstalls hkind⟩

/-- The inner channel has nothing to read any more, as when the peer stops in
the middle of a record. -/
theorem read_spins_unfed (hg : g.Documented) (henc : w.priv.isEncrypted = true)
    (hpulls : ∀ count s trace r, Path (g.recv count s) trace r →
      ∃ x ∈ trace, ∃ n, x.1 = .pull n)
    (hinner : ∀ n e, (inner.transfer (.pull n) e).1.WouldBlock) (count : Nat) (s : σ × ε) :
    ¬ReadReturns g inner count w s := by
  rw [read_returns_iff inner hg henc]
  rintro ⟨n, hn, -⟩
  have hkind : ∀ c e, (∃ n, c = .pull n) → Stalls c (inner.transfer c e).1 := by
    rintro c e ⟨n, rfl⟩
    exact hinner n e
  have hround : ∀ s, (recvRound g inner count s).1.Stalled := fun s =>
    call_stalls (hpulls count s.1) hkind s.2
  exact hn (Interaction.nth_forall (P := Call.Stalled) hround n s)

/-- The inner channel is a socket that was closed. -/
theorem write_spins_closed (hg : g.Documented) (henc : w.priv.isEncrypted = true)
    (hpushes : ∀ buf count s trace r, Path (g.send buf count s) trace r →
      ∃ x ∈ trace, ∃ buf, x.1 = .push buf)
    {socket : World} (hclosed : socket.priv.ioChannel = none)
    (hinner : ∀ buf e, socketWrite socket buf buf.length .noChannel =
      some ⟨.returns ⟨(inner.transfer (.push buf) e).1.status, none⟩, []⟩)
    (buf : List UInt8) (count : Int) (s : σ × ε) : ¬WriteReturns g inner buf count w s := by
  rw [write_returns_iff inner hg henc]
  rintro ⟨n, hn, -⟩
  have hkind : ∀ c e, (∃ buf, c = .push buf) → Stalls c (inner.transfer c e).1 := by
    rintro c e ⟨buf, rfl⟩
    have heof := hinner buf e
    simp only [socketWrite, hclosed, Option.some.injEq, WriteOutcome.mk.injEq,
      Gnutls.Ending.returns.injEq, Gnutls.WriteResult.mk.injEq] at heof
    exact .inl heof.1.1.symm
  have hround : ∀ s, (sendRound g inner buf count s).1.Stalled := fun s =>
    call_stalls (hpushes buf (toGsize count) s.1) hkind s.2
  exact hn (Interaction.nth_forall (P := Call.Stalled) hround n s)

end

/-! ## Both calls -/

/-- They return exactly if in some call of GnuTLS nothing is stalled and GnuTLS
does not want to be called again of its own accord. -/
theorem tls_io_returns_iff {σ ε : Type} {g : RecordLayer σ} (hg : g.Documented)
    (inner : InnerChannel ε) {w : Gnutls.World} (henc : w.priv.isEncrypted = true) (s : σ × ε) :
    (∀ count, ReadReturns g inner count w s ↔
      ∃ n, ¬(nth (recvRound g inner count) n s).Stalled ∧
        ¬(nth (recvRound g inner count) n s).Unprompted) ∧
    ∀ buf count, WriteReturns g inner buf count w s ↔
      ∃ n, ¬(nth (sendRound g inner buf count) n s).Stalled ∧
        ¬(nth (sendRound g inner buf count) n s).Unprompted :=
  ⟨fun count => read_returns_iff inner hg henc count s,
    fun buf count => write_returns_iff inner hg henc buf count s⟩

/-! ### Records that are not encrypted

The smallest record layer: a header with the length, and the data. A record is
received in two parts, and the session keeps the length from the first to the
second. -/

def errorCode (errno : Errno) (code : Int) : Int :=
  match errno with
  | .eagain => eAgain
  | .eintr => eInterrupted
  | .other => code

/-- -54 is `GNUTLS_E_PULL_ERROR`. -/
def plainBody (length : Nat) : Interaction.Prog Callback CallbackResult (Return (Option Nat)) :=
  .ask (.pull (min length 16384)) fun r =>
    .done <|
      if r.ret = -1 then ⟨errorCode r.errno (-54), [], some length⟩
      else ⟨r.ret, r.bytes, none⟩

/-- -9 is `GNUTLS_E_UNEXPECTED_PACKET_LENGTH` and -53 `GNUTLS_E_PUSH_ERROR`. -/
def plainRecords : RecordLayer (Option Nat) where
  recv _ length :=
    match length with
    | some length => plainBody length
    | none =>
        .ask (.pull 5) fun r =>
          if r.ret = -1 then .done ⟨errorCode r.errno (-54), [], none⟩
          else
            match r.bytes with
            | [_, _, _, high, low] => plainBody (high.toNat * 256 + low.toNat)
            | _ => .done ⟨-9, [], none⟩
  send buf count length :=
    let data := buf.take (min count 16384)
    let record := [23, 3, 1, UInt8.ofNat (data.length / 256), UInt8.ofNat data.length] ++ data
    .ask (.push record) fun r =>
      .done <|
        if r.ret = -1 then ⟨errorCode r.errno (-53), [], length⟩
        else if r.ret = 0 then ⟨eAgain, [], length⟩
        else if r.ret = record.length then ⟨data.length, [], length⟩
        else ⟨-53, [], length⟩

/-- A callback that returns -1, by the `errno` it left. -/
theorem signals_errorCode {c : Callback} {a : CallbackResult} (hret : a.ret = -1) {code : Int}
    (hbounds : -2 ^ 31 ≤ code ∧ code < 2 ^ 31) :
    Signals [(c, a)] (errorCode a.errno code) := by
  have hblocked : Blocked c a ↔ a.errno = .eagain ∨ a.errno = .eintr := by
    cases c <;> simp [Blocked, hret]
  obtain ⟨ret, errno, bytes⟩ := a
  constructor
  · simp only [List.mem_singleton, exists_eq_left, hblocked]
    cases errno with
    | eagain => exact fun _ => .inl rfl
    | eintr => exact fun _ => .inr rfl
    | other => exact fun hwait => absurd hwait (by simp)
  · cases errno with
    | eagain => exact (show -2 ^ 31 ≤ eAgain ∧ eAgain < 2 ^ 31 by decide)
    | eintr => exact (show -2 ^ 31 ≤ eInterrupted ∧ eInterrupted < 2 ^ 31 by decide)
    | other => exact hbounds

/-- A callback that got through, and no other after it. -/
theorem signals_through {c : Callback} {a : CallbackResult} (hblocked : ¬Blocked c a) {ret : Int}
    (hbounds : -2 ^ 31 ≤ ret ∧ ret < 2 ^ 31) : Signals [(c, a)] ret where
  again := by
    simp only [List.mem_singleton, exists_eq_left]
    exact fun hwait => absurd hwait hblocked
  bounds := hbounds

/-- A callback that got through before others. -/
theorem Signals.cons {c : Callback} {a : CallbackResult} (hblocked : ¬Blocked c a)
    {trace : List (Callback × CallbackResult)} {ret : Int} (h : Signals trace ret) :
    Signals ((c, a) :: trace) ret where
  again := by
    rintro ⟨x, hx, hwait⟩
    rcases List.mem_cons.mp hx with rfl | hx
    · exact absurd hwait hblocked
    · exact h.again ⟨x, hx, hwait⟩
  bounds := h.bounds

theorem not_blocked_pull {n : Nat} {a : CallbackResult} (hret : ¬a.ret = -1) :
    ¬Blocked (.pull n) a := fun hblocked => hret hblocked.1

theorem not_blocked_push {buf : List UInt8} {a : CallbackResult} (hret : ¬a.ret = -1)
    (hzero : ¬a.ret = 0) : ¬Blocked (.push buf) a := fun hblocked =>
  hblocked.elim hzero fun h => hret h.1

theorem plainBody_signals {length : Nat} {trace : List (Callback × CallbackResult)}
    {r : Return (Option Nat)} (h : Path (plainBody length) trace r) (hpossible : Possible trace) :
    Signals trace r.ret := by
  obtain ⟨a, rfl, rfl⟩ := Interaction.path_ask_done h
  obtain ⟨hlow, hhigh⟩ : -1 ≤ a.ret ∧ a.ret ≤ (min length 16384 : Nat) :=
    hpossible _ List.mem_cons_self
  split
  · next hret => exact signals_errorCode hret (by decide)
  · next hret =>
      have hbounds : -2 ^ 31 ≤ a.ret ∧ a.ret < 2 ^ 31 := by omega
      exact signals_through (not_blocked_pull hret) hbounds

theorem plainRecv_signals {count : Nat} {length : Option Nat}
    {trace : List (Callback × CallbackResult)} {r : Return (Option Nat)}
    (h : Path (plainRecords.recv count length) trace r) (hpossible : Possible trace) :
    Signals trace r.ret := by
  cases length with
  | some length => exact plainBody_signals h hpossible
  | none =>
      cases h with
      | @ask _ _ a trace _ rest =>
          dsimp only at rest
          split at rest
          · next hret =>
              cases rest
              exact signals_errorCode hret (by decide)
          · next hret =>
              split at rest
              · exact (plainBody_signals rest fun x hx =>
                  hpossible x (List.mem_cons_of_mem _ hx)).cons (not_blocked_pull hret)
              · cases rest
                exact signals_through (not_blocked_pull hret) (by decide)

theorem plainSend_signals {buf : List UInt8} {count : Nat} {length : Option Nat}
    {trace : List (Callback × CallbackResult)} {r : Return (Option Nat)}
    (h : Path (plainRecords.send buf count length) trace r) : Signals trace r.ret := by
  obtain ⟨a, rfl, rfl⟩ := Interaction.path_ask_done h
  split
  · next hret => exact signals_errorCode hret (by decide)
  · next hret =>
      split
      · next hzero =>
          refine ⟨fun _ => .inl rfl, ?_⟩
          exact (show -2 ^ 31 ≤ eAgain ∧ eAgain < 2 ^ 31 by decide)
      · next hzero =>
          split
          · have hlength : (buf.take (min count 16384)).length ≤ 16384 :=
              Nat.le_trans (List.length_take_le _ _) (Nat.min_le_right _ _)
            refine signals_through (not_blocked_push hret hzero) ?_
            dsimp only
            omega
          · have hcode : (-2 : Int) ^ 31 ≤ -53 ∧ (-53 : Int) < 2 ^ 31 := by decide
            exact signals_through (not_blocked_push hret hzero) hcode

theorem plainRecords_documented : plainRecords.Documented where
  recv _ _ _ _ h hpossible := plainRecv_signals h hpossible
  send _ _ _ _ _ h _ := plainSend_signals h

/-- An inner channel that gives these answers, cut to what was asked for, and
then is at its end. -/
def scripted : InnerChannel (List InnerAnswer) where
  transfer c
    | [] => ({ status := .eof }, [])
    | a :: answers =>
        ({ a with
            bytes := a.bytes.take c.length
            bytesWritten := min a.bytesWritten c.length }, answers)
  fits c answers := by
    cases answers with
    | nil => exact ⟨Nat.zero_le _, Nat.zero_le _⟩
    | cons a answers => exact ⟨List.length_take_le _ _, Nat.min_le_right _ _⟩

def connected : Gnutls.World := { priv := ⟨some 0, true⟩, nextSession := 1 }

/-- A read that would block before the record of two bytes is there, and a
write that would block before the record is taken. -/
theorem tls_io_returns_after_again :
    ReadReturns plainRecords scripted 2 connected
        (none, [{ status := .again, errno := .eagain },
          { status := .normal, bytes := [23, 3, 1, 0, 2] },
          { status := .normal, bytes := [104, 105] }]) ∧
      WriteReturns plainRecords scripted [104, 105] 2 connected
        (none, [{ status := .again, errno := .eagain },
          { status := .normal, bytesWritten := 7 }]) :=
  ⟨((tls_io_returns_iff plainRecords_documented scripted rfl _).1 2).mpr ⟨1, by decide⟩,
    ((tls_io_returns_iff plainRecords_documented scripted rfl _).2 [104, 105] 2).mpr
      ⟨1, by decide⟩⟩

/-- An inner channel that always gives the same answer. -/
def always (status : GIOStatus) (errno : Errno) : InnerChannel Unit where
  transfer _ _ := ({ status, errno }, ())
  fits _ _ := ⟨Nat.zero_le _, Nat.zero_le _⟩

/-- A read from a peer that has stopped sending, and a write to a socket without
`io_channel`. -/
theorem tls_io_spins :
    ¬ReadReturns plainRecords (always .again .eagain) 2 connected (none, ()) ∧
      ¬WriteReturns plainRecords (always .eof .other) [104, 105] 2 connected (none, ()) := by
  constructor
  · refine read_spins_unfed plainRecords_documented rfl ?_
      (fun _ _ => ⟨.inl rfl, .inl rfl⟩) 2 (none, ())
    intro count length trace r h
    cases length with
    | some length =>
        obtain ⟨a, rfl, -⟩ := Interaction.path_ask_done h
        exact ⟨_, List.mem_singleton_self _, _, rfl⟩
    | none =>
        cases h
        exact ⟨_, List.mem_cons_self, _, rfl⟩
  · have hclosed : (lmSocketNew ⟨"localhost", 0, [], none⟩).priv.ioChannel = none := rfl
    refine write_spins_closed plainRecords_documented rfl ?_ hclosed (fun _ _ => rfl) [104, 105] 2
      (none, ())
    intro buf count length trace r h
    obtain ⟨a, rfl, -⟩ := Interaction.path_ask_done h
    exact ⟨_, List.mem_singleton_self _, _, rfl⟩

end LmTransport.Ref.TlsIo
