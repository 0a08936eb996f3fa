import LmTransport.Proofs.GnutlsSteps
import LmTransport.Ref.ChannelStack

/-!
# The write contract, with and without encryption

`gnutls_channel_write` has two branches. One hands its arguments to the inner
channel as they are, and at the end of the stack `g_io_channel_write_chars`
takes `-1` for the length of a string and a `NULL` for an answer nobody wants.
The other converts the length to a `size_t` and writes the answer through the
pointer it was given. So the two agree just when the length is a length and the
pointer is one, and then on everything: the bytes, the status, the count.
-/

namespace LmTransport.Ref

open Gnutls (Ending WriteResult SendCall toGsize sendAgain sendResult gnutlsChannelWrite)

/-! ## The contract -/

/-- What `lm_channel_write` may be called with: a length inside the object, or
`-1` for a string. No object has `2 ^ 63` bytes. -/
structure Describes (buf : List UInt8) (count : Int) : Prop where
  object : buf.length < 2 ^ 63
  count : (0 ≤ count ∧ count ≤ buf.length) ∨ (count = -1 ∧ 0 ∈ buf)

/-- The bytes of the application. -/
def appBytes (buf : List UInt8) (count : Int) : List UInt8 :=
  if count < 0 then buf.takeWhile (· != 0) else buf.take count.toNat

/-- The channel takes it all and says so. -/
def Accepts (buf : List UInt8) (count : Int) (out : Bool) (a : Leaf WriteResult SendCall)
    (s : ChannelStack) : Prop :=
  ∃ submitted,
    lmChannelWrite buf count out a s =
        some ⟨.returns ⟨.normal, if out then some (appBytes buf count).length else none⟩,
          submitted⟩ ∧
      submitted.map Submitted.bytes = [some (appBytes buf count)]

/-- Neither call writes through a `NULL` pointer, and they return the same and
submit the same. -/
structure SameWrite (before after : WriteOutcome) : Prop where
  safe : before.ending ≠ .crashes ∧ after.ending ≠ .crashes
  ending : before.ending = after.ending
  bytes : before.submitted.map Submitted.bytes = after.submitted.map Submitted.bytes

/-! ## The length as a `size_t` -/

theorem toGsize_length {n : Int} (h : 0 ≤ n) (hlt : n < 2 ^ 63) : toGsize n = n.toNat := by
  unfold toGsize
  rw [Int.emod_eq_of_lt h (by omega)]

theorem toGsize_string : toGsize (-1) = 2 ^ 64 - 1 := by decide

theorem toGsize_toGsize (n : Int) : toGsize (toGsize n) = toGsize n := by
  unfold toGsize
  have hnonneg := Int.emod_nonneg n (show (2 : Int) ^ 64 ≠ 0 by decide)
  rw [Int.toNat_of_nonneg hnonneg, Int.emod_emod]

/-- Neither is one of the two results that make the loop go round. -/
theorem Describes.toGsize_cases {buf : List UInt8} {count : Int} (h : Describes buf count) :
    (0 ≤ count ∧ toGsize count = count.toNat ∧ count.toNat ≤ buf.length) ∨
      (count = -1 ∧ toGsize count = 2 ^ 64 - 1) := by
  have hobject := h.object
  rcases h.count with ⟨hnonneg, hle⟩ | ⟨hstring, -⟩
  · have hlt : count < 2 ^ 63 := by omega
    exact Or.inl ⟨hnonneg, toGsize_length hnonneg hlt, by omega⟩
  · subst hstring
    exact Or.inr ⟨rfl, toGsize_string⟩

theorem not_sendAgain {buf : List UInt8} {count : Int} (h : Describes buf count) {c : SendCall}
    (hsend : c.ret = toGsize count) : sendAgain c = false := by
  have hinterrupted : toGsize Gnutls.eInterrupted = 2 ^ 64 - 52 := by decide
  have hagain : toGsize Gnutls.eAgain = 2 ^ 64 - 28 := by decide
  have hobject := h.object
  unfold sendAgain
  rw [hsend, toGsize_toGsize, hinterrupted, hagain, Bool.or_eq_false_iff, beq_eq_false_iff_ne,
    beq_eq_false_iff_ne]
  rcases h.toGsize_cases with ⟨-, hn, hle⟩ | ⟨-, hn⟩
  · rw [hn]
    exact ⟨by omega, by omega⟩
  · rw [hn]
    exact ⟨by omega, by omega⟩

/-! ## The two branches -/

theorem gnutlsWrite_inner {buf : List UInt8} {count : Int} {out : Bool} {w : Gnutls.World}
    {r : WriteResult} (hplain : w.priv.isEncrypted = false) :
    gnutlsChannelWrite buf count out (.inner r) w =
      some (.returns r, w.note (.innerWrite .application buf count)) := by
  unfold gnutlsChannelWrite
  rw [hplain]

theorem sent_transport (io : List Gnutls.TransportCall) :
    sent (io.map Gnutls.TransportCall.event) = [] := by
  unfold sent
  rw [List.filterMap_map, List.filterMap_eq_nil_iff]
  intro t _
  cases t with
  | push buf status bytesWritten => rfl
  | pull count status bytes => rfl

/-- One call of `gnutls_record_send` is one submission. -/
theorem sent_recordSend (buf : List UInt8) (count : Int) (c : SendCall) (w : Gnutls.World) :
    sent ((Gnutls.recordSend buf count c w).log.drop w.log.length) =
      [.recordSend buf (toGsize count)] := by
  have htransport := sent_transport c.io
  rw [Gnutls.recordSend_eq]
  show sent ((w.log ++ Gnutls.sendEvents _ buf count c).drop w.log.length) = _
  rw [List.drop_left]
  unfold sent at htransport ⊢
  rw [Gnutls.sendEvents, List.filterMap_cons, htransport]

/-- Before the handshake the inner channel does it all. -/
theorem write_plain {buf : List UInt8} {count : Int} {out : Bool}
    {a : Leaf WriteResult SendCall} {w : Gnutls.World} {inner : ChannelStack}
    (hplain : w.priv.isEncrypted = false) {r : WriteResult} {submitted : List Submitted}
    (hinner : lmChannelWrite buf count out a inner = some ⟨.returns r, submitted⟩) :
    lmChannelWrite buf count out a (.gnutls w inner) = some ⟨.returns r, submitted⟩ := by
  unfold lmChannelWrite
  rw [hplain, hinner]
  simp [gnutlsWrite_inner hplain]

/-- After it GnuTLS takes the length it is given. -/
theorem write_encrypted {buf : List UInt8} {count : Int} {out : Bool} {w : Gnutls.World}
    (inner : ChannelStack) (henc : w.priv.isEncrypted = true) (hbuf : Describes buf count)
    {c : SendCall} (hsend : c.ret = toGsize count) :
    lmChannelWrite buf count out (.gnutls [c]) (.gnutls w inner) =
      some ⟨if out then .returns ⟨.normal, some (toGsize count)⟩ else .crashes,
        [.recordSend buf (toGsize count)]⟩ := by
  have hagain := not_sendAgain hbuf hsend
  have hresult : sendResult c = ⟨.normal, some (toGsize count)⟩ := by
    unfold sendResult
    rw [if_pos (Nat.zero_le _), hsend, toGsize_toGsize]
  unfold lmChannelWrite gnutlsChannelWrite
  rw [henc]
  cases out with
  | false => simp [sent_recordSend]
  | true => simp [Gnutls.gnutlsRetryLoop, hagain, sent_recordSend, hresult]

/-! ## Before and after -/

/-- Every channel down to a socket with an `io_channel` hands writes on. -/
def ChannelStack.PassesOn : ChannelStack → Prop
  | .socket w => w.priv.ioChannel ≠ none
  | .passThrough inner => inner.PassesOn
  | .gnutls w inner => w.priv.isEncrypted = false ∧ inner.PassesOn

/-- Such a stack accepts everything when its `io_channel` does. -/
theorem accepts_of_passesOn {s : ChannelStack} (h : s.PassesOn) {buf : List UInt8} {count : Int}
    (hbuf : Describes buf count) (out : Bool) :
    Accepts buf count out
      (.ioChannel ⟨.normal, if out then some (appBytes buf count).length else none⟩) s := by
  induction s with
  | socket w =>
      obtain ⟨ch, hch⟩ := Option.ne_none_iff_exists'.mp h
      refine ⟨[.writeChars buf count], ?_, ?_⟩
      · unfold lmChannelWrite socketWrite
        rw [hch]
      · have hcount := hbuf.count
        rw [List.map_singleton, Submitted.bytes, appBytes]
        split
        · rfl
        · rw [if_pos (by omega)]
  | passThrough inner ih => exact ih h
  | gnutls w inner ih =>
      obtain ⟨submitted, hinner, hbytes⟩ := ih h.2
      exact ⟨submitted, write_plain h.1 hinner, hbytes⟩

/-- `w` and `inner` are the channel before a handshake, `w'` and `inner'` any
time after one. -/
theorem same_write_iff {w w' : Gnutls.World} {inner inner' : ChannelStack} {buf : List UInt8}
    {count : Int} {out : Bool} {a : Leaf WriteResult SendCall} {c : SendCall}
    (hplain : w.priv.isEncrypted = false) (henc : w'.priv.isEncrypted = true)
    (hbuf : Describes buf count) (haccepts : Accepts buf count out a inner)
    (hsend : c.ret = toGsize count) :
    ∃ before after, lmChannelWrite buf count out a (.gnutls w inner) = some before ∧
      lmChannelWrite buf count out (.gnutls [c]) (.gnutls w' inner') = some after ∧
        (SameWrite before after ↔ out = true ∧ count ≠ -1) := by
  obtain ⟨submitted, hinner, hbytes⟩ := haccepts
  refine ⟨_, _, write_plain hplain hinner, write_encrypted inner' henc hbuf hsend, ?_⟩
  have hobject := hbuf.object
  constructor
  · intro hsame
    have hout : out = true := by
      by_contra hnull
      exact hsame.safe.2 (by rw [if_neg hnull])
    refine ⟨hout, fun hstring => ?_⟩
    -- GnuTLS is told to read on to the end of memory
    have heq := hsame.bytes
    rw [hbytes, List.map_singleton, List.singleton_inj] at heq
    subst hstring
    rw [toGsize_string, Submitted.bytes, if_neg (by omega)] at heq
    cases heq
  · rintro ⟨rfl, hlength⟩
    obtain ⟨hnonneg, hn, hle⟩ := hbuf.toGsize_cases.resolve_right fun hs => hlength hs.1
    have happ : appBytes buf count = buf.take count.toNat := by
      unfold appBytes
      rw [if_neg (by omega)]
    refine ⟨⟨nofun, nofun⟩, ?_, ?_⟩
    · rw [hn, happ, List.length_take, Nat.min_eq_left hle]
      rfl
    · rw [hbytes, List.map_singleton, hn, happ, Submitted.bytes, if_pos hle]

/-- A connected socket, not written to yet. -/
def sampleSocket : ChannelStack :=
  .socket { sa := lmSocketAddressNew "host" 5222, priv := { ioChannel := some ⟨0, 5⟩ } }

theorem sampleSocket_passesOn : sampleSocket.PassesOn := Option.some_ne_none _

theorem describes_length : Describes [104, 105, 0] 2 :=
  ⟨by decide, Or.inl ⟨by decide, by decide⟩⟩

theorem describes_string : Describes [104, 105, 0] (-1) :=
  ⟨by decide, Or.inr ⟨rfl, by decide⟩⟩

/-- Two bytes and their count, before and after. -/
theorem same_write_two :
    ∃ before after, lmChannelWrite [104, 105, 0] 2 true (.ioChannel ⟨.normal, some 2⟩)
        (.gnutls {} sampleSocket) = some before ∧
      lmChannelWrite [104, 105, 0] 2 true (.gnutls [⟨[], 2⟩])
        (.gnutls { priv := ⟨some 0, true⟩ } sampleSocket) = some after ∧
        (SameWrite before after ↔ true = true ∧ (2 : Int) ≠ -1) :=
  same_write_iff rfl rfl describes_length
    (accepts_of_passesOn sampleSocket_passesOn describes_length true) rfl

/-- Nobody asks for the count: before the handshake that is fine, after it the
answer goes through the `NULL` pointer. And a string: before the handshake its
two bytes are submitted, after it `2 ^ 64 - 1` bytes are. -/
theorem encryption_changes_writes :
    (Describes [104, 105, 0] 2 ∧ ∃ before after,
      lmChannelWrite [104, 105, 0] 2 false (.ioChannel ⟨.normal, none⟩)
        (.gnutls {} sampleSocket) = some before ∧
      lmChannelWrite [104, 105, 0] 2 false (.gnutls [⟨[], 2⟩])
        (.gnutls { priv := ⟨some 0, true⟩ } sampleSocket) = some after ∧
        ¬SameWrite before after ∧ after.ending = .crashes) ∧
    Describes [104, 105, 0] (-1) ∧ ∃ before after,
      lmChannelWrite [104, 105, 0] (-1) true (.ioChannel ⟨.normal, some 2⟩)
        (.gnutls {} sampleSocket) = some before ∧
      lmChannelWrite [104, 105, 0] (-1) true (.gnutls [⟨[], 2 ^ 64 - 1⟩])
        (.gnutls { priv := ⟨some 0, true⟩ } sampleSocket) = some after ∧
        ¬SameWrite before after ∧
          after.submitted = [.recordSend [104, 105, 0] (2 ^ 64 - 1)] := by
  refine ⟨⟨describes_length, _, _, rfl, rfl, fun h => h.safe.2 rfl, rfl⟩,
    describes_string, _, _, rfl, rfl, fun h => ?_, rfl⟩
  have hbytes := h.bytes
  revert hbytes
  decide

end LmTransport.Ref
