import Mathlib.Data.List.Basic
import Mathlib.Tactic.Common

/-!
# Domain names in DNS messages

Domain names as they lie in a message, compressed or not, and as they are
written for people. `NameAt` says what it is for a name to be encoded at an
offset, without saying how it got there, so that it covers every choice an
encoder may make about compression. `decode` reads a name back, and the two
agree: on an encoded name the decoder returns that name and the number of
bytes it takes up where it was read.

A compression pointer refers to a name that was written earlier, so that a
chain of pointers walks strictly back through the message. That is what bounds
the decoder's fuel by the length of the message.
-/

namespace Dns

/-! ## Fields -/

/-- A 16-bit field, high byte first. -/
def be16 (n : Nat) : List UInt8 := [UInt8.ofNat (n / 256), UInt8.ofNat (n % 256)]

@[simp] theorem length_be16 (n : Nat) : (be16 n).length = 2 := rfl

/-- A 32-bit field, high byte first. -/
def be32 (n : Nat) : List UInt8 := be16 (n / 65536) ++ be16 (n % 65536)

theorem be16_toNat {n : Nat} (hn : n < 65536) :
    (UInt8.ofNat (n / 256)).toNat * 256 + (UInt8.ofNat (n % 256)).toNat = n := by
  rw [UInt8.toNat_ofNat', UInt8.toNat_ofNat']
  omega

/-- `bytes` stand in the message from offset `pos` on. -/
def BytesAt (msg : List UInt8) (pos : Nat) (bytes : List UInt8) : Prop :=
  bytes <+: msg.drop pos

instance (msg : List UInt8) (pos : Nat) (bytes : List UInt8) :
    Decidable (BytesAt msg pos bytes) := inferInstanceAs (Decidable (_ <+: _))

variable {msg : List UInt8} {pos : Nat} {bytes bytes' : List UInt8}

theorem BytesAt.left (h : BytesAt msg pos (bytes ++ bytes')) : BytesAt msg pos bytes :=
  (List.prefix_append bytes bytes').trans h

theorem BytesAt.right (h : BytesAt msg pos (bytes ++ bytes')) :
    BytesAt msg (pos + bytes.length) bytes' := by
  obtain ⟨rest, hrest⟩ := h
  refine ⟨rest, ?_⟩
  rw [← List.drop_drop, ← hrest, List.append_assoc, List.drop_left]

theorem BytesAt.getElem? (h : BytesAt msg pos bytes) {i : Nat} (hi : i < bytes.length) :
    msg[pos + i]? = bytes[i]? := by
  obtain ⟨rest, hrest⟩ := h
  rw [← List.getElem?_drop, ← hrest, List.getElem?_append_left hi]

theorem BytesAt.length_le (h : BytesAt msg pos bytes) (hne : bytes ≠ []) :
    pos + bytes.length ≤ msg.length := by
  have hle := List.IsPrefix.length_le h
  have hpos := List.length_pos_iff.mpr hne
  rw [List.length_drop] at hle
  omega

theorem BytesAt.take_drop (h : BytesAt msg pos bytes) :
    (msg.drop pos).take bytes.length = bytes := by
  obtain ⟨rest, hrest⟩ := h
  rw [← hrest, List.take_left]

/-! ## Names -/

/-- A label is one to 63 bytes, of any value. -/
structure Label where
  bytes : List UInt8
  nonempty : bytes ≠ []
  short : bytes.length ≤ 63

/-- The length of an uncompressed name: a length byte and the bytes of each
label, and the empty label that ends it. -/
def wireLength : List Label → Nat
  | [] => 1
  | label :: labels => 1 + label.bytes.length + wireLength labels

/-- A domain name, at most 255 bytes when it is not compressed. -/
structure Name where
  labels : List Label
  short : wireLength labels ≤ 255

/-- The labels are encoded at `pos`, in `n` bytes, by a name that starts at
`base`. A pointer is to a name that ends where this one starts or earlier. -/
inductive NameAt (msg : List UInt8) : Nat → Nat → List Label → Nat → Prop
  | root {base pos : Nat} (hbyte : msg[pos]? = some 0) : NameAt msg base pos [] 1
  | label {base pos n : Nat} {label : Label} {labels : List Label}
      (hbytes : BytesAt msg pos (UInt8.ofNat label.bytes.length :: label.bytes))
      (hrest : NameAt msg base (pos + 1 + label.bytes.length) labels n) :
      NameAt msg base pos (label :: labels) (1 + label.bytes.length + n)
  | pointer {base pos target n : Nat} {labels : List Label} (htarget : target < 16384)
      (hbytes : BytesAt msg pos (be16 (49152 + target)))
      (hname : NameAt msg target target labels n) (hback : target + n ≤ base) :
      NameAt msg base pos labels 2

/-- The name is encoded at `pos`, in `n` bytes. -/
def Encoded (msg : List UInt8) (pos : Nat) (name : Name) (n : Nat) : Prop :=
  NameAt msg pos pos name.labels n

/-! ## Encoding a name

Without compression, which is always possible. -/

/-- The labels of a name one after the other, and the root. -/
def wire : List Label → List UInt8
  | [] => [0]
  | label :: labels => UInt8.ofNat label.bytes.length :: label.bytes ++ wire labels

theorem NameAt.of_wire {base : Nat} {labels : List Label} (h : BytesAt msg pos (wire labels)) :
    NameAt msg base pos labels (wire labels).length := by
  induction labels generalizing pos with
  | nil => exact .root (h.getElem? (i := 0) (by simp [wire]))
  | cons label labels ih =>
      rw [wire] at h ⊢
      have hrest := h.right
      rw [List.length_cons, Nat.add_comm label.bytes.length 1, ← Nat.add_assoc] at hrest
      rw [List.length_append, List.length_cons, Nat.add_comm label.bytes.length 1]
      exact .label h.left (ih hrest)

/-! ## How a name is written -/

/-- The characters that mean something in a zone file. -/
def isSpecial (c : UInt8) : Bool :=
  [0x22, 0x24, 0x28, 0x29, 0x2e, 0x3b, 0x40, 0x5c].contains c

def isPrintable (c : UInt8) : Bool := 0x20 < c && c < 0x7f

/-- A special character is written after a backslash, one that does not print
as a backslash and three digits. -/
def escape (c : UInt8) : List UInt8 :=
  if isSpecial c then [0x5c, c]
  else if isPrintable c then [c]
  else [0x5c, 0x30 + c / 100, 0x30 + c % 100 / 10, 0x30 + c % 10]

/-- The labels one after the other, a dot between them and none at the end. The
root is the empty text. -/
def present (labels : List (List UInt8)) : List UInt8 :=
  [0x2e].intercalate (labels.map fun label => label.flatMap escape)

def Name.presentation (name : Name) : List UInt8 := present (name.labels.map Label.bytes)

theorem escape_ne_zero (c : UInt8) : ∀ d ∈ escape c, d ≠ 0 := by
  intro d hd
  unfold escape at hd
  split at hd
  · next hspecial =>
      rcases List.mem_pair.mp hd with rfl | rfl
      · decide
      · rintro rfl
        exact absurd hspecial (by decide)
  · split at hd
    · next hprint =>
        obtain rfl := List.mem_singleton.mp hd
        rintro rfl
        exact absurd hprint (by decide)
    · -- the digits start at `0x30` and a byte has too few hundreds to wrap
      have hdigits : d.toNat ≠ 0 := by
        have hc := c.toNat_lt
        simp only [List.mem_cons, List.not_mem_nil, or_false] at hd
        rcases hd with rfl | rfl | rfl | rfl <;>
          simp [UInt8.toNat_add, UInt8.toNat_div, UInt8.toNat_mod] <;> omega
      rintro rfl
      exact hdigits rfl

theorem present_ne_zero (labels : List (List UInt8)) : ∀ d ∈ present labels, d ≠ 0 := by
  induction labels with
  | nil => simp [present]
  | cons label labels ih =>
      intro d hd
      have hlabel : ∀ e ∈ label.flatMap escape, e ≠ 0 := by
        intro e he
        obtain ⟨c, -, hc⟩ := List.mem_flatMap.mp he
        exact escape_ne_zero c e hc
      cases labels with
      | nil =>
          rw [present, List.map_singleton, List.intercalate_singleton] at hd
          exact hlabel d hd
      | cons label' labels =>
          rw [present, List.map_cons, List.map_cons, List.intercalate_cons_cons] at hd
          rcases List.mem_append.mp hd with hd | hd
          · rcases List.mem_append.mp hd with hd | hd
            · exact hlabel d hd
            · obtain rfl := List.mem_singleton.mp hd
              decide
          · exact ih d (by rwa [present, List.map_cons])

theorem Name.presentation_ne_zero (name : Name) : ∀ d ∈ name.presentation, d ≠ 0 :=
  present_ne_zero _

theorem escape_ne_nil (c : UInt8) : escape c ≠ [] := by
  unfold escape
  split
  · simp
  · split <;> simp

/-- Only the root is shown as the empty text. -/
theorem present_eq_nil_iff {labels : List (List UInt8)} (h : ∀ label ∈ labels, label ≠ []) :
    present labels = [] ↔ labels = [] := by
  refine ⟨fun hnil => ?_, fun hnil => by rw [hnil]; rfl⟩
  cases labels with
  | nil => rfl
  | cons label labels =>
      exfalso
      obtain ⟨c, cs, hlabel⟩ := List.exists_cons_of_ne_nil (h label List.mem_cons_self)
      have htext : label.flatMap escape ≠ [] := by
        rw [hlabel, List.flatMap_cons]
        exact List.append_ne_nil_of_left_ne_nil (escape_ne_nil c) _
      cases labels with
      | nil =>
          rw [present, List.map_singleton, List.intercalate_singleton] at hnil
          exact htext hnil
      | cons label' labels =>
          rw [present, List.map_cons, List.map_cons, List.intercalate_cons_cons] at hnil
          exact htext (List.append_eq_nil_iff.mp (List.append_eq_nil_iff.mp hnil).1).1

/-! ## Reading a name back -/

/-- The labels of the name at `pos`, and how many bytes it takes up there. -/
def decode (msg : List UInt8) : Nat → Nat → Option (List (List UInt8) × Nat)
  | 0, _ => none
  | fuel + 1, pos => do
      let b ← msg[pos]?
      if b = 0 then
        return ([], 1)
      else if b.toNat < 64 then
        let (labels, n) ← decode msg fuel (pos + 1 + b.toNat)
        return ((msg.drop (pos + 1)).take b.toNat :: labels, 1 + b.toNat + n)
      else if b.toNat < 192 then
        none
      else
        let c ← msg[pos + 1]?
        let (labels, _) ← decode msg fuel ((b.toNat - 192) * 256 + c.toNat)
        return (labels, 2)

theorem decode_outside {msg : List UInt8} {fuel pos : Nat} (h : msg.length ≤ pos) :
    decode msg fuel pos = none := by
  cases fuel with
  | zero => rfl
  | succ fuel =>
      rw [decode, List.getElem?_eq_none h]
      rfl

variable {base n fuel : Nat} {labels : List Label}

theorem decode_root (hbyte : msg[pos]? = some 0) :
    decode msg (fuel + 1) pos = some ([], 1) := by
  rw [decode, hbyte]
  rfl

theorem decode_label {label : Label} {rest : List (List UInt8)}
    (hbytes : BytesAt msg pos (UInt8.ofNat label.bytes.length :: label.bytes))
    (hrest : decode msg fuel (pos + 1 + label.bytes.length) = some (rest, n)) :
    decode msg (fuel + 1) pos = some (label.bytes :: rest, 1 + label.bytes.length + n) := by
  have hpos := List.length_pos_iff.mpr label.nonempty
  have hshort := label.short
  have hlen : (UInt8.ofNat label.bytes.length).toNat = label.bytes.length := by
    rw [UInt8.toNat_ofNat']
    omega
  have hzero : UInt8.ofNat label.bytes.length ≠ 0 := by
    intro hzero
    rw [hzero] at hlen
    have : (0 : UInt8).toNat = 0 := rfl
    omega
  have hbyte : msg[pos]? = some (UInt8.ofNat label.bytes.length) :=
    hbytes.getElem? (i := 0) (by simp)
  have htake : (msg.drop (pos + 1)).take label.bytes.length = label.bytes :=
    (@BytesAt.right msg pos [_] _ hbytes).take_drop
  simp only [decode, hbyte, Option.bind_eq_bind, Option.bind_some, if_neg hzero, hlen]
  rw [if_pos (by omega), hrest, htake]
  rfl

theorem decode_pointer {target : Nat} {labels : List (List UInt8)} (htarget : target < 16384)
    (hbytes : BytesAt msg pos (be16 (49152 + target)))
    (hname : decode msg fuel target = some (labels, n)) :
    decode msg (fuel + 1) pos = some (labels, 2) := by
  have hfst : msg[pos]? = some (UInt8.ofNat ((49152 + target) / 256)) :=
    hbytes.getElem? (i := 0) (by simp)
  have hsnd : msg[pos + 1]? = some (UInt8.ofNat ((49152 + target) % 256)) :=
    hbytes.getElem? (i := 1) (by simp)
  have hb : (UInt8.ofNat ((49152 + target) / 256)).toNat = 192 + target / 256 := by
    rw [UInt8.toNat_ofNat']
    omega
  have hc : (UInt8.ofNat ((49152 + target) % 256)).toNat = target % 256 := by
    rw [UInt8.toNat_ofNat']
    omega
  have hzero : UInt8.ofNat ((49152 + target) / 256) ≠ 0 := by
    intro hzero
    rw [hzero] at hb
    have : (0 : UInt8).toNat = 0 := rfl
    omega
  have hback : (192 + target / 256 - 192) * 256 + target % 256 = target := by omega
  simp only [decode, hfst, hsnd, Option.bind_eq_bind, Option.bind_some, if_neg hzero, hb, hc]
  rw [if_neg (by omega), if_neg (by omega), hback, hname]
  rfl

/-- A name that starts at `base` and goes on for `n` bytes from `pos` is read
in at most `base + n` steps: the steps before a pointer are on bytes of the
name itself, the ones after it on bytes before `base`. -/
theorem decode_nameAt (h : NameAt msg base pos labels n) (hfuel : base + n ≤ fuel) :
    decode msg fuel pos = some (labels.map Label.bytes, n) := by
  induction h generalizing fuel with
  | root hbyte =>
      obtain ⟨fuel, rfl⟩ : ∃ f, fuel = f + 1 := ⟨fuel - 1, by omega⟩
      exact decode_root hbyte
  | label hbytes hrest ih =>
      obtain ⟨fuel, rfl⟩ : ∃ f, fuel = f + 1 := ⟨fuel - 1, by omega⟩
      exact decode_label hbytes (ih (by omega))
  | pointer htarget hbytes hname hback ih =>
      obtain ⟨fuel, rfl⟩ : ∃ f, fuel = f + 1 := ⟨fuel - 1, by omega⟩
      exact decode_pointer htarget hbytes (ih (by omega))

theorem NameAt.length_le (h : NameAt msg base pos labels n) : pos + n ≤ msg.length := by
  induction h with
  | root hbyte => exact (List.getElem?_eq_some_iff.mp hbyte).1
  | label hbytes hrest ih => omega
  | pointer htarget hbytes hname hback ih =>
      have := hbytes.length_le (List.cons_ne_nil _ _)
      rw [length_be16] at this
      omega

/-- The length of the message is fuel enough. -/
theorem decode_encoded {name : Name} (h : Encoded msg pos name n) :
    decode msg msg.length pos = some (name.labels.map Label.bytes, n) :=
  decode_nameAt h (NameAt.length_le h)

end Dns
