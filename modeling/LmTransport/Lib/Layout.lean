import Mathlib.Algebra.Group.Nat.Defs

/-!
# Structures as bytes

A C program that copies a structure into a buffer and reads it back on the
other side relies on one thing: what `memcpy` put there is what it gets. A
`Layout` is that fact as data, a fixed number of bytes, how they are written
and how they are read. Layouts compose the way a structure is declared, member
after member with padding where the alignment asks for it, and a structure
whose first member is another can be read through that member's layout alone
(`seq_read_fst`), which is how a tagged message is told apart by its header.

A buffer also holds what follows the structure, so reading is always stated with
a rest behind.

The last section is about a sequence of records of varying length, each of which says where it
ends: a loop that reads records until the buffer is empty gets them all back,
and stops at the first one it cannot take.
-/

/-! ## Little-endian numbers -/

/-- The `n` lowest bytes of a number, the lowest first. -/
def leBytes : Nat → Nat → List UInt8
  | 0, _ => []
  | n + 1, v => UInt8.ofNat v :: leBytes n (v / 256)

/-- The number the first `n` bytes stand for. -/
def leValue : Nat → List UInt8 → Nat
  | 0, _ => 0
  | _ + 1, [] => 0
  | n + 1, b :: bs => b.toNat + 256 * leValue n bs

@[simp] theorem leBytes_length (n v : Nat) : (leBytes n v).length = n := by
  induction n generalizing v with
  | zero => rfl
  | succ n ih => rw [leBytes, List.length_cons, ih]

theorem leValue_leBytes (n v : Nat) (rest : List UInt8) :
    leValue n (leBytes n v ++ rest) = v % 256 ^ n := by
  induction n generalizing v with
  | zero => rw [leValue, Nat.pow_zero, Nat.mod_one]
  | succ n ih =>
      have hbyte : (UInt8.ofNat v).toNat = v % 256 := UInt8.toNat_ofNat'
      rw [leBytes, List.cons_append, leValue, ih, hbyte, Nat.pow_succ, Nat.mul_comm (256 ^ n)]
      exact (Nat.mod_mul).symm

/-! ## Layouts -/

/-- How a value of a type sits in memory. -/
structure Layout (α : Type*) where
  size : Nat
  write : α → List UInt8
  read : List UInt8 → α
  length_write : ∀ a, (write a).length = size
  read_write : ∀ a rest, read (write a ++ rest) = a

namespace Layout

variable {α β : Type*}

attribute [simp] length_write read_write

/-- Two values one after the other. -/
def seq (a : Layout α) (b : Layout β) : Layout (α × β) where
  size := a.size + b.size
  write v := a.write v.1 ++ b.write v.2
  read bytes := (a.read bytes, b.read (bytes.drop a.size))
  length_write v := by rw [List.length_append, a.length_write, b.length_write]
  read_write v rest := by
    rw [List.append_assoc, a.read_write, List.drop_left' (a.length_write v.1), b.read_write]

/-- A value followed by padding. -/
def pad (a : Layout α) (n : Nat) : Layout α where
  size := a.size + n
  write v := a.write v ++ List.replicate n 0
  read := a.read
  length_write v := by rw [List.length_append, a.length_write, List.length_replicate]
  read_write v rest := by rw [List.append_assoc, a.read_write]

/-- The same bytes, read as a structure with named members. -/
def as (a : Layout α) (mk : α → β) (members : β → α) (h : ∀ b, mk (members b) = b) :
    Layout β where
  size := a.size
  write v := a.write (members v)
  read bytes := mk (a.read bytes)
  length_write v := a.length_write (members v)
  read_write v rest := by rw [a.read_write, h]

/-- `uint32_t`. -/
def u32 : Layout UInt32 where
  size := 4
  write v := leBytes 4 v.toNat
  read bytes := UInt32.ofNat (leValue 4 bytes)
  length_write _ := leBytes_length ..
  read_write v rest := by
    rw [leValue_leBytes, Nat.mod_eq_of_lt (show v.toNat < 256 ^ 4 from v.toNat_lt),
      UInt32.ofNat_toNat]

/-- `uint64_t`. -/
def u64 : Layout UInt64 where
  size := 8
  write v := leBytes 8 v.toNat
  read bytes := UInt64.ofNat (leValue 8 bytes)
  length_write _ := leBytes_length ..
  read_write v rest := by
    rw [leValue_leBytes, Nat.mod_eq_of_lt (show v.toNat < 256 ^ 8 from v.toNat_lt),
      UInt64.ofNat_toNat]

/-- `int32_t`, in two's complement. -/
def i32 : Layout Int32 :=
  u32.as UInt32.toInt32 Int32.toUInt32 Int32.toInt32_toUInt32

/-- The first member of a structure is read at the structure's own address. -/
theorem seq_read_fst (a : Layout α) (b : Layout β) (v : α × β) (rest : List UInt8) :
    a.read ((a.seq b).write v ++ rest) = v.1 := by
  rw [seq, List.append_assoc, a.read_write]

/-- What follows a value in the buffer. -/
@[simp] theorem drop_write (a : Layout α) (v : α) (rest : List UInt8) :
    (a.write v ++ rest).drop a.size = rest :=
  List.drop_left' (a.length_write v)

end Layout

/-! ## Records one after the other

`parse k` reads the `k`-th record off the front of the buffer, or fails. -/

/-- Read records until the buffer is empty. The second component says whether
the loop got that far. The buffer shrinks with every record, so its length is fuel enough. -/
def readRecords {α : Type*} (parse : Nat → List UInt8 → Option (α × List UInt8)) :
    Nat → Nat → List UInt8 → List α × Bool
  | _, _, [] => ([], true)
  | 0, _, _ :: _ => ([], false)
  | fuel + 1, k, bytes =>
      match parse k bytes with
      | none => ([], false)
      | some (a, rest) =>
          let (as, complete) := readRecords parse fuel (k + 1) rest
          (a :: as, complete)

section Records

variable {α : Type*} {parse : Nat → List UInt8 → Option (α × List UInt8)}
  {record : α → List UInt8}

theorem readRecords_of_some {k fuel : Nat} {bytes rest : List UInt8} {a : α}
    (hne : bytes ≠ []) (h : parse k bytes = some (a, rest)) :
    readRecords parse (fuel + 1) k bytes =
      (a :: (readRecords parse fuel (k + 1) rest).1,
        (readRecords parse fuel (k + 1) rest).2) := by
  obtain ⟨b, bs, rfl⟩ := List.exists_cons_of_ne_nil hne
  rw [readRecords, h]
  exact hne

theorem readRecords_of_none {k fuel : Nat} {bytes : List UInt8} (hne : bytes ≠ [])
    (h : parse k bytes = none) : readRecords parse fuel k bytes = ([], false) := by
  obtain ⟨b, bs, rfl⟩ := List.exists_cons_of_ne_nil hne
  cases fuel with
  | zero => rw [readRecords]
  | succ fuel =>
      rw [readRecords, h]
      exact hne

@[simp] theorem readRecords_nil (k fuel : Nat) : readRecords parse fuel k [] = ([], true) := by
  cases fuel <;> rfl

/-- The loop gets through the records that can be read and goes on with what is
behind them. -/
theorem readRecords_append {as : List α} (hne : ∀ a, record a ≠ []) (k fuel : Nat)
    (hparse : ∀ i < as.length, ∀ a ∈ as, ∀ rest,
      parse (k + i) (record a ++ rest) = some (a, rest)) (rest : List UInt8) :
    readRecords parse (as.length + fuel) k (as.flatMap record ++ rest) =
      (as ++ (readRecords parse fuel (k + as.length) rest).1,
        (readRecords parse fuel (k + as.length) rest).2) := by
  induction as generalizing k with
  | nil => simp
  | cons a as ih =>
      have hfirst := hparse 0 (by simp) a (by simp) (as.flatMap record ++ rest)
      rw [Nat.add_zero] at hfirst
      have hrest := ih (k + 1) fun i hi b hb rest => by
        rw [show k + 1 + i = k + (i + 1) by omega]
        exact hparse (i + 1) (by simpa using hi) b (List.mem_cons_of_mem _ hb) rest
      have hfuel : (a :: as).length + fuel = (as.length + fuel) + 1 := by
        rw [List.length_cons]
        omega
      have hindex : k + (a :: as).length = k + 1 + as.length := by
        rw [List.length_cons]
        omega
      rw [List.flatMap_cons, List.append_assoc, hfuel, hindex,
        readRecords_of_some (by simp [hne a]) hfirst, hrest, List.cons_append]

theorem length_le_flatMap (hne : ∀ a, record a ≠ []) (as : List α) :
    as.length ≤ (as.flatMap record).length := by
  induction as with
  | nil => simp
  | cons a as ih =>
      have hpos := List.length_pos_iff.mpr (hne a)
      rw [List.flatMap_cons, List.length_append, List.length_cons]
      omega

/-- All of the records are read when each of them can be. -/
theorem readRecords_all {as : List α} (hne : ∀ a, record a ≠ []) (k : Nat)
    (hparse : ∀ i < as.length, ∀ a ∈ as, ∀ rest,
      parse (k + i) (record a ++ rest) = some (a, rest)) :
    readRecords parse (as.flatMap record).length k (as.flatMap record) = (as, true) := by
  have hlength := length_le_flatMap hne as
  have h := readRecords_append hne k ((as.flatMap record).length - as.length) hparse []
  rwa [List.append_nil, Nat.add_sub_cancel' hlength, readRecords_nil, List.append_nil] at h

/-- The loop stops at the first record it cannot take, with the ones before
it. -/
theorem readRecords_stops {as : List α} (hne : ∀ a, record a ≠ []) (k : Nat)
    (hparse : ∀ i < as.length, ∀ a ∈ as, ∀ rest,
      parse (k + i) (record a ++ rest) = some (a, rest))
    {rest : List UInt8} (hrest : rest ≠ []) (hstop : parse (k + as.length) rest = none) :
    readRecords parse (as.flatMap record ++ rest).length k (as.flatMap record ++ rest) =
      (as, false) := by
  have hlength := length_le_flatMap hne as
  have h := readRecords_append hne k ((as.flatMap record ++ rest).length - as.length) hparse rest
  rw [readRecords_of_none hrest hstop, List.append_nil] at h
  rwa [Nat.add_sub_cancel'] at h
  rw [List.length_append]
  omega

end Records
