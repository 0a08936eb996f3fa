import LmTransport.Lib.Layout
import LmTransport.Ref.Asyncns
import Mathlib.Data.List.TakeWhile

/-!
# The structures `asyncns.c` sends

Client and workers are processes of one program, so a message is the bytes of a
C structure with what belongs to it behind. The structures are laid out as on a
64 bit little-endian machine: `int` and `unsigned` have four bytes, `size_t` has
eight and is aligned to eight.

`Libasyncns` is the whole of `asyncns.c`: any number of queries and workers, and
the messages as bytes. `Asyncns` is the part of it that one lookup sees.
-/

namespace LmTransport.Ref.Libasyncns

/-- `query_type_t`. -/
inductive QueryType where
  | requestAddrinfo
  | responseAddrinfo
  | requestNameinfo
  | responseNameinfo
  | requestResQuery
  | requestResSearch
  | responseRes
  | requestTerminate
  | responseDied
deriving DecidableEq, Repr

/-- The value of the enumerator. -/
def QueryType.code : QueryType → UInt32
  | .requestAddrinfo => 0
  | .responseAddrinfo => 1
  | .requestNameinfo => 2
  | .responseNameinfo => 3
  | .requestResQuery => 4
  | .requestResSearch => 5
  | .responseRes => 6
  | .requestTerminate => 7
  | .responseDied => 8

/-- The enumerators in the order of their values. -/
def QueryType.all : List QueryType :=
  [.requestAddrinfo, .responseAddrinfo, .requestNameinfo, .responseNameinfo, .requestResQuery,
    .requestResSearch, .responseRes, .requestTerminate, .responseDied]

/-- The case of a `switch` over the type a value selects. `none` is
`default:`. -/
def QueryType.ofCode (code : UInt32) : Option QueryType := QueryType.all.find? (·.code = code)

@[simp] theorem QueryType.ofCode_code (type : QueryType) :
    QueryType.ofCode type.code = some type := by
  cases type <;> rfl

/-! ## Text in memory -/

/-- What a `const char *` points to, without the `NUL` at its end. -/
structure CString where
  bytes : List UInt8
  noNul : 0 ∉ bytes
deriving DecidableEq, Repr

/-- `strlen`. -/
def CString.strlen (s : CString) : Nat := s.bytes.length

/-- The text with its `NUL`. -/
def CString.memory (s : CString) : List UInt8 := s.bytes ++ [0]

theorem zero_notMem_takeWhile (memory : List UInt8) :
    (0 : UInt8) ∉ memory.takeWhile (· ≠ 0) := fun h => by
  have := List.mem_takeWhile_imp h
  simp at this

/-- The text that starts a region: up to the first `NUL`, or all of the region
when there is none. It is what `strndup` copies. -/
def strndup (memory : List UInt8) (n : Nat) : CString where
  bytes := (memory.take n).takeWhile (· ≠ 0)
  noNul := zero_notMem_takeWhile _

/-- The text at an address, from which on a datagram has the bytes `memory`. A
text that does not end in the datagram would be read past its end. -/
def textAt (memory : List UInt8) : Option CString :=
  if 0 ∈ memory then some (strndup memory memory.length) else none

/-- `s ? strlen (s) + 1 : 0`. -/
def textLength : Option CString → Nat
  | none => 0
  | some s => s.strlen + 1

/-- The bytes of a text, of which `NULL` has none. -/
def textBytes : Option CString → List UInt8
  | none => []
  | some s => s.memory

@[simp] theorem CString.length_memory (s : CString) : s.memory.length = s.strlen + 1 := by
  rw [CString.memory, List.length_append, CString.strlen, List.length_singleton]

@[simp] theorem length_textBytes (s : Option CString) : (textBytes s).length = textLength s := by
  cases s with
  | none => rfl
  | some s => exact s.length_memory

/-- `strndup` of at least the text gives the text. -/
theorem CString.strndup_memory (s : CString) (rest : List UInt8) {n : Nat}
    (hn : s.strlen ≤ n) : strndup (s.memory ++ rest) n = s := by
  obtain ⟨bytes, noNul⟩ := s
  have hall : ∀ b ∈ bytes, decide (b ≠ 0) = true := fun b hb => by
    simpa using fun h : b = 0 => noNul (h ▸ hb)
  obtain ⟨m, rfl⟩ := Nat.exists_eq_add_of_le hn
  -- The copy ends with the text or at the `NUL` behind it.
  have hend : ((0 :: rest).take m).takeWhile (· ≠ 0) = [] := by cases m <;> simp
  simp only [strndup, CString.mk.injEq, CString.memory, CString.strlen]
  rw [List.append_assoc, List.take_length_add_append, List.takeWhile_append_of_pos hall]
  rw [List.singleton_append, hend, List.append_nil]

@[simp] theorem CString.textAt_memory (s : CString) (rest : List UInt8) :
    textAt (s.memory ++ rest) = some s := by
  have hnul : 0 ∈ s.memory ++ rest := by simp [CString.memory]
  rw [textAt, if_pos hnul, s.strndup_memory rest]
  simp only [List.length_append, length_memory]
  omega

/-! ## The structures -/

/-- `rheader_t`, the first member of every message. -/
structure Rheader where
  type : UInt32
  id : UInt32
  length : UInt64
deriving DecidableEq, Repr

def rheader : Layout Rheader :=
  (Layout.u32.seq (Layout.u32.seq Layout.u64)).as (fun m => ⟨m.1, m.2.1, m.2.2⟩)
    (fun h => (h.type, h.id, h.length)) fun _ => rfl

/-- `addrinfo_request_t`. -/
structure AddrinfoRequest where
  header : Rheader
  hintsIsNull : Int32
  aiFlags : Int32
  aiFamily : Int32
  aiSocktype : Int32
  aiProtocol : Int32
  nodeLen : UInt64
  serviceLen : UInt64
deriving DecidableEq, Repr

def addrinfoRequest : Layout AddrinfoRequest :=
  (rheader.seq (Layout.i32.seq (Layout.i32.seq (Layout.i32.seq (Layout.i32.seq
    ((Layout.i32.pad 4).seq (Layout.u64.seq Layout.u64))))))).as
    (fun m => ⟨m.1, m.2.1, m.2.2.1, m.2.2.2.1, m.2.2.2.2.1, m.2.2.2.2.2.1, m.2.2.2.2.2.2.1,
      m.2.2.2.2.2.2.2⟩)
    (fun r => (r.header, r.hintsIsNull, r.aiFlags, r.aiFamily, r.aiSocktype, r.aiProtocol,
      r.nodeLen, r.serviceLen)) fun _ => rfl

/-- `addrinfo_response_t`. -/
structure AddrinfoResponse where
  header : Rheader
  ret : Int32
  errno : Int32
  hErrno : Int32
deriving DecidableEq, Repr

def addrinfoResponse : Layout AddrinfoResponse :=
  (rheader.seq (Layout.i32.seq (Layout.i32.seq (Layout.i32.pad 4)))).as
    (fun m => ⟨m.1, m.2.1, m.2.2.1, m.2.2.2⟩)
    (fun r => (r.header, r.ret, r.errno, r.hErrno)) fun _ => rfl

/-- `addrinfo_serialization_t`. -/
structure AddrinfoSerialization where
  aiFlags : Int32
  aiFamily : Int32
  aiSocktype : Int32
  aiProtocol : Int32
  aiAddrlen : UInt64
  canonnameLen : UInt64
deriving DecidableEq, Repr

def addrinfoSerialization : Layout AddrinfoSerialization :=
  (Layout.i32.seq (Layout.i32.seq (Layout.i32.seq (Layout.i32.seq
    (Layout.u64.seq Layout.u64))))).as
    (fun m => ⟨m.1, m.2.1, m.2.2.1, m.2.2.2.1, m.2.2.2.2.1, m.2.2.2.2.2⟩)
    (fun s => (s.aiFlags, s.aiFamily, s.aiSocktype, s.aiProtocol, s.aiAddrlen, s.canonnameLen))
    fun _ => rfl

/-- `nameinfo_request_t`. `socklen_t` has four bytes. -/
structure NameinfoRequest where
  header : Rheader
  flags : Int32
  sockaddrLen : UInt32
  gethost : Int32
  getserv : Int32
deriving DecidableEq, Repr

def nameinfoRequest : Layout NameinfoRequest :=
  (rheader.seq (Layout.i32.seq (Layout.u32.seq (Layout.i32.seq Layout.i32)))).as
    (fun m => ⟨m.1, m.2.1, m.2.2.1, m.2.2.2.1, m.2.2.2.2⟩)
    (fun r => (r.header, r.flags, r.sockaddrLen, r.gethost, r.getserv)) fun _ => rfl

/-- `nameinfo_response_t`. -/
structure NameinfoResponse where
  header : Rheader
  hostlen : UInt64
  servlen : UInt64
  ret : Int32
  errno : Int32
  hErrno : Int32
deriving DecidableEq, Repr

def nameinfoResponse : Layout NameinfoResponse :=
  (rheader.seq (Layout.u64.seq (Layout.u64.seq (Layout.i32.seq (Layout.i32.seq
    (Layout.i32.pad 4)))))).as
    (fun m => ⟨m.1, m.2.1, m.2.2.1, m.2.2.2.1, m.2.2.2.2.1, m.2.2.2.2.2⟩)
    (fun r => (r.header, r.hostlen, r.servlen, r.ret, r.errno, r.hErrno)) fun _ => rfl

/-- `res_request_t`. -/
structure ResRequest where
  header : Rheader
  cls : Int32
  type : Int32
  dnameLen : UInt64
deriving DecidableEq, Repr

def resRequest : Layout ResRequest :=
  (rheader.seq (Layout.i32.seq (Layout.i32.seq Layout.u64))).as
    (fun m => ⟨m.1, m.2.1, m.2.2.1, m.2.2.2⟩)
    (fun r => (r.header, r.cls, r.type, r.dnameLen)) fun _ => rfl

/-- `res_response_t`. -/
structure ResResponse where
  header : Rheader
  ret : Int32
  errno : Int32
  hErrno : Int32
deriving DecidableEq, Repr

def resResponse : Layout ResResponse :=
  (rheader.seq (Layout.i32.seq (Layout.i32.seq (Layout.i32.pad 4)))).as
    (fun m => ⟨m.1, m.2.1, m.2.2.1, m.2.2.2⟩)
    (fun r => (r.header, r.ret, r.errno, r.hErrno)) fun _ => rfl

/-- The sizes, which are also what `sizeof` gives. -/
example : rheader.size = 16 ∧ addrinfoRequest.size = sizeofAddrinfoRequest ∧
    addrinfoResponse.size = 32 ∧ addrinfoSerialization.size = 32 ∧ nameinfoRequest.size = 32 ∧
    nameinfoResponse.size = 48 ∧ resRequest.size = sizeofResRequest ∧ resResponse.size = 32 := by
  decide

/-! A message begins with its header, whatever is behind it. -/

/-- A structure whose first member is the header, which is how a message of any
type is told apart. -/
class HasHeader {α : Type} (layout : Layout α) (header : outParam (α → Rheader)) : Prop where
  read_header : ∀ v rest, rheader.read (layout.write v ++ rest) = header v
  le_size : rheader.size ≤ layout.size

instance : HasHeader addrinfoRequest (·.header) where
  read_header _ rest := Layout.seq_read_fst _ _ _ rest
  le_size := by decide

instance : HasHeader addrinfoResponse (·.header) where
  read_header _ rest := Layout.seq_read_fst _ _ _ rest
  le_size := by decide

instance : HasHeader nameinfoRequest (·.header) where
  read_header _ rest := Layout.seq_read_fst _ _ _ rest
  le_size := by decide

instance : HasHeader nameinfoResponse (·.header) where
  read_header _ rest := Layout.seq_read_fst _ _ _ rest
  le_size := by decide

instance : HasHeader resRequest (·.header) where
  read_header _ rest := Layout.seq_read_fst _ _ _ rest
  le_size := by decide

instance : HasHeader resResponse (·.header) where
  read_header _ rest := Layout.seq_read_fst _ _ _ rest
  le_size := by decide

end LmTransport.Ref.Libasyncns
