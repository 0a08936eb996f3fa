import LmTransport.Ref.AsyncnsService

/-!
# A request says what the client asked

Every call the client sends is read back by the worker as the same call of the
C library, with one exception. The worker copies the address of a `getnameinfo`
request into a `struct sockaddr_storage` without looking at its length, and the
client only checks that the request fits `BUFSIZE`.
-/

namespace LmTransport.Ref.Libasyncns

/-! ## Headers -/

/-- A message that has its length in its header passes the assertions both sides
begin with. -/
theorem headerOk_write {α : Type} {layout : Layout α} {header : α → Rheader}
    [HasHeader layout header] (v : α) (payload : List UInt8)
    (hlength : (header v).length = .ofNat (layout.size + payload.length)) :
    headerOk (layout.write v ++ payload) = true := by
  have hsize : rheader.size ≤ layout.size := HasHeader.le_size
  have hread : rheader.read (layout.write v ++ payload) = header v :=
    HasHeader.read_header v payload
  have hlong : (layout.write v ++ payload).length = layout.size + payload.length := by
    rw [List.length_append, layout.length_write]
  rw [headerOk, hread, hlong, hlength]
  simp only [decide_true, Bool.and_true, decide_eq_true_eq]
  omega

/-! ## Optional texts -/

theorem optionalText_textBytes (s : Option CString) (rest : List UInt8)
    (h : textLength s ≤ bufsize) :
    optionalText (.ofNat (textLength s)) (textBytes s ++ rest) = some s := by
  cases s with
  | none => rfl
  | some s =>
      have hne : UInt64.ofNat (s.strlen + 1) ≠ 0 := fun heq => by
        have htoNat := congrArg UInt64.toNat heq
        rw [textLength, bufsize] at h
        rw [UInt64.toNat_ofNat_of_lt' (by rw [UInt64.size]; omega)] at htoNat
        exact absurd htoNat (Nat.succ_ne_zero _)
      rw [textLength, optionalText, if_neg hne, textBytes, CString.textAt_memory, Option.map_some]

/-! ## The requests -/

/-- `handle_request` on a message is its case for the type in the header. -/
theorem handleRequest_write {α : Type} {layout : Layout α} {header : α → Rheader}
    [HasHeader layout header] (v : α) (payload : List UInt8) (type : QueryType)
    (htype : (header v).type = type.code)
    (hlength : (header v).length = .ofNat (layout.size + payload.length)) :
    handleRequest (layout.write v ++ payload) =
      match some type with
      | some .requestAddrinfo => handleAddrinfoRequest (layout.write v ++ payload)
      | some .requestNameinfo => handleNameinfoRequest (layout.write v ++ payload)
      | some .requestResQuery => handleResRequest false (layout.write v ++ payload)
      | some .requestResSearch => handleResRequest true (layout.write v ++ payload)
      | some .requestTerminate => .terminates
      | _ => .ignores := by
  have hread : rheader.read (layout.write v ++ payload) = header v :=
    HasHeader.read_header v payload
  rw [handleRequest, headerOk_write v payload hlength, hread, htype, QueryType.ofCode_code]
  rfl

theorem handleRequest_addrinfoRequestBytes (id : UInt32) (node service : Option CString)
    (hints : Option Hints) (h : addrinfoRequestLength node service ≤ bufsize) :
    handleRequest (addrinfoRequestBytes id node service hints) =
      .calls id (.getaddrinfo node service hints) := by
  have hlength : addrinfoRequest.size + (textBytes node ++ textBytes service).length =
      addrinfoRequestLength node service := by
    rw [List.length_append, length_textBytes, length_textBytes, addrinfoRequestLength]
    omega
  have hnode : textLength node ≤ bufsize := by
    rw [addrinfoRequestLength] at h
    omega
  have hservice : textLength service ≤ bufsize := by
    rw [addrinfoRequestLength] at h
    omega
  have hnodeLen : (UInt64.ofNat (textLength node)).toNat = textLength node :=
    UInt64.toNat_ofNat_of_lt' (by rw [UInt64.size]; rw [bufsize] at hnode; omega)
  rw [addrinfoRequestBytes, handleRequest_write _ _ .requestAddrinfo rfl (by rw [hlength])]
  simp only [handleAddrinfoRequest, Layout.read_write, Layout.drop_write, List.length_append,
    Layout.length_write]
  rw [if_neg (by omega), ← List.length_append, hlength, if_neg]
  · rw [optionalText_textBytes node _ hnode, hnodeLen,
      List.drop_left' (length_textBytes node)]
    have hlast := optionalText_textBytes service [] hservice
    rw [List.append_nil] at hlast
    rw [hlast]
    cases hints with
    | none => rfl
    | some hints => rfl
  · rw [addrinfoRequestLength, UInt64.ofNat_add, UInt64.ofNat_add]
    exact not_not_intro rfl

/-- The length of the address is not checked against the buffer it is copied
into. -/
theorem handleRequest_nameinfoRequestBytes (id : UInt32) (sa : List UInt8)
    (flags gethost getserv : Int32) (h : nameinfoRequestLength sa ≤ bufsize) :
    handleRequest (nameinfoRequestBytes id sa flags gethost getserv) =
      if sizeofSockaddrStorage < sa.length then .overruns
      else .calls id (.getnameinfo sa (gethost ≠ 0) (getserv ≠ 0) flags) := by
  have hsa : sa.length ≤ bufsize := by
    rw [nameinfoRequestLength] at h
    omega
  have hsaLen : (UInt32.ofNat sa.length).toNat = sa.length :=
    UInt32.toNat_ofNat_of_lt' (by rw [UInt32.size]; rw [bufsize] at hsa; omega)
  have hsize : (UInt32.ofNat sa.length).toUInt64 = UInt64.ofNat sa.length := by
    apply UInt64.toNat_inj.mp
    rw [UInt32.toNat_toUInt64, hsaLen, UInt64.toNat_ofNat_of_lt']
    rw [UInt64.size]
    rw [bufsize] at hsa
    omega
  rw [nameinfoRequestBytes, handleRequest_write _ _ .requestNameinfo rfl rfl]
  simp only [handleNameinfoRequest, Layout.read_write, Layout.drop_write, List.length_append,
    Layout.length_write, hsaLen, hsize, List.take_length]
  rw [if_neg (by omega), if_neg]
  rw [UInt64.ofNat_add]
  exact not_not_intro rfl

theorem handleRequest_resRequestBytes (qtype : QueryType) (search : Bool) (id : UInt32)
    (dname : CString) (cls type : Int32)
    (hqtype : qtype = if search then .requestResSearch else .requestResQuery) :
    handleRequest (resRequestBytes qtype id dname cls type) =
      .calls id (if search then .resSearch dname cls type else .resQuery dname cls type) := by
  have htext : textAt dname.memory = some dname := by
    have h := dname.textAt_memory []
    rwa [List.append_nil] at h
  have hlength : resRequest.size + dname.memory.length = resRequestLength dname := by
    rw [CString.length_memory, resRequestLength]
  have hcase : ∀ datagram, handleResRequest search datagram =
      match some qtype with
      | some .requestAddrinfo => handleAddrinfoRequest datagram
      | some .requestNameinfo => handleNameinfoRequest datagram
      | some .requestResQuery => handleResRequest false datagram
      | some .requestResSearch => handleResRequest true datagram
      | some .requestTerminate => .terminates
      | _ => .ignores := by
    intro datagram
    subst hqtype
    cases search <;> rfl
  rw [resRequestBytes, handleRequest_write _ _ qtype rfl (by rw [hlength]), ← hcase]
  simp only [handleResRequest, Layout.read_write, Layout.drop_write, List.length_append,
    Layout.length_write, htext]
  rw [if_neg (by omega), if_neg]
  rw [CString.length_memory, UInt64.ofNat_add]
  exact not_not_intro rfl

/-! ## Calls -/

/-- The address of the call fits a `struct sockaddr_storage`. -/
def Call.sockaddrFits : Call → Bool
  | .getnameinfo sa _ _ _ => sa.length ≤ sizeofSockaddrStorage
  | _ => true

@[simp] theorem Call.length_bytes (id : UInt32) (call : Call) :
    (call.bytes id).length = call.length := by
  cases call with
  | getaddrinfo node service hints =>
      rw [bytes, addrinfoRequestBytes, List.length_append, List.length_append,
        Layout.length_write, length_textBytes, length_textBytes, length, addrinfoRequestLength,
        Nat.add_assoc]
  | getnameinfo sa flags gethost getserv =>
      rw [bytes, nameinfoRequestBytes, List.length_append, Layout.length_write]
      rfl
  | resQuery dname cls type =>
      rw [bytes, resRequestBytes, List.length_append, Layout.length_write, CString.length_memory]
      rfl
  | resSearch dname cls type =>
      rw [bytes, resRequestBytes, List.length_append, Layout.length_write, CString.length_memory]
      rfl

/-- The id of a request is the id of its query. -/
theorem Call.id_bytes (id : UInt32) (call : Call) : (rheader.read (call.bytes id)).id = id := by
  cases call with
  | getaddrinfo => rw [bytes, addrinfoRequestBytes, HasHeader.read_header]
  | getnameinfo => rw [bytes, nameinfoRequestBytes, HasHeader.read_header]
  | resQuery => rw [bytes, resRequestBytes, HasHeader.read_header]
  | resSearch => rw [bytes, resRequestBytes, HasHeader.read_header]

/-- What a worker does with the request for a call. -/
theorem handleRequest_bytes (id : UInt32) (call : Call) (h : call.length ≤ bufsize) :
    handleRequest (call.bytes id) =
      if call.sockaddrFits then .calls id call.libc else .overruns := by
  cases call with
  | getaddrinfo node service hints =>
      exact handleRequest_addrinfoRequestBytes id node service hints h
  | getnameinfo sa flags gethost getserv =>
      rw [Call.bytes, handleRequest_nameinfoRequestBytes id sa flags gethost getserv h]
      by_cases hlong : sizeofSockaddrStorage < sa.length
      · rw [if_pos hlong, if_neg]
        simp only [Call.sockaddrFits, decide_eq_true_eq]
        omega
      · rw [if_neg hlong, if_pos]
        · rfl
        · simp only [Call.sockaddrFits, decide_eq_true_eq]
          omega
  | resQuery dname cls type =>
      exact handleRequest_resRequestBytes .requestResQuery false id dname cls type rfl
  | resSearch dname cls type =>
      exact handleRequest_resRequestBytes .requestResSearch true id dname cls type rfl

/-- A request fits the buffer the worker receives it in. -/
theorem take_recvSize_bytes (id : UInt32) (call : Call) (h : call.length ≤ bufsize) :
    (call.bytes id).take recvSize = call.bytes id := by
  refine List.take_of_length_le ?_
  rw [Call.length_bytes]
  exact Nat.le_trans h (by decide)

end LmTransport.Ref.Libasyncns
