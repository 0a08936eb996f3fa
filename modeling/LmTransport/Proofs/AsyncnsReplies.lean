import LmTransport.Proofs.AsyncnsRequests
import Mathlib.Algebra.GroupWithZero.Nat
import Mathlib.Data.List.Infix

/-!
# What comes back of a result

The list of a `getaddrinfo` result is written record after record, and each
record is checked against the space that is left. The check compares that space
with the length of the whole message, not with the length of the record, so
what is already there counts twice. A list goes through when its last two
lengths add up to `BUFSIZE`; a longer one is cut, and where the message has
passed the half of the buffer before that is noticed, an assertion ends the
worker.

Texts always go through. The answer of the name server goes through up to the
size of the client's buffer, which is a little smaller than the worker's.
-/

namespace LmTransport.Ref.Libasyncns

/-! ## Lengths -/

@[simp] theorem Addrinfo.length_record (ai : Addrinfo) : ai.record.length = ai.recordLength := by
  rw [record, List.length_append, List.length_append, addrinfoSerialization.length_write,
    length_textBytes, recordLength, Nat.add_assoc]

theorem Addrinfo.record_ne_nil (ai : Addrinfo) : ai.record ≠ [] := by
  have hpos : 0 < ai.record.length := by
    rw [length_record, recordLength]
    exact Nat.lt_of_lt_of_le (by decide : 0 < addrinfoSerialization.size) (by omega)
  exact List.ne_nil_of_length_pos hpos

/-- The length of a message of `start` bytes with the first `n` records behind. -/
def lengthAfter (start : Nat) (ai : List Addrinfo) (n : Nat) : Nat :=
  start + ((ai.take n).map Addrinfo.recordLength).sum

/-- The length of a `getaddrinfo` reply with the first `n` records of the list. -/
def replyLength (ai : List Addrinfo) (n : Nat) : Nat := lengthAfter addrinfoResponse.size ai n

@[simp] theorem lengthAfter_zero (start : Nat) (ai : List Addrinfo) :
    lengthAfter start ai 0 = start := rfl

theorem lengthAfter_cons (start : Nat) (k : Addrinfo) (ks : List Addrinfo) (n : Nat) :
    lengthAfter start (k :: ks) (n + 1) = lengthAfter (start + k.recordLength) ks n := by
  rw [lengthAfter, lengthAfter, List.take_succ_cons, List.map_cons, List.sum_cons, Nat.add_assoc]

theorem lengthAfter_le (start : Nat) (ai : List Addrinfo) {m n : Nat} (h : m ≤ n) :
    lengthAfter start ai m ≤ lengthAfter start ai n := by
  obtain ⟨d, rfl⟩ := Nat.exists_eq_add_of_le h
  rw [lengthAfter, lengthAfter, List.take_add, List.map_append, List.sum_append]
  omega

theorem length_records (ai : List Addrinfo) :
    (ai.flatMap Addrinfo.record).length = (ai.map Addrinfo.recordLength).sum := by
  rw [List.length_flatMap]
  exact congrArg List.sum (List.map_congr_left fun k _ => k.length_record)

/-! ## Writing the list

`j` is the number of records that fit: what is there before and after each of
them adds up to at most `BUFSIZE`. -/

theorem serializeAddrinfos_eq (L : Nat) (ret : Int32) (ai : List Addrinfo) :
    ∃ j ≤ ai.length,
      (∀ i < j, lengthAfter L ai i + lengthAfter L ai (i + 1) ≤ bufsize) ∧
      (j < ai.length → bufsize < lengthAfter L ai j + lengthAfter L ai (j + 1)) ∧
      serializeAddrinfos L L ret ai =
        if j = ai.length then some (ai.flatMap Addrinfo.record, lengthAfter L ai j, ret)
        else if 2 * lengthAfter L ai j ≤ bufsize then
          some ((ai.take j).flatMap Addrinfo.record, lengthAfter L ai j, eaiMemory)
        else none := by
  induction ai generalizing L with
  | nil => exact ⟨0, Nat.le_refl 0, fun i hi => by omega, fun h => by simp at h, rfl⟩
  | cons k ks ih =>
      have hnext : lengthAfter L (k :: ks) 1 = L + k.recordLength := by
        rw [lengthAfter_cons, lengthAfter_zero]
      by_cases hfits : L + (L + k.recordLength) ≤ bufsize
      · -- this record fits, and the rest is written behind it
        obtain ⟨j, hj, hlow, hhigh, heq⟩ := ih (L + k.recordLength)
        have hrecord : serializeAddrinfo k L (bufsize - L) = .record k.record := by
          rw [serializeAddrinfo, if_neg (by omega), if_neg (by omega)]
        refine ⟨j + 1, by simpa using hj, fun i hi => ?_, fun hlt => ?_, ?_⟩
        · cases i with
          | zero => rwa [hnext, lengthAfter_zero]
          | succ i =>
              rw [lengthAfter_cons, lengthAfter_cons]
              exact hlow i (by omega)
        · rw [lengthAfter_cons, lengthAfter_cons]
          exact hhigh (by simpa using hlt)
        · rw [serializeAddrinfos, hrecord]
          simp only [Addrinfo.length_record, heq, lengthAfter_cons, List.length_cons,
            Nat.add_right_cancel_iff, List.take_succ_cons, List.flatMap_cons]
          split
          · rfl
          · split
            · rfl
            · rfl
      · have hstop : bufsize < L + (L + k.recordLength) := by omega
        refine ⟨0, Nat.zero_le _, fun i hi => by omega, fun _ => ?_, ?_⟩
        · rwa [lengthAfter_zero, Nat.zero_add, hnext]
        · rw [lengthAfter_zero, if_neg (by simp)]
          by_cases hhalf : 2 * L ≤ bufsize
          · have hnull : serializeAddrinfo k L (bufsize - L) = .null := by
              rw [serializeAddrinfo, if_neg (by omega), if_pos (by omega)]
            rw [serializeAddrinfos, hnull, if_pos hhalf]
            rfl
          · have haborts : serializeAddrinfo k L (bufsize - L) = .aborts := by
              rw [serializeAddrinfo, if_pos (by omega)]
            rw [serializeAddrinfos, haborts, if_neg hhalf]

/-- The datagram that carries a status and some records. -/
def addrinfoReplyBytes (id : UInt32) (status : Status) (ai : List Addrinfo) : List UInt8 :=
  addrinfoResponse.write
    { header :=
        { type := QueryType.responseAddrinfo.code, id
          length := .ofNat (replyLength ai ai.length) }
      ret := status.ret, errno := status.errno, hErrno := status.hErrno } ++
    ai.flatMap Addrinfo.record

theorem length_addrinfoReplyBytes (id : UInt32) (status : Status) (ai : List Addrinfo) :
    (addrinfoReplyBytes id status ai).length = replyLength ai ai.length := by
  rw [addrinfoReplyBytes, List.length_append, addrinfoResponse.length_write, length_records,
    replyLength, lengthAfter, List.take_length]

theorem replyLength_take (ai : List Addrinfo) (j : Nat) :
    replyLength (ai.take j) (ai.take j).length = replyLength ai j := by
  rw [replyLength, replyLength, lengthAfter, lengthAfter, List.take_length]

/-- `send_addrinfo_reply` on a list: all of it, the records that fit, or no reply
at all. -/
theorem sendAddrinfoReply_eq (id : UInt32) (status : Status) (ai : List Addrinfo)
    (hret : status.ret = 0) :
    ∃ j ≤ ai.length,
      (∀ i < j, replyLength ai i + replyLength ai (i + 1) ≤ bufsize) ∧
      (j < ai.length → bufsize < replyLength ai j + replyLength ai (j + 1)) ∧
      sendAddrinfoReply id status ai =
        if j = ai.length then some (addrinfoReplyBytes id status ai)
        else if 2 * replyLength ai j ≤ bufsize then
          some (addrinfoReplyBytes id { status with ret := eaiMemory } (ai.take j))
        else none := by
  obtain ⟨j, hj, hlow, hhigh, heq⟩ := serializeAddrinfos_eq addrinfoResponse.size status.ret ai
  refine ⟨j, hj, hlow, hhigh, ?_⟩
  rw [sendAddrinfoReply, if_pos hret]
  simp only [heq]
  -- what is sent is all that was written
  have hall : ∀ (st : Status) (list : List Addrinfo),
      (addrinfoReplyBytes id st list).take (replyLength list list.length) =
        addrinfoReplyBytes id st list := fun st list => by
    rw [← length_addrinfoReplyBytes id st, List.take_length]
  by_cases hlast : j = ai.length
  · rw [if_pos hlast, if_pos hlast, Option.map_some, hlast]
    exact congrArg some (hall status ai)
  · rw [if_neg hlast, if_neg hlast]
    by_cases hhalf : 2 * replyLength ai j ≤ bufsize
    · have hlength := replyLength_take ai j
      have hcut := hall { status with ret := eaiMemory } (ai.take j)
      have hhalf' : 2 * lengthAfter addrinfoResponse.size ai j ≤ bufsize := hhalf
      rw [addrinfoReplyBytes, hlength] at hcut
      rw [if_pos hhalf, if_pos hhalf', Option.map_some, addrinfoReplyBytes, hlength]
      exact congrArg some hcut
    · have hhalf' : ¬2 * lengthAfter addrinfoResponse.size ai j ≤ bufsize := hhalf
      rw [if_neg hhalf, if_neg hhalf', Option.map_none]

/-- A status that is not success travels without a list. -/
theorem sendAddrinfoReply_of_failed (id : UInt32) (status : Status) (ai : List Addrinfo)
    (hret : status.ret ≠ 0) :
    sendAddrinfoReply id status ai = some (addrinfoReplyBytes id status []) := by
  rw [sendAddrinfoReply, if_neg hret]
  simp only [serializeAddrinfos, Option.map_some, Option.some.injEq]
  exact List.take_of_length_le (by rw [List.append_nil, addrinfoResponse.length_write])

/-! ## Reading the list -/

theorem unserializeAddrinfo_record (ai : Addrinfo) (rest : List UInt8)
    (h : ai.recordLength ≤ bufsize) :
    unserializeAddrinfo true (ai.record ++ rest) = some (ai, rest) := by
  have haddr : (UInt64.ofNat ai.addr.length).toNat = ai.addr.length :=
    UInt64.toNat_ofNat_of_lt' (by
      rw [UInt64.size]
      rw [Addrinfo.recordLength, bufsize] at h
      omega)
  have hname : (UInt64.ofNat (textLength ai.canonname)).toNat = textLength ai.canonname :=
    UInt64.toNat_ofNat_of_lt' (by
      rw [UInt64.size]
      rw [Addrinfo.recordLength, bufsize] at h
      omega)
  have hall : (UInt64.ofNat addrinfoSerialization.size + UInt64.ofNat ai.addr.length +
      UInt64.ofNat (textLength ai.canonname)).toNat = ai.recordLength := by
    rw [← UInt64.ofNat_add, ← UInt64.ofNat_add]
    exact UInt64.toNat_ofNat_of_lt' (by
      rw [UInt64.size]
      rw [Addrinfo.recordLength, bufsize] at h
      omega)
  have hbehind : (ai.record ++ rest).drop ai.recordLength = rest :=
    List.drop_left' ai.length_record
  have hlong : (ai.record ++ rest).length = ai.recordLength + rest.length := by
    rw [List.length_append, Addrinfo.length_record]
  have hsize : addrinfoSerialization.size ≤ ai.recordLength := by
    rw [Addrinfo.recordLength]
    omega
  have hsplit : ai.record ++ rest =
      addrinfoSerialization.write
        { aiFlags := ai.aiFlags, aiFamily := ai.aiFamily, aiSocktype := ai.aiSocktype,
          aiProtocol := ai.aiProtocol, aiAddrlen := .ofNat ai.addr.length,
          canonnameLen := .ofNat (textLength ai.canonname) } ++
        (ai.addr ++ (textBytes ai.canonname ++ rest)) := by
    rw [Addrinfo.record, List.append_assoc, List.append_assoc]
  have hcanonname :
      (if UInt64.ofNat (textLength ai.canonname) = 0 then none
        else some (strndup (textBytes ai.canonname ++ rest) (textLength ai.canonname))) =
      ai.canonname := by
    cases hname' : ai.canonname with
    | none => rfl
    | some s =>
        rw [if_neg fun heq => ?_]
        · rw [textBytes, textLength, s.strndup_memory rest (Nat.le_succ _)]
        · have htoNat := congrArg UInt64.toNat heq
          rw [hname'] at hname
          rw [hname, textLength] at htoNat
          exact absurd htoNat (Nat.succ_ne_zero _)
  have hread := congrArg addrinfoSerialization.read hsplit
  rw [addrinfoSerialization.read_write] at hread
  have hpayload := congrArg (List.drop addrinfoSerialization.size) hsplit
  rw [addrinfoSerialization.drop_write] at hpayload
  rw [unserializeAddrinfo]
  simp only [hread, hpayload, hall, hbehind, hlong, haddr, hname]
  rw [if_neg (by omega), if_neg (by omega), if_neg (by simp)]
  rw [List.take_left' rfl, List.drop_left' rfl, hcanonname]

theorem unserializeAddrinfo_false (p : List UInt8) : unserializeAddrinfo false p = none := by
  rw [unserializeAddrinfo]
  split
  · rfl
  · split
    · rfl
    · rfl

/-- The loop of `handle_response` gets the records back up to the first for
which there is no memory. -/
theorem readRecords_records (malloc : Nat → Bool) (ai : List Addrinfo)
    (hai : ∀ k ∈ ai, k.recordLength ≤ bufsize) {m : Nat} (hm : m ≤ ai.length)
    (hsome : ∀ i < m, malloc i = true) (hnone : m < ai.length → malloc m = false) :
    readRecords (fun k => unserializeAddrinfo (malloc k)) (ai.flatMap Addrinfo.record).length 0
        (ai.flatMap Addrinfo.record) =
      (ai.take m, decide (m = ai.length)) := by
  have hparse : ∀ i < (ai.take m).length, ∀ k ∈ ai.take m, ∀ rest,
      unserializeAddrinfo (malloc (0 + i)) (k.record ++ rest) = some (k, rest) := by
    intro i hi k hk rest
    rw [Nat.zero_add, hsome i (by simp at hi; omega)]
    exact unserializeAddrinfo_record k rest (hai k (List.mem_of_mem_take hk))
  rcases Nat.lt_or_eq_of_le hm with hlt | rfl
  · have hrest : (ai.drop m).flatMap Addrinfo.record ≠ [] := by
      rw [List.drop_eq_getElem_cons hlt, List.flatMap_cons]
      exact fun h => Addrinfo.record_ne_nil _ (List.append_eq_nil_iff.mp h).1
    have hnull : unserializeAddrinfo (malloc (0 + (ai.take m).length))
        ((ai.drop m).flatMap Addrinfo.record) = none := by
      rw [Nat.zero_add, List.length_take, Nat.min_eq_left hm, hnone hlt]
      exact unserializeAddrinfo_false _
    have hstop := @readRecords_stops _ (fun k => unserializeAddrinfo (malloc k)) _ _
      Addrinfo.record_ne_nil 0 hparse _ hrest hnull
    rw [← List.flatMap_append, List.take_append_drop] at hstop
    rw [hstop, decide_eq_false (by omega)]
  · have hall := @readRecords_all _ (fun k => unserializeAddrinfo (malloc k)) _ _
      Addrinfo.record_ne_nil 0 hparse
    rw [List.take_length] at hall ⊢
    rw [hall, decide_eq_true rfl]

/-- How far a list of allocations gets. -/
theorem exists_firstFailure (malloc : Nat → Bool) (n : Nat) :
    ∃ m ≤ n, (∀ i < m, malloc i = true) ∧ (m < n → malloc m = false) := by
  induction n with
  | zero => exact ⟨0, Nat.le_refl 0, fun i hi => by omega, fun h => by omega⟩
  | succ n ih =>
      obtain ⟨m, hm, hsome, hnone⟩ := ih
      rcases Nat.lt_or_eq_of_le hm with hlt | rfl
      · exact ⟨m, by omega, hsome, fun _ => hnone hlt⟩
      · cases hlast : malloc m with
        | false => exact ⟨m, by omega, hsome, fun _ => hlast⟩
        | true =>
            refine ⟨m + 1, Nat.le_refl _, fun i hi => ?_, fun h => by omega⟩
            rcases Nat.lt_succ_iff_lt_or_eq.mp hi with hi | rfl
            · exact hsome i hi
            · exact hlast

theorem recordLength_le (start : Nat) {ai : List Addrinfo} {k : Addrinfo} (hk : k ∈ ai) :
    k.recordLength ≤ lengthAfter start ai ai.length := by
  obtain ⟨front, back, rfl⟩ := List.append_of_mem hk
  rw [lengthAfter, List.take_length, List.map_append, List.map_cons, List.sum_append,
    List.sum_cons]
  omega

/-- What the client makes of a list it is sent. -/
theorem receiveResponse_addrinfoReplyBytes (malloc : Nat → Bool) (id : UInt32) (status : Status)
    {ai : List Addrinfo} (hlength : replyLength ai ai.length ≤ bufsize) {m : Nat}
    (hm : m ≤ ai.length) (hsome : ∀ i < m, malloc i = true)
    (hnone : m < ai.length → malloc m = false) :
    receiveResponse malloc (addrinfoReplyBytes id status ai) .requestAddrinfo {} =
      some (true,
        { ret := if m = ai.length then status.ret else eaiMemory
          errno := status.errno, hErrno := status.hErrno, addrinfo := ai.take m }) := by
  have hai : ∀ k ∈ ai, k.recordLength ≤ bufsize := fun k hk =>
    Nat.le_trans (recordLength_le addrinfoResponse.size hk) hlength
  have hrecords := readRecords_records malloc ai hai hm hsome hnone
  have hsize : addrinfoResponse.size ≤ (addrinfoReplyBytes id status ai).length := by
    rw [length_addrinfoReplyBytes]
    exact lengthAfter_le _ _ (Nat.zero_le _)
  have htype : (rheader.read (addrinfoReplyBytes id status ai)).type =
      QueryType.responseAddrinfo.code := by
    rw [addrinfoReplyBytes, HasHeader.read_header]
  rw [receiveResponse, htype, QueryType.ofCode_code]
  simp only [hsize, and_self, if_true, receiveAddrinfo]
  rw [addrinfoReplyBytes, addrinfoResponse.read_write, addrinfoResponse.drop_write, hrecords]
  by_cases hempty : ai.take m = []
  · simp [hempty]
  · simp [hempty]

/-! ## Texts and answers -/

/-- A text is copied when it was sent and there is memory for it. -/
theorem copy_textBytes (ok : Bool) (text : Option CString) (rest : List UInt8)
    (h : textLength text ≤ bufsize) :
    (if UInt64.ofNat (textLength text) = 0 then none
      else if ok then
        some (strndup (textBytes text ++ rest)
          ((UInt64.ofNat (textLength text)).toNat - 1)).memory
      else none) =
      if ok then text.map (·.memory) else none := by
  have htoNat : (UInt64.ofNat (textLength text)).toNat = textLength text :=
    UInt64.toNat_ofNat_of_lt' (by rw [UInt64.size]; rw [bufsize] at h; omega)
  cases text with
  | none => cases ok <;> rfl
  | some s =>
      have hne : UInt64.ofNat (textLength (some s)) ≠ 0 := fun heq => by
        rw [heq, textLength] at htoNat
        exact absurd htoNat.symm (Nat.succ_ne_zero _)
      rw [if_neg hne, htoNat, textBytes, textLength, Nat.add_sub_cancel,
        s.strndup_memory rest (Nat.le_refl _)]
      rfl

theorem textLength_ne_zero (text : Option CString) (h : textLength text ≤ bufsize) :
    UInt64.ofNat (textLength text) ≠ 0 ↔ text.isSome := by
  cases text with
  | none => simp [textLength]
  | some s =>
      refine ⟨fun _ => rfl, fun _ heq => ?_⟩
      have htoNat := congrArg UInt64.toNat heq
      rw [UInt64.toNat_ofNat_of_lt' (by rw [UInt64.size]; rw [bufsize] at h; omega),
        textLength] at htoNat
      exact absurd htoNat (Nat.succ_ne_zero _)

theorem receiveResponse_nameinfo (malloc : Nat → Bool) (id : UInt32) (status : Status)
    (host serv : Option CString) (hhost : textLength host ≤ bufsize)
    (hserv : textLength serv ≤ bufsize) {d : List UInt8}
    (hd : sendNameinfoReply id status host serv = some d) :
    receiveResponse malloc d .requestNameinfo {} =
      some (true,
        { ret :=
            if (host.isSome ∧ !malloc 0) ∨ (serv.isSome ∧ !malloc 1) then eaiMemory
            else status.ret
          errno := status.errno, hErrno := status.hErrno
          host := if malloc 0 then host.map (·.memory) else none
          serv := if malloc 1 then serv.map (·.memory) else none }) := by
  rw [sendNameinfoReply] at hd
  simp only [Option.ite_none_left_eq_some, Option.some.injEq] at hd
  obtain ⟨-, rfl⟩ := hd
  have hhostlen : (UInt64.ofNat (textLength host)).toNat = textLength host :=
    UInt64.toNat_ofNat_of_lt' (by rw [UInt64.size]; rw [bufsize] at hhost; omega)
  rw [receiveResponse, HasHeader.read_header, QueryType.ofCode_code]
  simp only [List.length_append, Layout.length_write, Nat.le_add_right, and_self, if_true,
    receiveNameinfo, Layout.read_write, Layout.drop_write, Option.some.injEq, Prod.mk.injEq,
    true_and, Outcome.mk.injEq]
  refine ⟨?_, ?_, ?_⟩
  · simp only [textLength_ne_zero host hhost, textLength_ne_zero serv hserv]
  · exact copy_textBytes (malloc 0) host (textBytes serv) hhost
  · rw [hhostlen, List.drop_left' (length_textBytes host)]
    have h := copy_textBytes (malloc 1) serv [] hserv
    rwa [List.append_nil] at h

theorem receiveResponse_res (malloc : Nat → Bool) (id : UInt32) (status : Status)
    (answer : List UInt8) (type : QueryType)
    (htype : type = .requestResQuery ∨ type = .requestResSearch)
    (hanswer : answer.length = status.ret.toNatClampNeg) {d : List UInt8}
    (hd : sendResReply id status answer = some d) :
    receiveResponse malloc d type {} =
      some (true,
        if status.ret < 0 then { ret := status.ret, errno := status.errno, hErrno := status.hErrno }
        else if malloc 0 then
          { ret := status.ret, errno := status.errno, hErrno := status.hErrno, serv := some answer }
        else { ret := -1, errno := enomem, hErrno := status.hErrno }) := by
  rw [sendResReply] at hd
  simp only [Option.ite_none_left_eq_some, Option.some.injEq] at hd
  obtain ⟨-, rfl⟩ := hd
  rw [← hanswer, List.take_length, receiveResponse, HasHeader.read_header, QueryType.ofCode_code]
  simp only [List.length_append, Layout.length_write, Nat.le_add_right, htype, and_self, if_true,
    receiveRes, Layout.read_write, Layout.drop_write, ← hanswer, List.take_length]

/-! ## Results

A reply that fits the client's buffer says what it is a reply to, and the client
gets the result, or learns that there was no memory for all of it. -/

theorem header_addrinfoReplyBytes (id : UInt32) (status : Status) (ai : List Addrinfo) :
    headerOk (addrinfoReplyBytes id status ai) = true ∧
      (rheader.read (addrinfoReplyBytes id status ai)).id = id ∧
      QueryType.ofCode (rheader.read (addrinfoReplyBytes id status ai)).type =
        some .responseAddrinfo := by
  refine ⟨?_, ?_, ?_⟩
  · rw [addrinfoReplyBytes]
    refine headerOk_write _ _ ?_
    rw [replyLength, lengthAfter, List.take_length, length_records]
  · rw [addrinfoReplyBytes, HasHeader.read_header]
  · rw [addrinfoReplyBytes, HasHeader.read_header, QueryType.ofCode_code]

/-- The list of a lookup that succeeded: how many of its records are sent, when
the worker does not survive it, and what the client gets. -/
theorem sendAddrinfoReply_cases (id : UInt32) (status : Status) (ai : List Addrinfo)
    (hret : status.ret = 0) :
    ∃ j ≤ ai.length,
      (∀ i < j, replyLength ai i + replyLength ai (i + 1) ≤ bufsize) ∧
      (j < ai.length → bufsize < replyLength ai j + replyLength ai (j + 1)) ∧
      if j < ai.length ∧ bufsize < 2 * replyLength ai j then
        sendAddrinfoReply id status ai = none
      else
        ∃ d, sendAddrinfoReply id status ai = some d ∧ d.length = replyLength ai j ∧
          d.length ≤ bufsize ∧ headerOk d = true ∧ (rheader.read d).id = id ∧
          QueryType.ofCode (rheader.read d).type = some .responseAddrinfo ∧
          ∀ malloc m, m ≤ j → (∀ i < m, malloc i = true) → (m < j → malloc m = false) →
            receiveResponse malloc d .requestAddrinfo {} =
              some (true,
                { ret := if m = ai.length then 0 else eaiMemory
                  errno := status.errno, hErrno := status.hErrno, addrinfo := ai.take m }) := by
  obtain ⟨j, hj, hlow, hhigh, heq⟩ := sendAddrinfoReply_eq id status ai hret
  refine ⟨j, hj, hlow, hhigh, ?_⟩
  have hbound : replyLength ai j ≤ bufsize := by
    cases j with
    | zero => exact (by decide : addrinfoResponse.size ≤ bufsize)
    | succ j =>
        have h := hlow j (Nat.lt_succ_self j)
        omega
  by_cases hlast : j = ai.length
  · rw [if_neg (by omega), heq, if_pos hlast]
    have hheader := header_addrinfoReplyBytes id status ai
    refine ⟨_, rfl, ?_, ?_, hheader.1, hheader.2.1, hheader.2.2,
      fun malloc m hm hsome hnone => ?_⟩
    · rw [length_addrinfoReplyBytes, hlast]
    · rw [length_addrinfoReplyBytes, ← hlast]
      exact hbound
    · rw [receiveResponse_addrinfoReplyBytes malloc id status (hlast ▸ hbound) (hlast ▸ hm) hsome
        (hlast ▸ hnone), hret]
  · by_cases hhalf : 2 * replyLength ai j ≤ bufsize
    · rw [if_neg (by omega), heq, if_neg hlast, if_pos hhalf]
      have hheader := header_addrinfoReplyBytes id { status with ret := eaiMemory } (ai.take j)
      have hlength := length_addrinfoReplyBytes id { status with ret := eaiMemory } (ai.take j)
      rw [replyLength_take] at hlength
      refine ⟨_, rfl, hlength, by omega, hheader.1, hheader.2.1, hheader.2.2,
        fun malloc m hm hsome hnone => ?_⟩
      have hcut : (ai.take j).length = j := by
        rw [List.length_take]
        omega
      rw [receiveResponse_addrinfoReplyBytes malloc id _ (by rw [replyLength_take]; exact hbound)
        (by rw [hcut]; exact hm) hsome (by rw [hcut]; exact hnone), List.take_take,
        Nat.min_eq_left hm, if_neg (by omega : ¬m = ai.length)]
      simp
    · rw [if_pos (by omega), heq, if_neg hlast, if_neg hhalf]

/-- The datagram that carries an answer. -/
def resReplyBytes (id : UInt32) (status : Status) (answer : List UInt8) : List UInt8 :=
  resResponse.write
    { header :=
        { type := QueryType.responseRes.code, id
          length := .ofNat (resResponse.size + answer.length) }
      ret := status.ret, errno := status.errno, hErrno := status.hErrno } ++ answer

theorem length_resReplyBytes (id : UInt32) (status : Status) (answer : List UInt8) :
    (resReplyBytes id status answer).length = resResponse.size + answer.length := by
  rw [resReplyBytes, List.length_append, resResponse.length_write]

theorem sendResReply_eq (id : UInt32) (status : Status) (answer : List UInt8)
    (hanswer : answer.length = status.ret.toNatClampNeg) :
    sendResReply id status answer =
      if dataSize resResponse.size < resResponse.size + answer.length then none
      else some (resReplyBytes id status answer) := by
  rw [sendResReply, ← hanswer, List.take_length]
  rfl

/-- What the client relies on in a datagram: its own length, the query it is
for, and, whatever memory there is, an outcome that is the result of the call. -/
structure RepliesTo (id : UInt32) (call : Call) (result : LibcResult) (d : List UInt8) :
    Prop where
  header : headerOk d = true
  id_eq : (rheader.read d).id = id
  not_died : QueryType.ofCode (rheader.read d).type ≠ some .responseDied
  outcome : ∀ malloc, ∃ q, receiveResponse malloc d call.type {} = some (true, q) ∧
    (Delivers call.libc result q ∨ RanOut call.libc result q)

theorem repliesTo_addrinfo (id : UInt32) (node service : Option CString) (hints : Option Hints)
    (status : Status) (ai : List Addrinfo) {d : List UInt8}
    (hd : sendAddrinfoReply id status ai = some d) :
    RepliesTo id (.getaddrinfo node service hints) (.addrinfo status ai) d := by
  by_cases hret : status.ret = 0
  · obtain ⟨j, hj, -, -, hcases⟩ := sendAddrinfoReply_cases id status ai hret
    split at hcases
    · rw [hd] at hcases
      cases hcases
    · obtain ⟨d', hd', -, -, hheader, hid, htype, hreceive⟩ := hcases
      obtain rfl := Option.some.inj (hd.symm.trans hd')
      refine ⟨hheader, hid, by rw [htype]; simp, fun malloc => ?_⟩
      obtain ⟨m, hm, hsome, hnone⟩ := exists_firstFailure malloc j
      refine ⟨_, hreceive malloc m hm hsome hnone, ?_⟩
      by_cases hall : m = ai.length
      · left
        simp [Delivers, Call.libc, hall, hret]
      · right
        refine ⟨hret, ai.take m, List.take_prefix m ai, ?_⟩
        rw [if_neg hall]
  · rw [sendAddrinfoReply_of_failed id status ai hret, Option.some.injEq] at hd
    subst hd
    obtain ⟨hheader, hid, htype⟩ := header_addrinfoReplyBytes id status []
    refine ⟨hheader, hid, by rw [htype]; simp, fun malloc => ?_⟩
    refine ⟨_, receiveResponse_addrinfoReplyBytes malloc id status (by decide) (Nat.le_refl 0)
      (fun i hi => by omega) (fun h => by simp at h), Or.inl ?_⟩
    simp [Delivers, Call.libc, hret]

theorem textLength_le_of_buffer {p : Prop} [Decidable p] {s : CString} {n : Nat}
    (h : s.strlen < n) : textLength (if p then some s else none) ≤ n := by
  split
  · exact h
  · exact Nat.zero_le n

theorem header_of_sendNameinfoReply (id : UInt32) (status : Status) (host serv : Option CString)
    {d : List UInt8} (hd : sendNameinfoReply id status host serv = some d) :
    headerOk d = true ∧ (rheader.read d).id = id ∧
      QueryType.ofCode (rheader.read d).type = some .responseNameinfo := by
  rw [sendNameinfoReply] at hd
  simp only [Option.ite_none_left_eq_some, Option.some.injEq] at hd
  obtain ⟨-, rfl⟩ := hd
  refine ⟨headerOk_write _ _ ?_, ?_, ?_⟩
  · rw [List.length_append, length_textBytes, length_textBytes, Nat.add_assoc]
  · rw [HasHeader.read_header]
  · rw [HasHeader.read_header, QueryType.ofCode_code]

theorem repliesTo_nameinfo (id : UInt32) (sa : List UInt8) (flags gethost getserv : Int32)
    (status : Status) (hostbuf servbuf : CString) (hhost : hostbuf.strlen < 1025)
    (hserv : servbuf.strlen < 32) {d : List UInt8}
    (hd : sendReply id (Call.libc (.getnameinfo sa flags gethost getserv))
      (.nameinfo status hostbuf servbuf) = some d) :
    RepliesTo id (.getnameinfo sa flags gethost getserv) (.nameinfo status hostbuf servbuf) d := by
  obtain ⟨host, serv, hnames⟩ : ∃ host serv,
      namesOf status (gethost ≠ 0) (getserv ≠ 0) hostbuf servbuf = (host, serv) := ⟨_, _, rfl⟩
  simp only [namesOf, Prod.mk.injEq] at hnames
  have hsend : sendNameinfoReply id status host serv = some d := by
    rw [← hnames.1, ← hnames.2]
    exact hd
  have hhostlen : textLength host ≤ bufsize := by
    rw [← hnames.1]
    exact Nat.le_trans (textLength_le_of_buffer hhost) (by decide)
  have hservlen : textLength serv ≤ bufsize := by
    rw [← hnames.2]
    exact Nat.le_trans (textLength_le_of_buffer hserv) (by decide)
  obtain ⟨hheader, hid, htype⟩ := header_of_sendNameinfoReply id status host serv hsend
  refine ⟨hheader, hid, by rw [htype]; simp, fun malloc => ?_⟩
  refine ⟨_, receiveResponse_nameinfo malloc id status host serv hhostlen hservlen hsend, ?_⟩
  by_cases hfailed : (host.isSome ∧ !malloc 0) ∨ (serv.isSome ∧ !malloc 1)
  · right
    refine ⟨malloc 0, malloc 1, ?_⟩
    rw [if_pos hfailed]
    simp only [namesOf, hnames.1, hnames.2]
  · left
    -- memory that was not to be had was not needed
    have hkeep : ∀ (ok : Bool) (text : Option CString), ¬(text.isSome ∧ !ok) →
        (if ok then text.map (·.memory) else none) = text.map (·.memory) := by
      intro ok text h
      cases ok with
      | true => rfl
      | false =>
          cases text with
          | none => rfl
          | some s => simp at h
    rw [not_or] at hfailed
    rw [if_neg (not_or.mpr hfailed)]
    simp only [Delivers, Call.libc, namesOf, hnames.1, hnames.2, hkeep _ _ hfailed.1,
      hkeep _ _ hfailed.2]

theorem repliesTo_res (id : UInt32) (call : Call) (dname : CString) (cls type : Int32)
    (hcall : call = .resQuery dname cls type ∨ call = .resSearch dname cls type)
    (status : Status) (answer : List UInt8) (hanswer : answer.length = status.ret.toNatClampNeg)
    {d : List UInt8} (hd : sendResReply id status answer = some d) :
    RepliesTo id call (.res status answer) d := by
  have htype : call.type = .requestResQuery ∨ call.type = .requestResSearch := by
    rcases hcall with rfl | rfl
    · exact Or.inl rfl
    · exact Or.inr rfl
  have hbytes := sendResReply_eq id status answer hanswer
  rw [hd] at hbytes
  simp only [Option.some_eq_ite_none_left, Option.some.injEq] at hbytes
  obtain ⟨-, hbytes⟩ := hbytes
  refine ⟨?_, ?_, ?_, fun malloc => ?_⟩
  · rw [hbytes]
    exact headerOk_write _ _ rfl
  · rw [hbytes, resReplyBytes, HasHeader.read_header]
  · rw [hbytes, resReplyBytes, HasHeader.read_header, QueryType.ofCode_code]
    simp
  · refine ⟨_, receiveResponse_res malloc id status answer call.type htype hanswer hd, ?_⟩
    by_cases hneg : status.ret < 0
    · left
      rcases hcall with rfl | rfl
      · simp [Delivers, Call.libc, hneg]
      · simp [Delivers, Call.libc, hneg]
    · cases hmalloc : malloc 0 with
      | true =>
          left
          rcases hcall with rfl | rfl
          · simp [Delivers, Call.libc, hneg]
          · simp [Delivers, Call.libc, hneg]
      | false =>
          right
          rcases hcall with rfl | rfl
          · simp [RanOut, Call.libc, hneg]
          · simp [RanOut, Call.libc, hneg]

/-- The reply to a call, when one is sent. -/
theorem repliesTo_of_sendReply (id : UInt32) (call : Call) (result : LibcResult)
    {d : List UInt8} (hfits : result.fits call.libc = true)
    (hd : sendReply id call.libc result = some d) : RepliesTo id call result d := by
  cases call with
  | getaddrinfo node service hints =>
      cases result with
      | addrinfo status ai => exact repliesTo_addrinfo id node service hints status ai hd
      | nameinfo => cases hfits
      | res => cases hfits
  | getnameinfo sa flags gethost getserv =>
      cases result with
      | addrinfo => cases hfits
      | nameinfo status hostbuf servbuf =>
          simp only [Call.libc, LibcResult.fits, Bool.and_eq_true, decide_eq_true_eq] at hfits
          exact repliesTo_nameinfo id sa flags gethost getserv status hostbuf servbuf hfits.1
            hfits.2 hd
      | res => cases hfits
  | resQuery dname cls type =>
      cases result with
      | addrinfo => cases hfits
      | nameinfo => cases hfits
      | res status answer =>
          simp only [Call.libc, LibcResult.fits, decide_eq_true_eq] at hfits
          exact repliesTo_res id _ dname cls type (Or.inl rfl) status answer hfits hd
  | resSearch dname cls type =>
      cases result with
      | addrinfo => cases hfits
      | nameinfo => cases hfits
      | res status answer =>
          simp only [Call.libc, LibcResult.fits, decide_eq_true_eq] at hfits
          exact repliesTo_res id _ dname cls type (Or.inr rfl) status answer hfits hd

/-! ## Room

Only the answer of a name server can be more than the client has room for. -/

/-- The results the client has room for. -/
def LibcResult.short : LibcResult → Bool
  | .res _ answer => resResponse.size + answer.length ≤ recvSize
  | _ => true

theorem length_sendAddrinfoReply_le (id : UInt32) (status : Status) (ai : List Addrinfo)
    {d : List UInt8} (hd : sendAddrinfoReply id status ai = some d) : d.length ≤ bufsize := by
  by_cases hret : status.ret = 0
  · obtain ⟨j, -, -, -, hcases⟩ := sendAddrinfoReply_cases id status ai hret
    split at hcases
    · rw [hd] at hcases
      cases hcases
    · obtain ⟨d', hd', -, hlength, -⟩ := hcases
      obtain rfl := Option.some.inj (hd.symm.trans hd')
      exact hlength
  · rw [sendAddrinfoReply_of_failed id status ai hret, Option.some.injEq] at hd
    rw [← hd, length_addrinfoReplyBytes]
    decide

theorem length_sendNameinfoReply (id : UInt32) (status : Status) (host serv : Option CString)
    {d : List UInt8} (hd : sendNameinfoReply id status host serv = some d) :
    d.length = nameinfoResponse.size + textLength host + textLength serv := by
  rw [sendNameinfoReply] at hd
  simp only [Option.ite_none_left_eq_some, Option.some.injEq] at hd
  obtain ⟨-, rfl⟩ := hd
  rw [List.length_append, List.length_append, Layout.length_write, length_textBytes,
    length_textBytes, Nat.add_assoc]

theorem length_sendReply_le (id : UInt32) {c : LibcCall} {result : LibcResult} {d : List UInt8}
    (hfits : result.fits c = true) (hshort : result.short = true)
    (hd : sendReply id c result = some d) : d.length ≤ recvSize := by
  have hres : ∀ status answer, LibcResult.short (.res status answer) = true →
      answer.length = status.ret.toNatClampNeg → sendResReply id status answer = some d →
      d.length ≤ recvSize := by
    intro status answer hshort hanswer hd
    rw [sendResReply_eq id status answer hanswer] at hd
    simp only [Option.ite_none_left_eq_some, Option.some.injEq] at hd
    rw [← hd.2, length_resReplyBytes]
    simpa [LibcResult.short] using hshort
  cases c with
  | getaddrinfo node service hints =>
      cases result with
      | addrinfo status ai =>
          exact Nat.le_trans (length_sendAddrinfoReply_le id status ai hd) (by decide)
      | nameinfo => cases hfits
      | res => cases hfits
  | getnameinfo sa host serv flags =>
      cases result with
      | addrinfo => cases hfits
      | nameinfo status hostbuf servbuf =>
          simp only [LibcResult.fits, Bool.and_eq_true, decide_eq_true_eq] at hfits
          have hhost : textLength (if status.ret = 0 ∧ host then some hostbuf else none) ≤ 1025 :=
            textLength_le_of_buffer hfits.1
          have hserv : textLength (if status.ret = 0 ∧ serv then some servbuf else none) ≤ 32 :=
            textLength_le_of_buffer hfits.2
          have hroom : nameinfoResponse.size + 1025 + 32 ≤ recvSize := by decide
          rw [length_sendNameinfoReply id status _ _ hd]
          omega
      | res => cases hfits
  | resQuery dname cls type =>
      cases result with
      | addrinfo => cases hfits
      | nameinfo => cases hfits
      | res status answer =>
          exact hres status answer hshort (by simpa [LibcResult.fits] using hfits) hd
  | resSearch dname cls type =>
      cases result with
      | addrinfo => cases hfits
      | nameinfo => cases hfits
      | res status answer =>
          exact hres status answer hshort (by simpa [LibcResult.fits] using hfits) hd

end LmTransport.Ref.Libasyncns
