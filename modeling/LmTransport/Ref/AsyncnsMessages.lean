import LmTransport.Ref.AsyncnsWire

/-!
# The messages of `asyncns.c`

A call goes to a worker as a request, the worker hands it to the C library and
sends back what that gave. This file is both ends of both directions: how a call
is written and read, and how a result is.

An assertion that fails ends the process it is in. `none` stands for that here,
and on the worker's side for a text or an address that does not fit the buffer
it is copied from or to.
-/

namespace LmTransport.Ref.Libasyncns

/-- `EAI_MEMORY`. -/
def eaiMemory : Int32 := -10

/-- `ENOMEM`. -/
def enomem : Int32 := 12

/-- The bytes of an array of structures of this size that is declared with
`BUFSIZE / size + 1` elements, as every buffer for a message is. -/
def dataSize (size : Nat) : Nat := (bufsize / size + 1) * size

/-- What `recv` has room for, on both sides. -/
def recvSize : Nat := dataSize rheader.size

/-- `sizeof (struct sockaddr_storage)`. -/
def sizeofSockaddrStorage : Nat := 128

/-! ## Calls -/

/-- The members of `hints` that are sent. -/
structure Hints where
  aiFlags : Int32
  aiFamily : Int32
  aiSocktype : Int32
  aiProtocol : Int32
deriving DecidableEq, Repr

/-- A call of the client: `asyncns_getaddrinfo`, `asyncns_getnameinfo`,
`asyncns_res_query` or `asyncns_res_search` with its arguments. -/
inductive Call where
  | getaddrinfo (node service : Option CString) (hints : Option Hints)
  | getnameinfo (sa : List UInt8) (flags gethost getserv : Int32)
  | resQuery (dname : CString) (cls type : Int32)
  | resSearch (dname : CString) (cls type : Int32)
deriving DecidableEq, Repr

/-- A call of the C library. Of the two buffers of `getnameinfo` each may be
`NULL`. -/
inductive LibcCall where
  | getaddrinfo (node service : Option CString) (hints : Option Hints)
  | getnameinfo (sa : List UInt8) (host serv : Bool) (flags : Int32)
  | resQuery (dname : CString) (cls type : Int32)
  | resSearch (dname : CString) (cls type : Int32)
deriving DecidableEq, Repr

def Call.type : Call → QueryType
  | .getaddrinfo .. => .requestAddrinfo
  | .getnameinfo .. => .requestNameinfo
  | .resQuery .. => .requestResQuery
  | .resSearch .. => .requestResSearch

/-! ## Requests -/

/-- `req->header.length` in `asyncns_getaddrinfo`. -/
def addrinfoRequestLength (node service : Option CString) : Nat :=
  addrinfoRequest.size + textLength node + textLength service

/-- `asyncns_getaddrinfo` fills `data`. What it does not set is zero. -/
def addrinfoRequestBytes (id : UInt32) (node service : Option CString) (hints : Option Hints) :
    List UInt8 :=
  addrinfoRequest.write
    { header :=
        { type := QueryType.requestAddrinfo.code, id,
          length := .ofNat (addrinfoRequestLength node service) }
      hintsIsNull := if hints.isNone then 1 else 0
      aiFlags := (hints.map (·.aiFlags)).getD 0
      aiFamily := (hints.map (·.aiFamily)).getD 0
      aiSocktype := (hints.map (·.aiSocktype)).getD 0
      aiProtocol := (hints.map (·.aiProtocol)).getD 0
      nodeLen := .ofNat (textLength node)
      serviceLen := .ofNat (textLength service) } ++
    (textBytes node ++ textBytes service)

def nameinfoRequestLength (sa : List UInt8) : Nat := nameinfoRequest.size + sa.length

/-- `asyncns_getnameinfo` fills `data`. `salen` is the length of `sa`. -/
def nameinfoRequestBytes (id : UInt32) (sa : List UInt8) (flags gethost getserv : Int32) :
    List UInt8 :=
  nameinfoRequest.write
    { header :=
        { type := QueryType.requestNameinfo.code, id, length := .ofNat (nameinfoRequestLength sa) }
      flags, sockaddrLen := .ofNat sa.length, gethost, getserv } ++ sa

def resRequestLength (dname : CString) : Nat := resRequest.size + (dname.strlen + 1)

/-- `asyncns_res` fills `data`. -/
def resRequestBytes (qtype : QueryType) (id : UInt32) (dname : CString) (cls type : Int32) :
    List UInt8 :=
  resRequest.write
    { header := { type := qtype.code, id, length := .ofNat (resRequestLength dname) }
      cls, type, dnameLen := .ofNat (dname.strlen + 1) } ++ dname.memory

/-- The length a request for the call would have. -/
def Call.length : Call → Nat
  | .getaddrinfo node service _ => addrinfoRequestLength node service
  | .getnameinfo sa _ _ _ => nameinfoRequestLength sa
  | .resQuery dname _ _ | .resSearch dname _ _ => resRequestLength dname

/-- The request for the call, in a query with this id. -/
def Call.bytes (id : UInt32) : Call → List UInt8
  | .getaddrinfo node service hints => addrinfoRequestBytes id node service hints
  | .getnameinfo sa flags gethost getserv => nameinfoRequestBytes id sa flags gethost getserv
  | .resQuery dname cls type => resRequestBytes .requestResQuery id dname cls type
  | .resSearch dname cls type => resRequestBytes .requestResSearch id dname cls type

/-! ## `handle_request` -/

/-- What a worker does with a datagram: a failed assertion, an overrun of some
memory, the return values `0` and `-1` without a reply, and a call of the C
library whose result goes back under an id. -/
inductive Handled where
  | aborts
  | overruns
  | ignores
  | terminates
  | calls (id : UInt32) (call : LibcCall)
deriving DecidableEq, Repr

/-- `len ? p : NULL`, where `p` is a text in the datagram. The outer `none` is a
text that runs past the end. -/
def optionalText (len : UInt64) (memory : List UInt8) : Option (Option CString) :=
  if len = 0 then some none else (textAt memory).map some

def handleAddrinfoRequest (datagram : List UInt8) : Handled :=
  let req := addrinfoRequest.read datagram
  if datagram.length < addrinfoRequest.size then .aborts
  else if UInt64.ofNat datagram.length ≠
      .ofNat addrinfoRequest.size + req.nodeLen + req.serviceLen then .aborts
  else
    let payload := datagram.drop addrinfoRequest.size
    match optionalText req.nodeLen payload,
        optionalText req.serviceLen (payload.drop req.nodeLen.toNat) with
    | some node, some service =>
        .calls req.header.id <| .getaddrinfo node service <|
          if req.hintsIsNull ≠ 0 then none
          else some ⟨req.aiFlags, req.aiFamily, req.aiSocktype, req.aiProtocol⟩
    | _, _ => .overruns

/-- The address is copied into a `struct sockaddr_storage`. -/
def handleNameinfoRequest (datagram : List UInt8) : Handled :=
  let req := nameinfoRequest.read datagram
  if datagram.length < nameinfoRequest.size then .aborts
  else if UInt64.ofNat datagram.length ≠
      .ofNat nameinfoRequest.size + req.sockaddrLen.toUInt64 then .aborts
  else if sizeofSockaddrStorage < req.sockaddrLen.toNat then .overruns
  else
    .calls req.header.id <| .getnameinfo
      ((datagram.drop nameinfoRequest.size).take req.sockaddrLen.toNat)
      (req.gethost ≠ 0) (req.getserv ≠ 0) req.flags

def handleResRequest (search : Bool) (datagram : List UInt8) : Handled :=
  let req := resRequest.read datagram
  if datagram.length < resRequest.size then .aborts
  else if UInt64.ofNat datagram.length ≠ .ofNat resRequest.size + req.dnameLen then .aborts
  else
    match textAt (datagram.drop resRequest.size) with
    | none => .overruns
    | some dname =>
        .calls req.header.id <|
          if search then .resSearch dname req.cls req.type else .resQuery dname req.cls req.type

/-- The assertions both `handle_request` and `handle_response` begin with. -/
def headerOk (datagram : List UInt8) : Bool :=
  rheader.size ≤ datagram.length && UInt64.ofNat datagram.length = (rheader.read datagram).length

/-- `handle_request`, up to the call of the C library. -/
def handleRequest (datagram : List UInt8) : Handled :=
  if !headerOk datagram then .aborts
  else
    match QueryType.ofCode (rheader.read datagram).type with
    | some .requestAddrinfo => handleAddrinfoRequest datagram
    | some .requestNameinfo => handleNameinfoRequest datagram
    | some .requestResQuery => handleResRequest false datagram
    | some .requestResSearch => handleResRequest true datagram
    | some .requestTerminate => .terminates
    | _ => .ignores

/-- `send_died`. -/
def diedBytes : List UInt8 :=
  rheader.write { type := QueryType.responseDied.code, id := 0, length := .ofNat rheader.size }

/-! ## Replies -/

/-- What every result has: the return value, `errno` and `h_errno`. -/
structure Status where
  ret : Int32
  errno : Int32
  hErrno : Int32
deriving DecidableEq, Repr

/-- One node of a `getaddrinfo` result, without its `ai_next`. `ai_addrlen` is
the length of `addr`. -/
structure Addrinfo where
  aiFlags : Int32
  aiFamily : Int32
  aiSocktype : Int32
  aiProtocol : Int32
  addr : List UInt8
  canonname : Option CString
deriving DecidableEq, Repr

/-- What the C library gives: a list, the texts in the two buffers, or an
answer. -/
inductive LibcResult where
  | addrinfo (status : Status) (result : List Addrinfo)
  | nameinfo (status : Status) (hostbuf servbuf : CString)
  | res (status : Status) (answer : List UInt8)
deriving DecidableEq, Repr

/-- A result the call can have. The buffers of `getnameinfo` have `NI_MAXHOST`
and `NI_MAXSERV` bytes, and the return value of a resolver call that succeeds is
the length of the answer. -/
def LibcResult.fits : LibcResult → LibcCall → Bool
  | .addrinfo .., .getaddrinfo .. => true
  | .nameinfo _ hostbuf servbuf, .getnameinfo .. => hostbuf.strlen < 1025 && servbuf.strlen < 32
  | .res status answer, .resQuery .. | .res status answer, .resSearch .. =>
      answer.length = status.ret.toNatClampNeg
  | _, _ => false

/-- `serialize_addrinfo`: a failed assertion, `NULL`, or the bytes it writes. -/
inductive Serialized where
  | aborts
  | null
  | record (bytes : List UInt8)

def Addrinfo.record (ai : Addrinfo) : List UInt8 :=
  addrinfoSerialization.write
    { aiFlags := ai.aiFlags, aiFamily := ai.aiFamily, aiSocktype := ai.aiSocktype,
      aiProtocol := ai.aiProtocol, aiAddrlen := .ofNat ai.addr.length,
      canonnameLen := .ofNat (textLength ai.canonname) } ++ (ai.addr ++ textBytes ai.canonname)

/-- `l` of `serialize_addrinfo`. -/
def Addrinfo.recordLength (ai : Addrinfo) : Nat :=
  addrinfoSerialization.size + ai.addr.length + textLength ai.canonname

def serializeAddrinfo (ai : Addrinfo) (length maxlength : Nat) : Serialized :=
  if maxlength < length then .aborts
  else if maxlength < length + ai.recordLength then .null
  else .record ai.record

/-- The loop of `send_addrinfo_reply`. `p` is the offset into `data` and
`length` is `resp->header.length`. It gives what was written from `p` on, with the
length and the `ret` that are sent. -/
def serializeAddrinfos (p length : Nat) (ret : Int32) :
    List Addrinfo → Option (List UInt8 × Nat × Int32)
  | [] => some ([], length, ret)
  | k :: ks =>
      match serializeAddrinfo k length (bufsize - p) with
      | .aborts => none
      | .null => some ([], length, eaiMemory)
      | .record bytes =>
          (serializeAddrinfos (p + bytes.length) (length + k.recordLength) ret ks).map
            fun rest => (bytes ++ rest.1, rest.2)

/-- `send_addrinfo_reply`. The datagram has `resp->header.length` bytes. -/
def sendAddrinfoReply (id : UInt32) (status : Status) (ai : List Addrinfo) :
    Option (List UInt8) :=
  let size := addrinfoResponse.size
  (serializeAddrinfos size size status.ret (if status.ret = 0 then ai else [])).map fun data =>
    let (records, length, ret) := data
    (addrinfoResponse.write
      { header := { type := QueryType.responseAddrinfo.code, id, length := .ofNat length }
        ret, errno := status.errno, hErrno := status.hErrno } ++ records).take length

/-- `send_nameinfo_reply`. -/
def sendNameinfoReply (id : UInt32) (status : Status) (host serv : Option CString) :
    Option (List UInt8) :=
  let length := nameinfoResponse.size + textLength host + textLength serv
  if dataSize nameinfoResponse.size < length then none
  else some <|
    nameinfoResponse.write
      { header := { type := QueryType.responseNameinfo.code, id, length := .ofNat length }
        hostlen := .ofNat (textLength host), servlen := .ofNat (textLength serv)
        ret := status.ret, errno := status.errno, hErrno := status.hErrno } ++
      (textBytes host ++ textBytes serv)

/-- `send_res_reply`. -/
def sendResReply (id : UInt32) (status : Status) (answer : List UInt8) : Option (List UInt8) :=
  let length := resResponse.size + status.ret.toNatClampNeg
  if dataSize resResponse.size < length then none
  else some <|
    resResponse.write
      { header := { type := QueryType.responseRes.code, id, length := .ofNat length }
        ret := status.ret, errno := status.errno, hErrno := status.hErrno } ++
      answer.take status.ret.toNatClampNeg

/-- `handle_request`, after the call of the C library. A call has a result of
its own kind. -/
def sendReply (id : UInt32) : LibcCall → LibcResult → Option (List UInt8)
  | .getaddrinfo .., .addrinfo status result => sendAddrinfoReply id status result
  | .getnameinfo _ host serv _, .nameinfo status hostbuf servbuf =>
      sendNameinfoReply id status
        (if status.ret = 0 ∧ host then some hostbuf else none)
        (if status.ret = 0 ∧ serv then some servbuf else none)
  | .resQuery .., .res status answer | .resSearch .., .res status answer =>
      sendResReply id status answer
  | _, _ => none

/-! ## Reading a reply

`malloc` says of each allocation in turn whether it succeeds. -/

/-- What `handle_response` stores in the query: the status, the list, and the
memory at `host` and `serv`. -/
structure Outcome where
  ret : Int32 := 0
  errno : Int32 := 0
  hErrno : Int32 := 0
  addrinfo : List Addrinfo := []
  host : Option (List UInt8) := none
  serv : Option (List UInt8) := none
deriving DecidableEq, Repr

/-- `unserialize_addrinfo`. `malloc` is whether all the memory of the node can
be had; what there is of it is freed again otherwise. The lengths are added as
`size_t`. -/
def unserializeAddrinfo (malloc : Bool) (p : List UInt8) : Option (Addrinfo × List UInt8) :=
  let s := addrinfoSerialization.read p
  let l := UInt64.ofNat addrinfoSerialization.size + s.aiAddrlen + s.canonnameLen
  let payload := p.drop addrinfoSerialization.size
  if p.length < addrinfoSerialization.size then none
  else if p.length < l.toNat then none
  else if !malloc then none
  else some
    ({ aiFlags := s.aiFlags, aiFamily := s.aiFamily, aiSocktype := s.aiSocktype,
       aiProtocol := s.aiProtocol, addr := payload.take s.aiAddrlen.toNat
       canonname :=
        if s.canonnameLen = 0 then none
        else some (strndup (payload.drop s.aiAddrlen.toNat) s.canonnameLen.toNat) },
      p.drop l.toNat)

/-- `case RESPONSE_ADDRINFO:`. A list that is cut short is kept. -/
def receiveAddrinfo (malloc : Nat → Bool) (datagram : List UInt8) (q : Outcome) : Outcome :=
  let resp := addrinfoResponse.read datagram
  let p := datagram.drop addrinfoResponse.size
  let (list, complete) := readRecords (fun k => unserializeAddrinfo (malloc k)) p.length 0 p
  { q with
    ret := if complete then resp.ret else eaiMemory
    errno := resp.errno, hErrno := resp.hErrno
    addrinfo := if list.isEmpty then q.addrinfo else list }

/-- `case RESPONSE_NAMEINFO:`. -/
def receiveNameinfo (malloc : Nat → Bool) (datagram : List UInt8) (q : Outcome) : Outcome :=
  let resp := nameinfoResponse.read datagram
  let p := datagram.drop nameinfoResponse.size
  let copy (ok : Bool) (len : UInt64) (p : List UInt8) (old : Option (List UInt8)) :=
    if len = 0 then old
    else if ok then some (strndup p (len.toNat - 1)).memory
    else none
  let failed := (resp.hostlen ≠ 0 ∧ !malloc 0) ∨ (resp.servlen ≠ 0 ∧ !malloc 1)
  { q with
    ret := if failed then eaiMemory else resp.ret
    errno := resp.errno, hErrno := resp.hErrno
    host := copy (malloc 0) resp.hostlen p q.host
    serv := copy (malloc 1) resp.servlen (p.drop resp.hostlen.toNat) q.serv }

/-- `case RESPONSE_RES:`. -/
def receiveRes (malloc : Nat → Bool) (datagram : List UInt8) (q : Outcome) : Outcome :=
  let resp := resResponse.read datagram
  let q := { q with ret := resp.ret, errno := resp.errno, hErrno := resp.hErrno }
  if resp.ret < 0 then q
  else if malloc 0 then
    { q with serv := some ((datagram.drop resResponse.size).take resp.ret.toNatClampNeg) }
  else { q with ret := -1, errno := enomem, serv := none }

/-- The `switch` of `handle_response`, for a response to a query of this type.
`none` is a failed assertion. The first component is whether the query is
complete. -/
def receiveResponse (malloc : Nat → Bool) (datagram : List UInt8) (type : QueryType)
    (q : Outcome) : Option (Bool × Outcome) :=
  match QueryType.ofCode (rheader.read datagram).type with
  | some .responseAddrinfo =>
      if addrinfoResponse.size ≤ datagram.length ∧ type = .requestAddrinfo then
        some (true, receiveAddrinfo malloc datagram q)
      else none
  | some .responseNameinfo =>
      if nameinfoResponse.size ≤ datagram.length ∧ type = .requestNameinfo then
        some (true, receiveNameinfo malloc datagram q)
      else none
  | some .responseRes =>
      if resResponse.size ≤ datagram.length ∧
          (type = .requestResQuery ∨ type = .requestResSearch) then
        some (true, receiveRes malloc datagram q)
      else none
  | _ => some (false, q)

end LmTransport.Ref.Libasyncns
