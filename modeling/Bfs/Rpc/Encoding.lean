import Bfs.Device.PacketBuffer
import Bfs.Server.Answered

/-! Requests and replies in flexible buffers: the fields that one side puts before the data, one by one, are
those that the other side takes off. -/
namespace Bfs.Rpc
open ByteSeq Fallible LittleEndian
open Bfs.Device (DevErr)
open Bfs.Device.PacketBuffer (addFields addFields_of_room)
open Bfs.Server Bfs.Utils

section Requests

/-- How the client fails before it has a message: an assertion or an allocation of a negative size, which
end the process, or the buffer. -/
inductive EncodeErr
  | assertion
  | badAlloc
  | flex (e : FlexErr)

/-- The fields of a call before the operation and the message type, in the order of `<<`. -/
def Request.lead : Request → List (List UInt8)
  | .getattr path => [u32 (pathLen path)]
  | .mkdir path mode => [u32 (pathLen path), u32 mode]
  | .unlink path => [u32 (pathLen path)]
  | .rmdir path => [u32 (pathLen path)]
  | .rename frPath toPath => [u32 (pathLen toPath), u32 (pathLen frPath)]
  | .openFile path => [u32 (pathLen path)]
  | .read fh size off => [u64 off, u64 size, u64 fh]
  | .write fh size off _ => [u64 off, u64 size, u64 fh]
  | .release fh => [u64 fh]
  | .fsync fh datasync => [u32 datasync, u64 fh]
  | .opendir path => [u32 (pathLen path)]
  | .readdir fh => [u64 fh]
  | .init => []
  | .initMkfs => []
  | .destroy => []
  | .create path mode => [u32 (pathLen path), u32 mode]
  | .chmod path mode => [u32 (pathLen path), u32 mode]
  | .truncate path fh len => [u32 (pathLen path), u32 len, u64 fh]

/-- The data of a call, for `setData`. -/
def Request.data : Request → List UInt8
  | .getattr path => path ++ [0]
  | .mkdir path _ => path ++ [0]
  | .unlink path => path ++ [0]
  | .rmdir path => path ++ [0]
  | .rename frPath toPath => (frPath ++ [0]) ++ (toPath ++ [0])
  | .openFile path => path ++ [0]
  | .write _ _ _ data => data
  | .opendir path => path ++ [0]
  | .create path _ => path ++ [0]
  | .chmod path _ => path ++ [0]
  | .truncate path _ _ => path ++ [0]
  | _ => []

def Request.asserted : Request → Option UInt64
  | .read fh _ _ => some fh
  | .write fh _ _ _ => some fh
  | .release fh => some fh
  | .fsync fh _ => some fh
  | .readdir fh => some fh
  | .truncate _ fh _ => some fh
  | _ => none

/-- `START_FD` in the assertions of the client. -/
def leastFd : UInt64 := 3

def Request.combined : Request → ℕ
  | .rename frPath toPath => frPath.length + 1 + (toPath.length + 1)
  | _ => 0

def message (total : UInt32) (data : List UInt8) (fields : List (List UInt8)) :
    Except FlexErr FlexData := do
  let spkt ← FlexData.new.resetWithAlloc (UInt32.ofNat data.length) 0 total 0
  let spkt ← spkt.setData data
  addFields spkt fields

/-- `total_send_msg_len`: the sizes of the fields. -/
def fieldsLen (fields : List (List UInt8)) : UInt32 := UInt32.ofNat fields.flatten.length

def Request.fields (req : Request) : List (List UInt8) :=
  req.lead ++ [u32 req.op.code, u32 MsgType.toServer.code]

def Request.encode (req : Request) : Except EncodeErr FlexData :=
  if ∃ fh ∈ req.asserted, fh < leastFd then .error .assertion
  else if 2^31 ≤ req.combined then .error .badAlloc
  else (message (fieldsLen req.fields) req.data req.fields).mapError .flex

lemma Request.fields_data (req : Request) : req.fields.reverse.flatten ++ req.data = req.bytes := by
  cases req <;>
    simp [Request.fields, Request.lead, Request.data, Request.bytes, Request.body, Request.op, header,
      pathField]

lemma holds_setData_same {d : FlexData} {xs dat : List UInt8} (h : d.Holds xs)
    (hlen : dat.length = xs.length) :
    ∃ d', d.setData dat = .ok d' ∧ d'.layout = d.layout ∧ d'.Holds dat := by
  have hlt := d.layout.length.toNat_lt
  have hlength : UInt32.ofNat dat.length = d.layout.length := by
    apply UInt32.toNat.inj
    rw [UInt32.toNat_ofNat', hlen, h.length, Nat.mod_eq_of_lt hlt]
  obtain ⟨d', hput, hlayout, hholds⟩ := FlexData.holds_overwrite h hlen
  refine ⟨d', ?_, hlayout, hholds⟩
  have hsame : d'.withLayout { d'.layout with length := d.layout.length } = d' := by
    rw [hlayout, FlexData.withLayout, ← hlayout]
  rw [FlexData.overwrite] at hput
  simp only [FlexData.setData, hlength, ne_eq, not_true_eq_false, if_false, ok_bind, hput, hsame]

theorem holds_message {data : List UInt8} {fields : List (List UInt8)}
    (hfits : fields.flatten.length + data.length < 2^32) :
    ∃ d, message (fieldsLen fields) data fields = .ok d ∧
      d.Holds (fields.reverse.flatten ++ data) := by
  have htotal : (fieldsLen fields).toNat = fields.flatten.length :=
    FlexData.toNat_dataLen (by omega)
  have hlen := FlexData.toNat_dataLen (by omega : data.length < 2^32)
  have hroom : FlexBuf.Fits (fieldsLen fields) (UInt32.ofNat data.length) 0 := by
    unfold FlexBuf.Fits
    rw [htotal, hlen]
    exact hfits
  have hcopy : FlexBuf.new.Copies (fieldsLen fields) (UInt32.ofNat data.length) 0 :=
    .inr (Nat.zero_le _)
  obtain ⟨d₁, hreset, hlayout, hholds⟩ := FlexData.holds_resetWithAlloc FlexData.holds_new 0 hroom hcopy
  obtain ⟨hlaid, -⟩ := FlexBuf.laidOut_resetWithAlloc_of_copies FlexBuf.exact_new hroom hcopy
  obtain ⟨d₂, hset, hlayout₂, hholds₂⟩ := holds_setData_same hholds (by
    rw [List.length_replicate, hlen] : data.length =
      (List.replicate (UInt32.ofNat data.length).toNat (0 : UInt8)).length)
  have hroom₂ : fields.flatten.length ≤ d₂.layout.hlength.toNat := by
    rw [hlayout₂, hlayout, ← htotal, ← UInt32.le_iff_toNat_le]
    exact hlaid.hlength
  obtain ⟨d, hadd, hholds', -, -⟩ := addFields_of_room hholds₂ hroom₂
  refine ⟨d, ?_, hholds'⟩
  rw [message, hreset, ok_bind, hset, ok_bind, hadd]

/-- A call that the client can make: its paths are strings, its handle is one, and all of it fits into a
message. -/
structure Request.Encodable (req : Request) : Prop where
  wellFormed : WellFormed req
  handle : ∀ fh ∈ req.asserted, leastFd ≤ fh
  combined : req.combined < 2^31
  size : req.fields.flatten.length + req.data.length < 2^32

theorem Request.holds_encode {req : Request} (h : req.Encodable) :
    ∃ d, req.encode = .ok d ∧ d.Holds req.bytes := by
  obtain ⟨d, hmessage, hholds⟩ := holds_message h.size
  rw [req.fields_data] at hholds
  refine ⟨d, ?_, hholds⟩
  have hassert : ¬∃ fh ∈ req.asserted, fh < leastFd := by
    rintro ⟨fh, hfh, hlt⟩
    exact absurd (h.handle fh hfh) (UInt64.not_le.mpr hlt)
  rw [Request.encode, if_neg hassert, if_neg (not_le.mpr h.combined), hmessage]
  rfl

theorem Request.decoded {req : Request} (h : req.Encodable) :
    Server.request req.bytes = .ok (req.op, req.body) ∧
      ∃ t, parse req.op req.body = .ok t ∧ t.req = req := by
  obtain ⟨t, hparse, hreq, -⟩ := parse_body h.wellFormed
  refine ⟨?_, t, hparse, hreq⟩
  simp only [Server.request, Request.bytes, takeHeader_header, Except.mapError, ok_bind, ne_eq,
    not_true_eq_false, if_false, OpType.ofCode_code]

end Requests

section Replies

structure StatFields where
  uid : UInt32
  ctime : UInt32
  mtime : UInt32
  atime : UInt32
  ino : UInt64
  mode : UInt32
  size : UInt64
  deriving DecidableEq

/-- What a handler answers: a status, a handle or a count in 64 bits, attributes, the bytes of a file with
their count, or the number of entries that follow. -/
inductive Reply
  | status (ret : Int32)
  | value (ret : UInt64)
  | attr (ret : Int32) (a : StatFields)
  | data (ret : UInt64) (buf : List UInt8)
  | listing (numEnts : UInt64)
  deriving DecidableEq

def Reply.Fits : OpType → Reply → Prop
  | .getattr, .attr _ _ => True
  | .openFile, .value _ => True
  | .opendir, .value _ => True
  | .create, .value _ => True
  | .chmod, .value _ => True
  | .truncate, .value _ => True
  | .write, .value _ => True
  | .read, .data _ _ => True
  | .readdir, .listing _ => True
  | .mkdir, .status _ => True
  | .unlink, .status _ => True
  | .rmdir, .status _ => True
  | .rename, .status _ => True
  | .release, .status _ => True
  | .fsync, .status _ => True
  | .init, .status _ => True
  | .initMkfs, .status _ => True
  | .destroy, .status _ => True
  | _, _ => False

def Reply.lead : Reply → List (List UInt8)
  | .status ret => [u32 ret.toUInt32]
  | .value ret => [u64 ret]
  | .attr ret a =>
    [u64 a.size, u32 a.mode, u64 a.ino, u32 a.atime, u32 a.mtime, u32 a.ctime, u32 a.uid,
      u32 ret.toUInt32]
  | .data ret _ => [u64 ret]
  | .listing numEnts => [u64 numEnts]

def Reply.buf : Reply → List UInt8
  | .data _ buf => buf
  | _ => []

def Reply.fields (op : OpType) (reply : Reply) : List (List UInt8) :=
  reply.lead ++ [u32 op.code, u32 MsgType.fromServer.code]

def Reply.encode (op : OpType) (reply : Reply) : Except FlexErr FlexData :=
  message (fieldsLen (reply.fields op)) reply.buf (reply.fields op)

def Reply.bytes (op : OpType) (reply : Reply) : List UInt8 :=
  header .fromServer op (reply.lead.reverse.flatten ++ reply.buf)

lemma Reply.fields_buf (op : OpType) (reply : Reply) :
    (reply.fields op).reverse.flatten ++ reply.buf = reply.bytes op := by
  simp [Reply.fields, Reply.bytes, header]

theorem Reply.holds_encode (op : OpType) {reply : Reply}
    (hsize : (reply.fields op).flatten.length + reply.buf.length < 2^32) :
    ∃ d, reply.encode op = .ok d ∧ d.Holds (reply.bytes op) := by
  rw [← Reply.fields_buf]
  exact holds_message hsize

/-- `struct stat` as far as the client fills it. -/
structure Stat where
  uid : UInt32
  gid : UInt32
  ctime : UInt32
  mtime : UInt32
  atime : UInt32
  ino : UInt64
  deriving DecidableEq

/-- What a call of the client has taken from its reply. Mode and size are only taken from the attributes
of a file that is there. -/
inductive Seen
  | status (ret : Int32)
  | value (ret : UInt64)
  | attr (ret : Int32) (st : Stat) (modeSize : Option (UInt32 × UInt64))
  | data (ret : UInt64) (buf : List UInt8)
  | listing (numEnts : UInt64)
  deriving DecidableEq

inductive DecodeErr
  | rejected
  | underflow (e : DevErr)
  deriving DecidableEq

/-- The rest of `bfs_getattr`. The owner in the reply is taken off and replaced. -/
def takeAttr (buf : List UInt8) : Except DevErr Seen := do
  let (ret, buf) ← takeU32 buf
  let (_, buf) ← takeU32 buf
  let (ctime, buf) ← takeU32 buf
  let (mtime, buf) ← takeU32 buf
  let (atime, buf) ← takeU32 buf
  let (ino, buf) ← takeU64 buf
  let st : Stat := ⟨1000, 1000, ctime, mtime, atime, ino⟩
  if ret.toInt32 ≠ 0 ∧ ino < leastHandle then .ok (.attr ret.toInt32 st none)
  else do
    let (mode, buf) ← takeU32 buf
    let (size, _) ← takeU64 buf
    .ok (.attr ret.toInt32 st (some (mode, size)))

def takeStatus (buf : List UInt8) : Except DevErr Seen := do
  let (ret, _) ← takeU32 buf
  .ok (.status ret.toInt32)

def takeValue (mk : UInt64 → List UInt8 → Seen) (buf : List UInt8) : Except DevErr Seen := do
  let (ret, buf) ← takeU64 buf
  .ok (mk ret buf)

/-- `rpkt >> ...` of a call, behind the header. -/
def takeReply : OpType → List UInt8 → Except DevErr Seen
  | .getattr, buf => takeAttr buf
  | .openFile, buf => takeValue (fun ret _ => .value ret) buf
  | .opendir, buf => takeValue (fun ret _ => .value ret) buf
  | .create, buf => takeValue (fun ret _ => .value ret) buf
  | .chmod, buf => takeValue (fun ret _ => .value ret) buf
  | .truncate, buf => takeValue (fun ret _ => .value ret) buf
  | .write, buf => takeValue (fun ret _ => .value ret) buf
  | .read, buf => takeValue .data buf
  | .readdir, buf => takeValue (fun numEnts _ => .listing numEnts) buf
  | .mkdir, buf => takeStatus buf
  | .unlink, buf => takeStatus buf
  | .rmdir, buf => takeStatus buf
  | .rename, buf => takeStatus buf
  | .release, buf => takeStatus buf
  | .fsync, buf => takeStatus buf
  | .init, buf => takeStatus buf
  | .initMkfs, buf => takeStatus buf
  | .destroy, buf => takeStatus buf

/-- `recv_msgp` on a decrypted message, and the fields. -/
def Request.decode (req : Request) (plain : List UInt8) : Except DecodeErr Seen :=
  if req.accepts plain then
    (do
      let (_, buf) ← takeHeader plain
      takeReply req.op buf).mapError .underflow
  else .error .rejected

def Reply.seen : Reply → Seen
  | .status ret => .status ret
  | .value ret => .value ret
  | .attr ret a =>
    .attr ret ⟨1000, 1000, a.ctime, a.mtime, a.atime, a.ino⟩
      (if ret ≠ 0 ∧ a.ino < leastHandle then none else some (a.mode, a.size))
  | .data ret buf => .data ret buf
  | .listing numEnts => .listing numEnts

lemma toInt32_toUInt32 (ret : Int32) : ret.toUInt32.toInt32 = ret := rfl

lemma takeStatus_u32 (ret : Int32) (rest : List UInt8) :
    takeStatus (u32 ret.toUInt32 ++ rest) = .ok (.status ret) := by
  rw [takeStatus, takeU32_append, ok_bind]
  rfl

lemma takeValue_u64 (mk : UInt64 → List UInt8 → Seen) (ret : UInt64) (rest : List UInt8) :
    takeValue mk (u64 ret ++ rest) = .ok (mk ret rest) := by
  rw [takeValue, takeU64_append, ok_bind]

lemma takeAttr_fields (ret : Int32) (a : StatFields) :
    takeAttr ((Reply.attr ret a).lead.reverse.flatten ++ []) = .ok (Reply.attr ret a).seen := by
  have hfields : (Reply.attr ret a).lead.reverse.flatten ++ [] =
      u32 ret.toUInt32 ++ (u32 a.uid ++ (u32 a.ctime ++ (u32 a.mtime ++ (u32 a.atime ++
        (u64 a.ino ++ (u32 a.mode ++ (u64 a.size ++ []))))))) := by
    simp [Reply.lead]
  rw [hfields]
  simp only [takeAttr, takeU32_append, takeU64_append, ok_bind, toInt32_toUInt32, Reply.seen]
  split_ifs <;> rfl

lemma takeReply_lead {op : OpType} {reply : Reply} (h : reply.Fits op) :
    takeReply op (reply.lead.reverse.flatten ++ reply.buf) = .ok reply.seen := by
  cases reply with
  | status ret =>
    have htake : takeReply op (u32 ret.toUInt32 ++ []) = .ok (.status ret) := by
      cases op <;> first | exact h.elim | exact takeStatus_u32 ret []
    simpa [Reply.lead, Reply.buf, Reply.seen] using htake
  | value ret =>
    have htake : takeReply op (u64 ret ++ []) = .ok (.value ret) := by
      cases op <;> first | exact h.elim | exact takeValue_u64 (fun ret _ => .value ret) ret []
    simpa [Reply.lead, Reply.buf, Reply.seen] using htake
  | attr ret a =>
    cases op <;> first | exact h.elim | exact takeAttr_fields ret a
  | data ret buf =>
    have htake : takeReply op (u64 ret ++ buf) = .ok (.data ret buf) := by
      cases op <;> first | exact h.elim | exact takeValue_u64 .data ret buf
    simpa [Reply.lead, Reply.buf, Reply.seen] using htake
  | listing numEnts =>
    have htake : takeReply op (u64 numEnts ++ []) = .ok (.listing numEnts) := by
      cases op <;> first | exact h.elim | exact takeValue_u64 (fun n _ => .listing n) numEnts []
    simpa [Reply.lead, Reply.buf, Reply.seen] using htake

lemma Reply.length_bytes (op : OpType) (reply : Reply) :
    (reply.bytes op).length = 8 + reply.lead.flatten.length + reply.buf.length := by
  rw [Reply.bytes, length_header, List.length_append, List.length_flatten, List.map_reverse,
    List.sum_reverse, List.length_flatten, Nat.add_assoc]

lemma Reply.length_awaited {req : Request} {reply : Reply} (h : reply.Fits req.op) :
    req.replyLen.all fun len => (reply.bytes req.replyOp).length == len := by
  rw [Reply.length_bytes]
  cases req <;> cases reply <;>
    first | exact (h : False).elim | simp [Request.replyLen, Request.op, Reply.lead, Reply.buf]

theorem Reply.decoded {req : Request} {reply : Reply} (h : reply.Fits req.op) :
    req.decode (reply.bytes req.replyOp) = .ok reply.seen := by
  have haccepts : req.accepts (reply.bytes req.replyOp) = true := by
    have hlen := Reply.length_awaited h
    rw [Reply.bytes] at hlen ⊢
    simp only [Request.accepts, takeHeader_header, BEq.rfl, Bool.true_and, hlen]
  rw [Request.decode, if_pos haccepts, Reply.bytes, takeHeader_header, ok_bind]
  simp only [takeReply_lead h, Except.mapError]

end Replies

section RoundTrip

/-- Every request that a client can make is built, and the server takes its operation and its arguments
from it; and every reply is built, and the client takes its values from it, with another owner. -/
theorem messages_round_trip (req : Request) :
    (req.Encodable → ∃ d, req.encode = .ok d ∧ ∀ e : FlexData, e.Holds d.content →
      Server.request e.content = .ok (req.op, req.body) ∧
        ∃ t, parse req.op req.body = .ok t ∧ t.req = req) ∧
    ∀ reply : Reply, reply.Fits req.op →
      ((reply.fields req.replyOp).flatten.length + reply.buf.length < 2^32) →
      ∃ d, reply.encode req.replyOp = .ok d ∧ ∀ e : FlexData, e.Holds d.content →
        req.decode e.content = .ok reply.seen := by
  constructor
  · intro h
    obtain ⟨d, hencode, hholds⟩ := Request.holds_encode h
    refine ⟨d, hencode, ?_⟩
    intro e he
    rw [he.content, hholds.content]
    exact Request.decoded h
  · intro reply hfits hsize
    obtain ⟨d, hencode, hholds⟩ := Reply.holds_encode req.replyOp hsize
    refine ⟨d, hencode, ?_⟩
    intro e he
    rw [he.content, hholds.content]
    exact Reply.decoded hfits

def rootStat : StatFields := ⟨0, 1, 2, 3, 8, 16877, 4096⟩

theorem root_getattr_round_trip :
    (∃ d, (Request.getattr [47]).encode = .ok d ∧ ∀ e : FlexData, e.Holds d.content →
      Server.request e.content = .ok (.getattr, pathField [47]) ∧
        ∃ t, parse .getattr (pathField [47]) = .ok t ∧ t.req = .getattr [47]) ∧
    ∃ d, (Reply.attr 0 rootStat).encode .getattr = .ok d ∧ ∀ e : FlexData, e.Holds d.content →
      (Request.getattr [47]).decode e.content = .ok (Reply.attr 0 rootStat).seen :=
  have htrip := messages_round_trip (.getattr [47])
  ⟨htrip.1 ⟨⟨by decide, by decide⟩, by simp [Request.asserted], by decide, by decide⟩,
    htrip.2 (.attr 0 rootStat) trivial (by decide)⟩

/-- The owner in a reply is not the one that the client reports. -/
theorem owner_replaced :
    ∃ st modeSize, (Request.getattr [47]).decode ((Reply.attr 0 rootStat).bytes .getattr) =
      .ok (.attr 0 st modeSize) ∧ st.uid ≠ rootStat.uid := by
  refine ⟨_, _, Reply.decoded trivial, ?_⟩
  decide

end RoundTrip

end Bfs.Rpc
