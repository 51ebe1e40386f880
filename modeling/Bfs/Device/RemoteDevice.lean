import Bfs.Device.NetworkDevice

/-! `bfsRemoteDevice`: the server side of the protocol. Each command sends one packet, and what is
received next is taken for its response. -/
namespace Bfs.Device
open ByteSeq LittleEndian Fallible
open Bfs.Fs (Iv Block blkSz)

structure RemoteDevice where
  deviceID : UInt32
  numBlocks : UInt64
  sendSeq : UInt32
  recvSeq : UInt32

/-- A command with its arguments. The buffer of a put is sent at the length it has; the maps of
several blocks are lists in the order of their keys. -/
inductive Request
  | getTopo
  | getBlock (blkid : UInt64)
  | putBlock (blkid : UInt64) (buf : List UInt8)
  | getBlocks (ids : List UInt64)
  | putBlocks (blks : List (UInt64 × Block))

namespace Request

def msg : Request → DeviceMsg
  | .getTopo => .getTopo
  | .getBlock _ => .getBlock
  | .putBlock _ _ => .putBlock
  | .getBlocks _ => .getBlocks
  | .putBlocks _ => .putBlocks

def data : Request → List UInt8
  | .getTopo => []
  | .getBlock blkid => u64 blkid
  | .putBlock blkid buf => u64 blkid ++ buf
  | .getBlocks ids => u64 (UInt64.ofNat ids.length) ++ ids.flatMap u64
  | .putBlocks blks => u64 (UInt64.ofNat blks.length) ++ blockBytes blks

def header (deviceID : UInt32) (req : Request) : Header where
  usr := 1
  did := match req with
    | .getTopo => 0
    | _ => deviceID
  cmd := req.msg.code
  ack := false

def replyLen : Request → ℕ
  | .getTopo => 16
  | .getBlock _ => 8 + blkSz
  | .putBlock _ _ => 8
  | .getBlocks ids => 8 + (8 + blkSz)*ids.length
  | .putBlocks blks => 8 + 8*blks.length

def checksDid : Request → Bool
  | .getBlock _ => true
  | .getBlocks _ => true
  | _ => false

def Accepts (req : Request) (deviceID : UInt32) (h : Header) (buf : List UInt8) : Prop :=
  h.usr = 1 ∧ (req.checksDid = true → h.did = deviceID) ∧ h.cmd = req.msg.code ∧ h.ack = true ∧
    buf.length = req.replyLen

instance (req : Request) (deviceID : UInt32) (h : Header) (buf : List UInt8) :
    Decidable (req.Accepts deviceID h buf) := by
  unfold Accepts
  infer_instance

end Request

inductive Reply
  | topo (did : UInt32) (nblks : UInt64)
  | block (blk : Block)
  | done
  | blocks (blks : List (UInt64 × Block))

def takeBlocks : ℕ → List UInt64 → List UInt8 → Except DevErr (List (UInt64 × Block))
  | 0, _, _ => .ok []
  | n+1, manifest, buf => do
    let (rblkid, buf) ← removeHeader 8 buf
    if ofU64 rblkid ∉ manifest then .error .blockMismatch
    else
      let (blk, buf) ← removeBlock buf
      let rest ← takeBlocks n (manifest.erase (ofU64 rblkid)) buf
      .ok ((ofU64 rblkid, blk) :: rest)

def takeIds : ℕ → List UInt64 → List UInt8 → Except DevErr Unit
  | 0, _, _ => .ok ()
  | n+1, manifest, buf => do
    let (rblkid, buf) ← removeHeader 8 buf
    if ofU64 rblkid ∉ manifest then .error .blockMismatch
    else takeIds n (manifest.erase (ofU64 rblkid)) buf

def Request.decode : Request → List UInt8 → Except DevErr Reply
  | .getTopo, buf => .ok (.topo (ofU32 (slice buf 0 4)) (ofU64 (slice buf 8 8)))
  | .getBlock blkid, buf => do
    let (rblkid, buf) ← removeHeader 8 buf
    if ofU64 rblkid ≠ blkid then .error .blockMismatch
    else
      let (blk, _) ← removeBlock buf
      .ok (.block blk)
  | .putBlock blkid _, buf => do
    let (rblkid, _) ← removeHeader 8 buf
    if ofU64 rblkid ≠ blkid then .error .blockMismatch else .ok .done
  | .getBlocks ids, buf => do
    let (rsz, buf) ← removeHeader 8 buf
    if (ofU64 rsz).toNat ≠ ids.length then .error .countMismatch
    else
      let blks ← takeBlocks ids.length ids buf
      .ok (.blocks blks)
  | .putBlocks blks, buf => do
    let (rsz, buf) ← removeHeader 8 buf
    if (ofU64 rsz).toNat ≠ blks.length then .error .countMismatch
    else
      takeIds blks.length (blks.map Prod.fst) buf
      .ok .done

namespace RemoteDevice

def init : RemoteDevice := ⟨0, 0, 0, 0⟩

def send (A : PacketKey) (iv : Iv) (rd : RemoteDevice) (req : Request) :
    List UInt8 × RemoteDevice :=
  (marshalBfsDevicePacket A iv (req.header rd.deviceID) rd.sendSeq req.data,
    { rd with sendSeq := rd.sendSeq + 1 })

def update (rd : RemoteDevice) : Reply → RemoteDevice
  | .topo did nblks => { rd with deviceID := did, numBlocks := nblks }
  | _ => rd

def receive (A : PacketKey) (rd : RemoteDevice) (req : Request) (pkt : List UInt8) :
    Except DevErr Reply × RemoteDevice :=
  match unmarshalBfsDevicePacket A rd.recvSeq pkt with
  | .error e => (.error e, rd)
  | .ok (h, buf) =>
    if req.Accepts rd.deviceID h buf then
      let rd := { rd with recvSeq := rd.recvSeq + 1 }
      match req.decode buf with
      | .error e => (.error e, rd)
      | .ok reply => (.ok reply, rd.update reply)
    else (.error .badResponse, rd)

@[simp] lemma update_sendSeq (rd : RemoteDevice) (reply : Reply) :
    (rd.update reply).sendSeq = rd.sendSeq := by cases reply <;> rfl
@[simp] lemma update_recvSeq (rd : RemoteDevice) (reply : Reply) :
    (rd.update reply).recvSeq = rd.recvSeq := by cases reply <;> rfl

end RemoteDevice

section Decoding

lemma takeBlocks_blockBytes (blks : List (UInt64 × Block)) (hnodup : (blks.map Prod.fst).Nodup) :
    takeBlocks blks.length (blks.map Prod.fst) (blockBytes blks) = .ok blks := by
  induction blks with
  | nil => rfl
  | cons b blks ih =>
    have hrest := ih (List.nodup_cons.mp hnodup).2
    simp only [List.length_cons, List.map_cons, blockBytes_cons, takeBlocks,
      removeHeader_append (length_u64 b.1), removeBlock_append, ok_bind, ofU64_u64,
      List.mem_cons, true_or, not_true, if_false, List.erase_cons_head, hrest]

lemma takeIds_flatMap (ids : List UInt64) :
    takeIds ids.length ids (ids.flatMap u64) = .ok () := by
  induction ids with
  | nil => rfl
  | cons blkid ids ih =>
    simp only [List.length_cons, List.flatMap_cons, takeIds, removeHeader_append (length_u64 blkid),
      ok_bind, ofU64_u64, List.mem_cons, true_or, not_true, if_false, List.erase_cons_head, ih]

end Decoding

end Bfs.Device
