import Bfs.Device.Storage

/-! `bfsNetworkDevice`: the device side of the protocol. -/
namespace Bfs.Device
open ByteSeq LittleEndian Fallible
open Bfs.Fs (Iv Block blkSz)

def DeviceMsg.ofCode (c : UInt8) : Option DeviceMsg :=
  [.getTopo, .getBlock, .putBlock, .getBlocks, .putBlocks, .putBlockTagged, .getBlockTagged].find?
    (·.code = c)

@[simp] lemma DeviceMsg.ofCode_code (m : DeviceMsg) : DeviceMsg.ofCode m.code = some m := by
  cases m <;> rfl

structure NetworkDevice where
  deviceID : UInt32
  storage : DeviceStorage
  sendSeq : UInt32
  recvSeq : UInt32

def popIds : ℕ → List UInt8 → Except DevErr (List UInt64 × List UInt8)
  | 0, buf => .ok ([], buf)
  | n+1, buf => do
    let (blkid, buf) ← removeHeader 8 buf
    let (ids, buf) ← popIds n buf
    .ok (ofU64 blkid :: ids, buf)

def blockTrailers (s : DeviceStorage) : List UInt64 → Except DevErr (List UInt8)
  | [] => .ok []
  | blkid :: ids =>
    match s.getBlockAddress blkid with
    | none => .error .nullAccess
    | some baddr => do
      let rest ← blockTrailers s ids
      .ok (u64 blkid ++ ((s.blocks baddr).toList ++ rest))

def popBlocks : ℕ → DeviceStorage → List UInt8 →
    Except DevErr (List UInt64 × DeviceStorage × List UInt8)
  | 0, s, buf => .ok ([], s, buf)
  | n+1, s, buf => do
    let (blkid, buf) ← removeHeader 8 buf
    let (blk, buf) ← removeBlock buf
    let s := ((s.getBlockAddress (ofU64 blkid)).map fun baddr => s.write baddr blk).getD s
    let (ids, s, buf) ← popBlocks n s buf
    .ok (ofU64 blkid :: ids, s, buf)

/-- `bfs_device_topo_t`, with the gap before its second field. -/
def topoBytes (did : UInt32) (nblks : UInt64) : List UInt8 :=
  u32 did ++ (List.replicate 4 0 ++ u64 nblks)

namespace NetworkDevice

/-- The switch of `processClientRequest`: the device in the response, its data and the storage. -/
def processCommand (nd : NetworkDevice) (h : Header) (buf : List UInt8) :
    Except DevErr (UInt32 × List UInt8 × DeviceStorage) :=
  match DeviceMsg.ofCode h.cmd with
  | some .getTopo =>
    if buf.length ≠ 0 then .error .badLength
    else .ok (nd.deviceID, topoBytes nd.deviceID nd.storage.numBlocks, nd.storage)
  | some .getBlock =>
    if buf.length ≠ 8 then .error .badLength
    else if h.did ≠ nd.deviceID then .error .deviceMismatch
    else
      let blkid := ofU64 buf
      -- the result of getBlock is not looked at
      let blk := (nd.storage.getBlock blkid).getD (Buf.fill 0 blkSz)
      .ok (h.did, u64 blkid ++ blk.toList, nd.storage)
  | some .putBlock =>
    if buf.length ≠ 8 + blkSz then .error .badLength
    else if h.did ≠ nd.deviceID then .error .deviceMismatch
    else do
      let (blkid, buf) ← removeHeader 8 buf
      let (blk, _) ← removeBlock buf
      -- nor is the result of putBlock
      let storage := (nd.storage.putBlock (ofU64 blkid) blk).getD nd.storage
      .ok (h.did, u64 (ofU64 blkid), storage)
  | some .getBlocks => do
    let (sz, buf) ← removeHeader 8 buf
    let (manifest, buf) ← popIds (ofU64 sz).toNat buf
    let trailers ← blockTrailers nd.storage manifest
    .ok (h.did, u64 (ofU64 sz) ++ (List.replicate buf.length 0 ++ trailers), nd.storage)
  | some .putBlocks => do
    let (sz, buf) ← removeHeader 8 buf
    let (manifest, storage, buf) ← popBlocks (ofU64 sz).toNat nd.storage buf
    .ok (h.did, u64 (ofU64 sz) ++ (List.replicate buf.length 0 ++ manifest.flatMap u64), storage)
  | _ => .error .unknownCommand

def serve (A : PacketKey) (nd : NetworkDevice) (pkt : List UInt8) :
    Except DevErr ((Header × List UInt8) × (Header × List UInt8) × DeviceStorage) := do
  let (h, buf) ← unmarshalBfsDevicePacket A nd.recvSeq pkt
  if h.usr ≠ 1 ∨ h.ack = true then .error .badRequest
  else
    let (did, rbuf, storage) ← nd.processCommand h buf
    .ok ((h, buf), (⟨h.usr, did, h.cmd, true⟩, rbuf), storage)

/-- The device after a response, with `storage`. -/
def advance (nd : NetworkDevice) (storage : DeviceStorage) : NetworkDevice :=
  { nd with storage, recvSeq := nd.recvSeq + 1, sendSeq := nd.sendSeq + 1 }

@[simp] lemma advance_storage (nd : NetworkDevice) (storage : DeviceStorage) :
    (nd.advance storage).storage = storage := rfl
@[simp] lemma advance_sendSeq (nd : NetworkDevice) (storage : DeviceStorage) :
    (nd.advance storage).sendSeq = nd.sendSeq + 1 := rfl
@[simp] lemma advance_recvSeq (nd : NetworkDevice) (storage : DeviceStorage) :
    (nd.advance storage).recvSeq = nd.recvSeq + 1 := rfl

/-- `processClientRequest`: the packet of the response. A device that fails shuts down. -/
def processClientRequest (A : PacketKey) (iv : Iv) (nd : NetworkDevice) (pkt : List UInt8) :
    Except DevErr (List UInt8 × NetworkDevice) := do
  let (_, (h, buf), storage) ← nd.serve A pkt
  .ok (marshalBfsDevicePacket A iv h nd.sendSeq buf, nd.advance storage)

end NetworkDevice

section Loops

@[simp] lemma length_flatMap_u64 (ids : List UInt64) : (ids.flatMap u64).length = 8*ids.length := by
  induction ids with
  | nil => rfl
  | cons blkid ids ih =>
    rw [List.flatMap_cons, List.length_append, ih, length_u64, List.length_cons]
    omega

lemma popIds_flatMap (ids : List UInt64) (rest : List UInt8) :
    popIds ids.length (ids.flatMap u64 ++ rest) = .ok (ids, rest) := by
  induction ids with
  | nil => rfl
  | cons blkid ids ih =>
    simp only [List.length_cons, List.flatMap_cons, List.append_assoc, popIds,
      removeHeader_append (length_u64 blkid), ok_bind, ih, ofU64_u64]

def blockBytes (blks : List (UInt64 × Block)) : List UInt8 :=
  blks.flatMap fun b => u64 b.1 ++ b.2.toList

@[simp] lemma blockBytes_nil : blockBytes [] = [] := rfl
@[simp] lemma blockBytes_cons (b : UInt64 × Block) (blks : List (UInt64 × Block)) :
    blockBytes (b :: blks) = u64 b.1 ++ (b.2.toList ++ blockBytes blks) := by
  rw [blockBytes, List.flatMap_cons, List.append_assoc]
  rfl

@[simp] lemma length_blockBytes (blks : List (UInt64 × Block)) :
    (blockBytes blks).length = (8+blkSz)*blks.length := by
  induction blks with
  | nil => rfl
  | cons b blks ih =>
    rw [blockBytes_cons, List.length_append, List.length_append, ih, length_u64,
      b.2.length_toList, List.length_cons, Nat.mul_add]
    omega

lemma blockTrailers_of_lt {s : DeviceStorage} {ids : List UInt64}
    (hids : ∀ blkid ∈ ids, blkid < s.numBlocks) :
    blockTrailers s ids = .ok (blockBytes (ids.map fun blkid => (blkid, s.blocks blkid))) := by
  induction ids with
  | nil => rfl
  | cons blkid ids ih =>
    have haddr := DeviceStorage.getBlockAddress_of_lt (hids blkid List.mem_cons_self)
    have hrest := ih fun b hb => hids b (List.mem_cons_of_mem _ hb)
    simp only [blockTrailers, haddr, hrest, ok_bind, List.map_cons, blockBytes_cons]

lemma blockTrailers_of_not_lt {s : DeviceStorage} {ids : List UInt64}
    (hids : ¬ ∀ blkid ∈ ids, blkid < s.numBlocks) : blockTrailers s ids = .error .nullAccess := by
  induction ids with
  | nil => exact absurd (fun b hb => absurd hb (List.not_mem_nil)) hids
  | cons blkid ids ih =>
    rw [List.forall_mem_cons, not_and_or] at hids
    cases haddr : s.getBlockAddress blkid with
    | none => simp only [blockTrailers, haddr]
    | some baddr =>
      have hlt : blkid < s.numBlocks := by
        by_contra hlt
        rw [DeviceStorage.getBlockAddress_of_not_lt hlt] at haddr
        cases haddr
      simp only [blockTrailers, haddr, ih (hids.resolve_left (not_not_intro hlt)), error_bind]

def DeviceStorage.putAll (s : DeviceStorage) (blks : List (UInt64 × Block)) : DeviceStorage :=
  s.writeAll (blks.filter fun b => b.1 < s.numBlocks)

lemma DeviceStorage.putAll_of_lt {s : DeviceStorage} {blks : List (UInt64 × Block)}
    (hids : ∀ blkid ∈ blks.map Prod.fst, blkid < s.numBlocks) : s.putAll blks = s.writeAll blks := by
  rw [DeviceStorage.putAll, List.filter_eq_self.mpr]
  intro b hb
  exact decide_eq_true (hids b.1 (List.mem_map_of_mem hb))

lemma popBlocks_blockBytes (s : DeviceStorage) (blks : List (UInt64 × Block)) (rest : List UInt8) :
    popBlocks blks.length s (blockBytes blks ++ rest) =
      .ok (blks.map Prod.fst, s.putAll blks, rest) := by
  induction blks generalizing s with
  | nil => rfl
  | cons b blks ih =>
    simp only [List.length_cons, blockBytes_cons, List.append_assoc, popBlocks,
      removeHeader_append (length_u64 b.1), removeBlock_append, ok_bind, ofU64_u64, ih,
      List.map_cons]
    congr 3
    by_cases hlt : b.1 < s.numBlocks
    · rw [DeviceStorage.getBlockAddress_of_lt hlt, DeviceStorage.putAll, DeviceStorage.putAll,
        List.filter_cons_of_pos (by simpa using hlt)]
      rfl
    · rw [DeviceStorage.getBlockAddress_of_not_lt hlt, DeviceStorage.putAll, DeviceStorage.putAll,
        List.filter_cons_of_neg (by simpa using hlt)]
      rfl

end Loops

end Bfs.Device
