import Bfs.Device.RemoteDevice

/-! A remote device and its network device over a channel that delivers every packet. -/
namespace Bfs.Device
open ByteSeq LittleEndian Fallible
open Bfs.Fs (Iv Block blkSz)

structure RemoteLink where
  rd : RemoteDevice
  nd : NetworkDevice
  up : Bool

namespace Request

def WellFormed : Request → Prop
  | .getTopo => True
  | .getBlock _ => True
  | .putBlock _ buf => buf.length = blkSz
  | .getBlocks ids => ids.Pairwise (· < ·) ∧ 8 + (8 + blkSz)*ids.length < 2^32
  | .putBlocks blks => (blks.map Prod.fst).Pairwise (· < ·) ∧ 8 + (8 + blkSz)*blks.length < 2^32

def ids : Request → List UInt64
  | .getTopo => []
  | .getBlock blkid => [blkid]
  | .putBlock blkid _ => [blkid]
  | .getBlocks ids => ids
  | .putBlocks blks => blks.map Prod.fst

def InRange (req : Request) (n : UInt64) : Prop := ∀ blkid ∈ req.ids, blkid < n

instance (req : Request) (n : UInt64) : Decidable (req.InRange n) := by
  unfold InRange
  infer_instance

def outcome (did : UInt32) (s : DeviceStorage) :
    Request → Except DevErr (Reply × List UInt8 × DeviceStorage)
  | .getTopo => .ok (.topo did s.numBlocks, topoBytes did s.numBlocks, s)
  | .getBlock blkid =>
    let blk := (s.getBlock blkid).getD (Buf.fill 0 blkSz)
    .ok (.block blk, u64 blkid ++ blk.toList, s)
  | .putBlock blkid buf =>
    if h : buf.length = blkSz then .ok (.done, u64 blkid, (s.putBlock blkid ⟨buf, h⟩).getD s)
    else .error .badLength
  | .getBlocks ids =>
    if ∀ blkid ∈ ids, blkid < s.numBlocks then
      let blks := ids.map fun blkid => (blkid, s.blocks blkid)
      .ok (.blocks blks, u64 (UInt64.ofNat ids.length) ++ blockBytes blks, s)
    else .error .nullAccess
  | .putBlocks blks =>
    .ok (.done, u64 (UInt64.ofNat blks.length) ++ (blks.map Prod.fst).flatMap u64, s.putAll blks)

def value (did : UInt32) (s : DeviceStorage) : Request → Reply
  | .getTopo => .topo did s.numBlocks
  | .getBlock blkid => .block (s.blocks blkid)
  | .putBlock _ _ => .done
  | .getBlocks ids => .blocks (ids.map fun blkid => (blkid, s.blocks blkid))
  | .putBlocks _ => .done

def apply (s : DeviceStorage) : Request → DeviceStorage
  | .putBlock blkid buf => if h : buf.length = blkSz then s.write blkid ⟨buf, h⟩ else s
  | .putBlocks blks => s.writeAll blks
  | _ => s

end Request

section Serving

variable {nd : NetworkDevice}

lemma ids_fit {n : ℕ} (h : 8 + (8 + blkSz)*n < 2^32) : 8 + 8*n < 2^32 := by
  have hle : 8*n ≤ (8 + blkSz)*n := Nat.mul_le_mul_right n (Nat.le_add_right 8 blkSz)
  omega

lemma toNat_ofNat_count {n : ℕ} (h : 8 + (8 + blkSz)*n < 2^32) : (UInt64.ofNat n).toNat = n := by
  have hids := ids_fit h
  rw [UInt64.toNat_ofNat', Nat.mod_eq_of_lt]
  omega

lemma length_data_lt {req : Request} (hwf : req.WellFormed) : req.data.length < 2^32 := by
  cases req with
  | getTopo => simp [Request.data]
  | getBlock blkid => simp [Request.data]
  | putBlock blkid buf =>
    have hlen : buf.length = blkSz := hwf
    rw [Request.data, List.length_append, length_u64, hlen]
    decide
  | getBlocks ids =>
    rw [Request.data, List.length_append, length_u64, length_flatMap_u64]
    exact ids_fit hwf.2
  | putBlocks blks =>
    rw [Request.data, List.length_append, length_u64, length_blockBytes]
    exact hwf.2

lemma processCommand_data {req : Request} (hwf : req.WellFormed) :
    nd.processCommand (req.header nd.deviceID) req.data =
      (req.outcome nd.deviceID nd.storage).map fun r => (nd.deviceID, r.2) := by
  cases req with
  | getTopo =>
    simp [NetworkDevice.processCommand, Request.header, Request.msg, Request.data, Request.outcome,
      Except.map]
  | getBlock blkid =>
    simp [NetworkDevice.processCommand, Request.header, Request.msg, Request.data, Request.outcome,
      Except.map]
  | putBlock blkid buf =>
    have hlen : buf.length = blkSz := hwf
    have hblock : removeBlock buf = .ok (⟨buf, hlen⟩, []) := by
      simpa using removeBlock_append ⟨buf, hlen⟩ []
    simp [NetworkDevice.processCommand, Request.header, Request.msg, Request.data, Request.outcome,
      Except.map, removeHeader_append, hblock, hlen]
  | getBlocks ids =>
    have hcount := toNat_ofNat_count hwf.2
    have hpop := popIds_flatMap ids []
    rw [List.append_nil] at hpop
    simp only [NetworkDevice.processCommand, Request.header, Request.msg, Request.data,
      Request.outcome, DeviceMsg.ofCode_code, removeHeader_append (length_u64 _), ok_bind, ofU64_u64,
      hcount, hpop]
    split_ifs with hids
    · rw [blockTrailers_of_lt hids]
      rfl
    · rw [blockTrailers_of_not_lt hids]
      rfl
  | putBlocks blks =>
    have hcount := toNat_ofNat_count hwf.2
    have hpop := popBlocks_blockBytes nd.storage blks []
    rw [List.append_nil] at hpop
    simp only [NetworkDevice.processCommand, Request.header, Request.msg, Request.data,
      Request.outcome, DeviceMsg.ofCode_code, removeHeader_append (length_u64 _), ok_bind, ofU64_u64,
      hcount, hpop]
    rfl

lemma decode_outcome {req : Request} (hwf : req.WellFormed) {did : UInt32} {s s' : DeviceStorage}
    {reply : Reply} {buf : List UInt8} (hout : req.outcome did s = .ok (reply, buf, s')) :
    buf.length = req.replyLen ∧ req.decode buf = .ok reply := by
  cases req with
  | getTopo =>
    cases hout
    have hnum : slice (topoBytes did s.numBlocks) 8 8 = u64 s.numBlocks := by
      rw [slice, topoBytes, ← List.append_assoc, List.drop_left' (by simp),
        List.take_of_length_le (by simp)]
    refine ⟨by simp [topoBytes, Request.replyLen], ?_⟩
    rw [Request.decode, hnum, ofU64_u64]
    simp [topoBytes, slice]
  | getBlock blkid =>
    cases hout
    have hblock (blk : Block) : removeBlock blk.toList = .ok (blk, []) := by
      simpa using removeBlock_append blk []
    refine ⟨by simp [Request.replyLen, Buf.length_toList], ?_⟩
    simp [Request.decode, removeHeader_append, hblock]
  | putBlock blkid buf =>
    have hlen : buf.length = blkSz := hwf
    rw [Request.outcome, dif_pos hlen] at hout
    cases hout
    have hid := removeHeader_append (length_u64 blkid) []
    rw [List.append_nil] at hid
    refine ⟨by simp [Request.replyLen], ?_⟩
    simp [Request.decode, hid]
  | getBlocks ids =>
    simp only [Request.outcome] at hout
    split_ifs at hout with hids
    cases hout
    have hnodup : ids.Nodup := hwf.1.imp fun hlt => UInt64.ne_of_lt hlt
    have hcount := toNat_ofNat_count hwf.2
    have htake := takeBlocks_blockBytes (ids.map fun blkid => (blkid, s.blocks blkid))
      (by simpa [Function.comp_def] using hnodup)
    simp only [List.length_map, List.map_map, Function.comp_def, List.map_id'] at htake
    refine ⟨by simp [Request.replyLen], ?_⟩
    simp [Request.decode, removeHeader_append, hcount, htake]
  | putBlocks blks =>
    cases hout
    have hcount := toNat_ofNat_count hwf.2
    have htake := takeIds_flatMap (blks.map Prod.fst)
    rw [List.length_map] at htake
    refine ⟨?_, ?_⟩
    · rw [List.length_append, length_u64, length_flatMap_u64, List.length_map, Request.replyLen]
    · simp [Request.decode, removeHeader_append, hcount, htake]

lemma length_outcome_lt {req : Request} (hwf : req.WellFormed) {did : UInt32}
    {s s' : DeviceStorage} {reply : Reply} {buf : List UInt8}
    (hout : req.outcome did s = .ok (reply, buf, s')) : buf.length < 2^32 := by
  rw [(decode_outcome hwf hout).1]
  cases req with
  | getTopo => decide
  | getBlock blkid => exact (by decide : 8 + blkSz < 2^32)
  | putBlock blkid buf => exact (by decide : 8 < 2^32)
  | getBlocks ids => exact hwf.2
  | putBlocks blks => exact ids_fit hwf.2

end Serving

namespace RemoteLink

section Call

variable (A : PacketKey) (ivs : UInt32 → Iv × Iv)

def call (l : RemoteLink) (req : Request) : Except DevErr Reply × RemoteLink :=
  let (pkt, rd) := l.rd.send A (ivs l.rd.sendSeq).1 req
  if l.up then
    match l.nd.processClientRequest A (ivs l.nd.sendSeq).2 pkt with
    | .error _ => (.error .recvFailed, { l with rd, up := false })
    | .ok (resp, nd) =>
      let (r, rd) := rd.receive A req resp
      (r, { rd, nd, up := true })
  else (.error .recvFailed, { l with rd })

/-- The link after `bfsDeviceInitialize`, which asks for the topology. -/
def connect (nd : NetworkDevice) : RemoteLink :=
  (call A ivs ⟨RemoteDevice.init, nd, true⟩ .getTopo).2

end Call

structure Synced (l : RemoteLink) : Prop where
  send_eq : l.rd.sendSeq = l.nd.recvSeq
  recv_eq : l.rd.recvSeq = l.nd.sendSeq

def answered (l : RemoteLink) (reply : Reply) (s : DeviceStorage) : RemoteLink where
  rd := RemoteDevice.update
    { l.rd with sendSeq := l.rd.sendSeq + 1, recvSeq := l.rd.recvSeq + 1 } reply
  nd := l.nd.advance s
  up := true

lemma Synced.answered {l : RemoteLink} (hs : l.Synced) (reply : Reply) (s : DeviceStorage) :
    (l.answered reply s).Synced := by
  constructor
  · simp [RemoteLink.answered, hs.send_eq]
  · simp [RemoteLink.answered, hs.recv_eq]

variable {A : PacketKey} {ivs : UInt32 → Iv × Iv} {l : RemoteLink} {req : Request}

lemma serve_marshal (hA : Aead.Correct A) (hwf : req.WellFormed) (nd : NetworkDevice) (iv : Iv) :
    nd.serve A (marshalBfsDevicePacket A iv (req.header nd.deviceID) nd.recvSeq req.data) =
      (req.outcome nd.deviceID nd.storage).map fun r =>
        ((req.header nd.deviceID, req.data), (⟨1, nd.deviceID, req.msg.code, true⟩, r.2.1), r.2.2) := by
  simp only [NetworkDevice.serve, unmarshal_marshal hA _ _ _ (length_data_lt hwf), ok_bind,
    processCommand_data hwf]
  rw [if_neg (by simp [Request.header])]
  cases req.outcome nd.deviceID nd.storage with
  | error e => rfl
  | ok r => rfl

lemma processClientRequest_send (hA : Aead.Correct A) (hs : l.Synced) (hwf : req.WellFormed)
    (hdid : req = .getTopo ∨ l.rd.deviceID = l.nd.deviceID) (iv iv' : Iv) :
    l.nd.processClientRequest A iv' (l.rd.send A iv req).1 =
      match req.outcome l.nd.deviceID l.nd.storage with
      | .error e => .error e
      | .ok (_, buf, s) => .ok (marshalBfsDevicePacket A iv' ⟨1, l.nd.deviceID, req.msg.code, true⟩
          l.nd.sendSeq buf, l.nd.advance s) := by
  have hheader : req.header l.rd.deviceID = req.header l.nd.deviceID := by
    obtain rfl | hdid := hdid
    · rfl
    · rw [hdid]
  simp only [NetworkDevice.processClientRequest, RemoteDevice.send, hs.send_eq, hheader,
    serve_marshal hA hwf]
  cases req.outcome l.nd.deviceID l.nd.storage with
  | error e => rfl
  | ok r => rfl

lemma receive_response (hA : Aead.Correct A) (hs : l.Synced) (hwf : req.WellFormed)
    (hdid : req = .getTopo ∨ l.rd.deviceID = l.nd.deviceID) {reply : Reply} {buf : List UInt8}
    {s : DeviceStorage} (hout : req.outcome l.nd.deviceID l.nd.storage = .ok (reply, buf, s))
    (iv iv' : Iv) :
    (l.rd.send A iv req).2.receive A req (marshalBfsDevicePacket A iv'
        ⟨1, l.nd.deviceID, req.msg.code, true⟩ l.nd.sendSeq buf) =
      (.ok reply, (l.answered reply s).rd) := by
  obtain ⟨hlen, hdec⟩ := decode_outcome hwf hout
  have haccept : req.Accepts l.rd.deviceID ⟨1, l.nd.deviceID, req.msg.code, true⟩ buf := by
    refine ⟨rfl, ?_, rfl, rfl, hlen⟩
    intro hcheck
    obtain rfl | hdid := hdid
    · cases hcheck
    · exact hdid.symm
  simp only [RemoteDevice.send, RemoteDevice.receive, hs.recv_eq,
    unmarshal_marshal hA _ _ _ (length_outcome_lt hwf hout), if_pos haccept, hdec]
  rw [RemoteLink.answered, hs.recv_eq]

theorem call_eq (ivs : UInt32 → Iv × Iv) (hA : Aead.Correct A) (hup : l.up = true) (hs : l.Synced) (hwf : req.WellFormed)
    (hdid : req = .getTopo ∨ l.rd.deviceID = l.nd.deviceID) :
    l.call A ivs req =
      match req.outcome l.nd.deviceID l.nd.storage with
      | .error _ => (.error .recvFailed,
          { l with rd := (l.rd.send A (ivs l.rd.sendSeq).1 req).2, up := false })
      | .ok (reply, _, s) => (.ok reply, l.answered reply s) := by
  have hproc := processClientRequest_send hA hs hwf hdid (ivs l.rd.sendSeq).1 (ivs l.nd.sendSeq).2
  simp only [call, hup, if_true, hproc]
  cases hout : req.outcome l.nd.deviceID l.nd.storage with
  | error e => rfl
  | ok r =>
    obtain ⟨reply, buf, s⟩ := r
    simp only [receive_response hA hs hwf hdid hout]
    rfl

lemma call_down (hdown : l.up = false) :
    l.call A ivs req = (.error .recvFailed,
      { l with rd := (l.rd.send A (ivs l.rd.sendSeq).1 req).2 }) := by
  simp [call, hdown]

structure Ready (l : RemoteLink) : Prop extends l.Synced where
  up : l.up = true
  did_eq : l.rd.deviceID = l.nd.deviceID

lemma Ready.call_ok (ivs : UInt32 → Iv × Iv) (hA : Aead.Correct A) (hr : l.Ready)
    (hwf : req.WellFormed) {reply : Reply} {buf : List UInt8} {s : DeviceStorage}
    (hout : req.outcome l.nd.deviceID l.nd.storage = .ok (reply, buf, s)) :
    l.call A ivs req = (.ok reply, l.answered reply s) := by
  simp only [call_eq ivs hA hr.up hr.toSynced hwf (.inr hr.did_eq), hout]

lemma Ready.answered {reply : Reply} {buf : List UInt8} {s s' : DeviceStorage} (hr : l.Ready)
    (hout : req.outcome l.nd.deviceID s' = .ok (reply, buf, s)) : (l.answered reply s).Ready := by
  refine ⟨hr.toSynced.answered reply s, rfl, ?_⟩
  cases reply with
  | topo did nblks =>
    cases req with
    | getTopo =>
      cases hout
      rfl
    | getBlock blkid => cases hout
    | putBlock blkid buf =>
      simp only [Request.outcome] at hout
      split_ifs at hout
      cases hout
    | getBlocks ids =>
      simp only [Request.outcome] at hout
      split_ifs at hout
      cases hout
    | putBlocks blks => cases hout
  | block blk => exact hr.did_eq
  | done => exact hr.did_eq
  | blocks blks => exact hr.did_eq

theorem connect_ready (ivs : UInt32 → Iv × Iv) (hA : Aead.Correct A) {nd : NetworkDevice} (hsend : nd.sendSeq = 0)
    (hrecv : nd.recvSeq = 0) : (connect A ivs nd).Ready ∧ (connect A ivs nd).nd.storage = nd.storage := by
  have hs : (⟨RemoteDevice.init, nd, true⟩ : RemoteLink).Synced := ⟨hrecv.symm, hsend.symm⟩
  have hcall : call A ivs ⟨RemoteDevice.init, nd, true⟩ .getTopo = _ :=
    call_eq ivs hA rfl hs trivial (.inl rfl)
  rw [connect, hcall]
  exact ⟨⟨hs.answered _ _, rfl, rfl⟩, rfl⟩

lemma connect_numBlocks (ivs : UInt32 → Iv × Iv) (hA : Aead.Correct A) {nd : NetworkDevice}
    (hsend : nd.sendSeq = 0) (hrecv : nd.recvSeq = 0) :
    (connect A ivs nd).rd.numBlocks = nd.storage.numBlocks := by
  have hs : (⟨RemoteDevice.init, nd, true⟩ : RemoteLink).Synced := ⟨hrecv.symm, hsend.symm⟩
  have hcall : call A ivs ⟨RemoteDevice.init, nd, true⟩ .getTopo = _ :=
    call_eq ivs hA rfl hs trivial (.inl rfl)
  rw [connect, hcall]
  rfl

end RemoteLink

end Bfs.Device
