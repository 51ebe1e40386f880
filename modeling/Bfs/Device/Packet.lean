import Bfs.Lib.LittleEndian
import Bfs.Lib.Fallible
import Bfs.Lib.Aead
import Bfs.Fs.Layout

/-! Packets between a remote device and its network device. A packet is a header and data, padded and
encrypted with the sequence number as associated data, between the IV and the MAC. -/
namespace Bfs.Device
open ByteSeq LittleEndian Fallible
open Bfs.Fs (Iv Mac ivLen macLen)

/-- `bfs_device_msg_t`. -/
inductive DeviceMsg
  | getTopo
  | getBlock
  | putBlock
  | getBlocks
  | putBlocks
  | putBlockTagged
  | getBlockTagged
  deriving DecidableEq, Repr

def DeviceMsg.code : DeviceMsg → UInt8
  | .getTopo => 0
  | .getBlock => 1
  | .putBlock => 2
  | .getBlocks => 3
  | .putBlocks => 4
  | .putBlockTagged => 5
  | .getBlockTagged => 6

inductive DevErr
  | headerUnderflow
  | trailerUnderflow
  | badPadding (sz : ℕ)
  | macFailure
  | lengthMismatch
  | badRequest
  | badLength
  | deviceMismatch
  | unknownCommand
  | nullAccess
  | recvFailed
  | badResponse
  | blockMismatch
  | countMismatch
  | failed
  | localFailed
  | shortBuffer
  deriving DecidableEq, Repr

def DevErr.message : DevErr → Option String
  | .headerUnderflow => some "Flexible buffer remove header underflow"
  | .trailerUnderflow => some "Flexible buffer remove trailer underflow"
  | .badPadding sz => some ("Bad PKCS#7 padding, sz=" ++ toString sz)
  | .macFailure => some "gcrypt MAC verification failure: "
  | .localFailed => some "Failed putting block in local device"
  | _ => none

section FlexBuffer

/-- `bfsFlexibleBuffer::removeHeader`: the header and what is left. -/
def removeHeader (len : ℕ) (buf : List UInt8) : Except DevErr (List UInt8 × List UInt8) :=
  if len ≤ buf.length then .ok (buf.take len, buf.drop len) else .error .headerUnderflow

/-- `bfsFlexibleBuffer::removeTrailer`, where only what is left is used. -/
def removeTrailer (len : ℕ) (buf : List UInt8) : Except DevErr (List UInt8) :=
  if len ≤ buf.length then .ok (buf.take (buf.length - len)) else .error .trailerUnderflow

lemma removeHeader_append {len : ℕ} {front : List UInt8} (hlen : front.length = len)
    (rest : List UInt8) : removeHeader len (front ++ rest) = .ok (front, rest) := by
  subst hlen
  simp [removeHeader]

lemma removeTrailer_append {len : ℕ} {back : List UInt8} (hlen : back.length = len)
    (front : List UInt8) : removeTrailer len (front ++ back) = .ok front := by
  subst hlen
  simp [removeTrailer]

end FlexBuffer

section Padding

/-- `getBlocksize` of the cipher. -/
def blocksize : ℕ := 16

def padSz (len : ℕ) : ℕ := if len % blocksize = 0 then blocksize else blocksize - len % blocksize

def addPKCS7Padding (buf : List UInt8) : List UInt8 :=
  buf ++ List.replicate (padSz buf.length) (UInt8.ofNat (padSz buf.length))

def removePKCS7Padding (buf : List UInt8) : Except DevErr (List UInt8) :=
  match buf.getLast? with
  | none => .error .trailerUnderflow
  | some sz => if blocksize < sz.toNat then .error (.badPadding sz.toNat) else removeTrailer sz.toNat buf

lemma padSz_pos (len : ℕ) : 0 < padSz len := by
  unfold padSz blocksize
  split_ifs <;> omega

lemma padSz_le (len : ℕ) : padSz len ≤ blocksize := by
  unfold padSz blocksize
  split_ifs <;> omega

@[simp] theorem removePKCS7Padding_add (buf : List UInt8) :
    removePKCS7Padding (addPKCS7Padding buf) = .ok buf := by
  have hpos := padSz_pos buf.length
  have hle := padSz_le buf.length
  have hlast : (addPKCS7Padding buf).getLast? = some (UInt8.ofNat (padSz buf.length)) := by
    rw [addPKCS7Padding, List.getLast?_append_of_ne_nil _ (by simp [hpos.ne']),
      List.getLast?_replicate, if_neg hpos.ne']
  have hnat : (UInt8.ofNat (padSz buf.length)).toNat = padSz buf.length := by
    rw [UInt8.toNat_ofNat', Nat.mod_eq_of_lt]
    unfold blocksize at hle
    omega
  simp only [removePKCS7Padding, hlast, hnat, if_neg hle.not_gt]
  exact removeTrailer_append (List.length_replicate) buf

end Padding

abbrev PacketKey := Aead.Scheme UInt32 Iv (List UInt8) (List UInt8) Mac

/-- `bfsSecAssociation::encryptData` with a MAC. -/
def encryptData (A : PacketKey) (iv : Iv) (seq : UInt32) (buf : List UInt8) : List UInt8 :=
  let sealed := A.enc seq iv (addPKCS7Padding buf)
  iv.toList ++ sealed.1 ++ sealed.2.toList

lemma length_take_iv {pkt : List UInt8} (hiv : ¬pkt.length - macLen < ivLen) :
    (pkt.take ivLen).length = ivLen := by
  rw [List.length_take]
  omega

lemma length_drop_mac {pkt : List UInt8} (hmac : ¬pkt.length < macLen) :
    (pkt.drop (pkt.length - macLen)).length = macLen := by
  rw [List.length_drop]
  omega

/-- `bfsSecAssociation::decryptData` with a MAC. -/
def decryptData (A : PacketKey) (seq : UInt32) (pkt : List UInt8) : Except DevErr (List UInt8) :=
  if hmac : pkt.length < macLen then .error .trailerUnderflow
  else if hiv : pkt.length - macLen < ivLen then .error .headerUnderflow
  else
    let iv : Iv := ⟨pkt.take ivLen, length_take_iv hiv⟩
    let mac : Mac := ⟨pkt.drop (pkt.length - macLen), length_drop_mac hmac⟩
    match A.dec seq iv ((pkt.take (pkt.length - macLen)).drop ivLen) mac with
    | none => .error .macFailure
    | some buf => removePKCS7Padding buf

lemma decryptData_parts (A : PacketKey) (seq : UInt32) (iv : Iv) (ct : List UInt8) (mac : Mac) :
    decryptData A seq (iv.toList ++ ct ++ mac.toList) =
      match A.dec seq iv ct mac with
      | none => .error .macFailure
      | some buf => removePKCS7Padding buf := by
  have hlen : (iv.toList ++ ct ++ mac.toList).length = ivLen + ct.length + macLen := by
    rw [List.length_append, List.length_append, iv.length_toList, mac.length_toList]
  have hct : (iv.toList ++ ct ++ mac.toList).take (ivLen + ct.length) = iv.toList ++ ct := by
    rw [List.take_left' (by simp [iv.length_toList])]
  have hiv : (iv.toList ++ ct ++ mac.toList).take ivLen = iv.toList := by
    rw [List.append_assoc, List.take_left' iv.length_toList]
  have hmac : (iv.toList ++ ct ++ mac.toList).drop (ivLen + ct.length) = mac.toList := by
    rw [List.drop_left' (by simp [iv.length_toList])]
  have hbody : (iv.toList ++ ct).drop ivLen = ct := List.drop_left' iv.length_toList
  have hsub : ivLen + ct.length + macLen - macLen = ivLen + ct.length := by omega
  unfold decryptData
  rw [dif_neg (by omega), dif_neg (by omega)]
  simp only [hlen, hsub, hct, hiv, hmac, hbody]

theorem decryptData_encryptData {A : PacketKey} (hA : Aead.Correct A) (iv : Iv) (seq : UInt32)
    (buf : List UInt8) : decryptData A seq (encryptData A iv seq buf) = .ok buf := by
  simp only [encryptData, decryptData_parts, hA seq iv, removePKCS7Padding_add]

theorem eq_of_decryptData {A : PacketKey} (hA : Aead.Committing A) {iv : Iv} {seq seq' : UInt32}
    {buf buf' : List UInt8} (hdec : decryptData A seq' (encryptData A iv seq buf) = .ok buf') :
    seq' = seq ∧ buf' = buf := by
  have hseq : seq' = seq := by
    simp only [encryptData, decryptData_parts] at hdec
    cases hopen : A.dec seq' iv (A.enc seq iv (addPKCS7Padding buf)).1
        (A.enc seq iv (addPKCS7Padding buf)).2 with
    | none =>
      rw [hopen] at hdec
      cases hdec
    | some msg => exact hA.id_eq _ _ _ _ _ hopen
  subst hseq
  rw [decryptData_encryptData hA.correct] at hdec
  exact ⟨rfl, (Except.ok.inj hdec).symm⟩

section Counters

lemma uint32_ofNat_inj {i k : ℕ} (hi : i < 2^32) (hk : k < 2^32)
    (heq : UInt32.ofNat i = UInt32.ofNat k) : i = k := by
  have hnat := congrArg UInt32.toNat heq
  rwa [UInt32.toNat_ofNat', UInt32.toNat_ofNat', Nat.mod_eq_of_lt hi, Nat.mod_eq_of_lt hk] at hnat

lemma uint32_ofNat_succ (k : ℕ) : UInt32.ofNat k + 1 = UInt32.ofNat (k+1) :=
  (UInt32.ofNat_add k 1).symm

lemma prefix_concat {α : Type*} {xs ys : List α} {y : α} (hp : xs <+: ys)
    (hy : ys[xs.length]? = some y) : xs ++ [y] <+: ys := by
  obtain ⟨t, rfl⟩ := hp
  rw [List.getElem?_append_right le_rfl, Nat.sub_self] at hy
  cases t with
  | nil => cases hy
  | cons z t =>
    cases hy
    exact ⟨t, by simp⟩

end Counters

section SeqKey

def macOfSeq (seq : UInt32) : Mac :=
  ⟨u32 seq ++ List.replicate (macLen - 4) 0, by
    rw [List.length_append, length_u32, List.length_replicate]
    rfl⟩

lemma macOfSeq_injective : Function.Injective macOfSeq := by
  intro seq seq' heq
  have hbytes : u32 seq = u32 seq' := List.append_cancel_right (congrArg Buf.toList heq)
  rw [← ofU32_u32 seq, hbytes, ofU32_u32]

def seqKey : PacketKey := Aead.tagged macOfSeq

lemma seqKey_committing : Aead.Committing seqKey := Aead.tagged_committing macOfSeq_injective

end SeqKey

section Header

structure Header where
  usr : UInt32
  did : UInt32
  cmd : UInt8
  ack : Bool
  deriving DecidableEq, Repr

def addHeaders (h : Header) (buf : List UInt8) : List UInt8 :=
  u32 h.usr ++ (u32 h.did ++ ([h.cmd] ++ ([if h.ack then 1 else 0] ++
    (u32 (UInt32.ofNat buf.length) ++ buf))))

def removeHeaders (buf : List UInt8) : Except DevErr (Header × List UInt8) := do
  let (usr, buf) ← removeHeader 4 buf
  let (did, buf) ← removeHeader 4 buf
  let (ccmd, buf) ← removeHeader 1 buf
  let (ack, buf) ← removeHeader 1 buf
  let (dlen, buf) ← removeHeader 4 buf
  if buf.length ≠ (ofU32 dlen).toNat then .error .lengthMismatch
  else .ok (⟨ofU32 usr, ofU32 did, ccmd.headD 0, ack.headD 0 != 0⟩, buf)

lemma removeHeaders_add (h : Header) (buf : List UInt8) :
    removeHeaders (addHeaders h buf) =
      if buf.length < 2^32 then .ok (h, buf) else .error .lengthMismatch := by
  have hdlen : (ofU32 (u32 (UInt32.ofNat buf.length))).toNat = buf.length % 2^32 := by
    rw [ofU32_u32, UInt32.toNat_ofNat']
  have hfits : buf.length = buf.length % 2^32 ↔ buf.length < 2^32 := by omega
  have hh : (⟨ofU32 (u32 h.usr), ofU32 (u32 h.did), [h.cmd].headD 0,
      [if h.ack then (1 : UInt8) else 0].headD 0 != 0⟩ : Header) = h := by
    cases h with
    | mk usr did cmd ack => cases ack <;> simp
  simp only [removeHeaders, addHeaders, removeHeader_append (length_u32 _),
    removeHeader_append List.length_singleton, ok_bind, hdlen, ne_eq, hfits, ite_not, hh]

end Header

/-- `marshalBfsDevicePacket`. -/
def marshalBfsDevicePacket (A : PacketKey) (iv : Iv) (h : Header) (seq : UInt32)
    (buf : List UInt8) : List UInt8 :=
  encryptData A iv seq (addHeaders h buf)

/-- `unmarshalBfsDevicePacket`. -/
def unmarshalBfsDevicePacket (A : PacketKey) (seq : UInt32) (pkt : List UInt8) :
    Except DevErr (Header × List UInt8) := do
  let buf ← decryptData A seq pkt
  removeHeaders buf

theorem unmarshal_marshal {A : PacketKey} (hA : Aead.Correct A) (iv : Iv) (h : Header)
    (seq : UInt32) {buf : List UInt8} (hlen : buf.length < 2^32) :
    unmarshalBfsDevicePacket A seq (marshalBfsDevicePacket A iv h seq buf) = .ok (h, buf) := by
  simp only [unmarshalBfsDevicePacket, marshalBfsDevicePacket, decryptData_encryptData hA, ok_bind,
    removeHeaders_add, if_pos hlen]

theorem eq_of_unmarshal {A : PacketKey} (hA : Aead.Committing A) {iv : Iv} {h h' : Header}
    {seq seq' : UInt32} {buf buf' : List UInt8}
    (hun : unmarshalBfsDevicePacket A seq' (marshalBfsDevicePacket A iv h seq buf) = .ok (h', buf')) :
    seq' = seq ∧ h' = h ∧ buf' = buf := by
  obtain ⟨plain, hdec, hhead⟩ := bind_eq_ok.mp hun
  obtain ⟨hseq, rfl⟩ := eq_of_decryptData hA hdec
  rw [removeHeaders_add] at hhead
  split_ifs at hhead with hlt
  cases hhead
  exact ⟨hseq, rfl, rfl⟩

end Bfs.Device
