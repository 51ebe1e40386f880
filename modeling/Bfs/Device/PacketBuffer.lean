import Bfs.Utils.SecAssociation

/-! Device packets in flexible buffers: the packet is made by putting the headers before the data and
encrypting in place, and its bytes are those of `marshalBfsDevicePacket` on byte sequences. -/
namespace Bfs.Device.PacketBuffer
open ByteSeq LittleEndian Fallible
open Bfs.Utils Bfs.Utils.SecAssociation
open Bfs.Fs (Iv Mac ivLen macLen)

inductive PacketErr
  | sa (e : SaErr)
  | lengthMismatch
  deriving DecidableEq, Repr

def liftSa {α : Type} : Except SaErr α → Except PacketErr α
  | .ok a => .ok a
  | .error e => .error (.sa e)

def addFields (buf : FlexData) : List (List UInt8) → Except FlexErr FlexData
  | [] => .ok buf
  | field::fields => do
    let buf ← buf.addHeader field
    addFields buf fields

/-- `marshalBfsDevicePacket`: `buf << dlen << ack << ccmd << did << usr`, then encryption with a MAC. -/
def marshal (build : Build) (K : CryptoKey) (iv : Iv) (h : Header) (seq : UInt32) (buf : FlexData) :
    Except SaErr FlexData := do
  let buf ← lift (addFields buf
    [u32 buf.layout.length, [if h.ack then 1 else 0], [h.cmd], u32 h.did, u32 h.usr])
  SecAssociation.encryptData build K iv buf (u32 seq) true

/-- `unmarshalBfsDevicePacket`: decryption, then `buf >> usr >> did >> ccmd >> ack >> dlen`. -/
def unmarshal (build : Build) (K : CryptoKey) (seq : UInt32) (buf : FlexData) :
    Except PacketErr (Header × FlexData) := do
  let buf ← liftSa (SecAssociation.decryptData build K buf (u32 seq) true)
  let (usr, buf) ← liftSa (lift (buf.removeHeader 4))
  let (did, buf) ← liftSa (lift (buf.removeHeader 4))
  let (ccmd, buf) ← liftSa (lift (buf.removeHeader 1))
  let (ack, buf) ← liftSa (lift (buf.removeHeader 1))
  let (dlen, buf) ← liftSa (lift (buf.removeHeader 4))
  if buf.layout.length ≠ ofU32 dlen then .error .lengthMismatch
  else .ok (⟨ofU32 usr, ofU32 did, ccmd.headD 0, ack.headD 0 != 0⟩, buf)

section Fields

variable {d : FlexData} {xs : List UInt8}

theorem holds_addFields (h : d.Holds xs) (fields : List (List UInt8))
    (hfits : d.need + fields.flatten.length < 2^32) :
    ∃ d', addFields d fields = .ok d' ∧ d'.Holds (fields.reverse.flatten ++ xs) ∧
      d'.need ≤ d.need + fields.flatten.length := by
  induction fields generalizing d xs with
  | nil => exact ⟨d, rfl, h, by simp⟩
  | cons field fields ih =>
    rw [List.flatten_cons, List.length_append] at hfits ⊢
    obtain ⟨d₁, hadd, hholds, hneed⟩ := FlexData.holds_addHeader h (by omega :
      d.need + field.length < 2^32)
    obtain ⟨d', hall, hholds', hneed'⟩ := ih hholds (by omega)
    refine ⟨d', by rw [addFields, hadd, ok_bind, hall], ?_, by omega⟩
    rw [List.reverse_cons, List.flatten_append, List.flatten_singleton, List.append_assoc]
    exact hholds'

lemma addFields_of_room (h : d.Holds xs) {fields : List (List UInt8)}
    (hroom : fields.flatten.length ≤ d.layout.hlength.toNat) :
    ∃ d', addFields d fields = .ok d' ∧ d'.Holds (fields.reverse.flatten ++ xs) ∧
      d'.layout = fields.foldl (fun b field => b.takeHeader (UInt32.ofNat field.length)) d.layout ∧
      d'.layout.hlength.toNat = d.layout.hlength.toNat - fields.flatten.length := by
  induction fields generalizing d xs with
  | nil => exact ⟨d, rfl, h, rfl, rfl⟩
  | cons field fields ih =>
    rw [List.flatten_cons, List.length_append] at hroom
    have hlt := d.layout.hlength.toNat_lt
    have hlen := FlexData.toNat_dataLen (by omega : field.length < 2^32)
    have hle : UInt32.ofNat field.length ≤ d.layout.hlength := by
      rw [UInt32.le_iff_toNat_le]
      omega
    obtain ⟨d₁, hadd, hholds, -, hlayout⟩ := FlexData.holds_addHeader_of_le h hlen hle
    have hsub : d₁.layout.hlength.toNat = d.layout.hlength.toNat - field.length := by
      rw [hlayout, FlexBuf.takeHeader, UInt32.toNat_sub_of_le _ _ hle, hlen]
    obtain ⟨d', hall, hholds', hlayout', hleft⟩ := ih hholds (by omega)
    refine ⟨d', by rw [addFields, hadd, ok_bind, hall], ?_, ?_, ?_⟩
    · rw [List.reverse_cons, List.flatten_append, List.flatten_singleton, List.append_assoc]
      exact hholds'
    · rw [hlayout', hlayout, List.foldl_cons]
    · rw [hleft, hsub, List.flatten_cons, List.length_append]
      omega

lemma removeHeader_field {field : List UInt8} (h : d.Holds (field ++ xs)) {len : UInt32}
    (hlen : field.length = len.toNat) (hne : field ≠ []) :
    ∃ d', d.removeHeader len = .ok (field, d') ∧ d'.Holds xs := by
  have hbuf := h.allocated (List.append_ne_nil_of_left_ne_nil hne xs)
  obtain ⟨d', hremove, hholds, -, -⟩ := FlexData.holds_removeHeader h hlen hbuf
  exact ⟨d', hremove, hholds⟩

lemma u32_ne_nil (x : UInt32) : u32 x ≠ [] := by
  apply List.ne_nil_of_length_pos
  rw [length_u32]
  decide

end Fields

section Keys

def packetKey (K : CryptoKey) : PacketKey where
  enc := fun seq iv msg =>
    (K.encrypt (u32 seq) iv.toList msg, K.tag (u32 seq) iv.toList (K.encrypt (u32 seq) iv.toList msg))
  dec := fun seq iv ct tag =>
    if tag = K.tag (u32 seq) iv.toList ct then some (K.decrypt (u32 seq) iv.toList ct) else none

def BindsSeq (K : CryptoKey) : Prop :=
  ∀ seq seq' iv ct, K.tag (u32 seq) iv ct = K.tag (u32 seq') iv ct → seq = seq'

lemma message_eq_marshal (K : CryptoKey) (iv : Iv) (h : Header) (seq : UInt32) (xs : List UInt8) :
    message K (u32 seq) iv true (addHeaders h xs) =
      marshalBfsDevicePacket (packetKey K) iv h seq xs := rfl

end Keys

section Packets

variable {K : CryptoKey} {build : Build} {d : FlexData} {xs : List UInt8}

lemma aadFits_seq (build : Build) (seq : UInt32) : AadFits build (u32 seq) := by
  intro _
  rw [length_u32]
  norm_num

theorem holds_marshal (K : CryptoKey) (build : Build) (iv : Iv) (h : Header) (seq : UInt32) (hd : d.Holds xs)
    (hfits : d.need + 58 < 2^32) :
    ∃ pkt, marshal build K iv h seq d = .ok pkt ∧
      pkt.Holds (marshalBfsDevicePacket (packetKey K) iv h seq xs) := by
  have hlen : d.layout.length = UInt32.ofNat xs.length := by
    rw [hd.length, UInt32.ofNat_toNat]
  obtain ⟨d₁, hadd, hholds, hneed⟩ := holds_addFields hd
    [u32 d.layout.length, [if h.ack then 1 else 0], [h.cmd], u32 h.did, u32 h.usr] (by simp; omega)
  simp only [List.flatten_cons, List.flatten_nil, List.length_append, length_u32, List.length_singleton,
    List.length_nil] at hneed
  have hbytes : [u32 d.layout.length, [if h.ack then 1 else 0], [h.cmd], u32 h.did,
      u32 h.usr].reverse.flatten ++ xs = addHeaders h xs := by
    simp [addHeaders, hlen]
  rw [hbytes] at hholds
  have hblock : blocksize = 16 := rfl
  have hiv : ivLen = 12 := rfl
  have htag : macLen = 16 := rfl
  obtain ⟨pkt, henc, hpkt⟩ : ∃ e, SecAssociation.encryptData build K iv d₁ (u32 seq) true = .ok e ∧
      e.Holds (message K (u32 seq) iv true (addHeaders h xs)) :=
    holds_encryptData (aadFits_seq build seq) hholds (by omega)
  rw [message_eq_marshal] at hpkt
  refine ⟨pkt, ?_, hpkt⟩
  rw [marshal, hadd, lift_ok, ok_bind, henc]

@[simp] lemma liftSa_ok {α : Type} (a : α) : liftSa (.ok a : Except SaErr α) = .ok a := rfl

theorem unmarshal_packet (hK : K.Inverts) {iv : Iv} {h : Header} {seq : UInt32}
    (hd : d.Holds (marshalBfsDevicePacket (packetKey K) iv h seq xs)) :
    ∃ p, unmarshal build K seq d = .ok (h, p) ∧ p.Holds xs := by
  rw [← message_eq_marshal] at hd
  obtain ⟨d₀, hdec, hholds₀⟩ := holds_decryptData hK (aadFits_seq build seq) (.inl rfl) hd
  have hfour : ∀ x : UInt32, (u32 x).length = (4 : UInt32).toNat := fun x => length_u32 x
  obtain ⟨d₁, h₁, hholds₁⟩ := removeHeader_field hholds₀ (hfour _) (u32_ne_nil _)
  obtain ⟨d₂, h₂, hholds₂⟩ := removeHeader_field hholds₁ (hfour _) (u32_ne_nil _)
  obtain ⟨d₃, h₃, hholds₃⟩ := removeHeader_field hholds₂ (rfl : _ = (1 : UInt32).toNat)
    (List.cons_ne_nil _ _)
  obtain ⟨d₄, h₄, hholds₄⟩ := removeHeader_field hholds₃ (rfl : _ = (1 : UInt32).toNat)
    (List.cons_ne_nil _ _)
  obtain ⟨d₅, h₅, hholds₅⟩ := removeHeader_field hholds₄ (hfour _) (u32_ne_nil _)
  have hlen : d₅.layout.length = UInt32.ofNat xs.length := by
    rw [hholds₅.length, UInt32.ofNat_toNat]
  have hhead : (⟨ofU32 (u32 h.usr), ofU32 (u32 h.did), [h.cmd].headD 0,
      [if h.ack then (1 : UInt8) else 0].headD 0 != 0⟩ : Header) = h := by
    cases h with
    | mk usr did cmd ack => cases ack <;> simp
  refine ⟨d₅, ?_, hholds₅⟩
  simp only [unmarshal, hdec, h₁, h₂, h₃, h₄, h₅, lift_ok, liftSa_ok, ok_bind, ofU32_u32, hlen, ne_eq,
    not_true_eq_false, if_false]
  rw [ofU32_u32, ofU32_u32] at hhead
  rw [hhead]

theorem unmarshal_other_seq (hK : BindsSeq K) {iv : Iv} {h : Header} {seq seq' : UInt32}
    (hseq : seq' ≠ seq) (hd : d.Holds (marshalBfsDevicePacket (packetKey K) iv h seq xs)) :
    unmarshal build K seq' d = .error (.sa .macFailure) := by
  rw [← message_eq_marshal] at hd
  obtain ⟨d₁, hparts, hholds⟩ := holds_takeParts hd
  have htag : (K.tag (u32 seq) iv.toList (cipherText K (u32 seq) iv (addHeaders h xs))).toList ≠
      (K.tag (u32 seq') iv.toList (cipherText K (u32 seq) iv (addHeaders h xs))).toList := by
    intro heq
    exact hseq (hK seq seq' _ _ (Buf.ext heq)).symm
  rw [if_pos rfl] at hparts
  simp only [unmarshal, SecAssociation.decryptData, hparts, ok_bind,
    readAad_of_fits (aadFits_seq build seq'), readData_of_holds hholds, openData, if_neg htag,
    error_bind]
  rfl

end Packets

section RoundTrip

/-- A packet is unmarshalled to its header and its data with its own sequence number, and with no other
one, as long as its size fits into 32 bits. -/
theorem device_packet_round_trip {K : CryptoKey} (hK : K.Inverts) (hbind : BindsSeq K) (build : Build)
    (iv : Iv) (h : Header) (seq : UInt32) {d : FlexData} {xs : List UInt8} (hd : d.Holds xs)
    (hfits : d.need + 58 < 2^32) :
    ∃ pkt bytes, marshal build K iv h seq d = .ok pkt ∧ pkt.Holds bytes ∧
      ∀ e : FlexData, e.Holds bytes →
        (∃ p, unmarshal build K seq e = .ok (h, p) ∧ p.Holds xs) ∧
        ∀ seq', seq' ≠ seq → ∃ err, unmarshal build K seq' e = .error err := by
  obtain ⟨pkt, hmarshal, hpkt⟩ := holds_marshal K build iv h seq hd hfits
  refine ⟨pkt, _, hmarshal, hpkt, ?_⟩
  intro e he
  refine ⟨unmarshal_packet hK he, ?_⟩
  intro seq' hseq
  exact ⟨_, unmarshal_other_seq hbind hseq he⟩

def namingKey : CryptoKey where
  encrypt := fun _ _ msg => msg
  decrypt := fun _ _ ct => ct
  tag := fun aad _ _ => ⟨aad.take 4 ++ List.replicate (macLen - (aad.take 4).length) 0, by
    have hle : (aad.take 4).length ≤ 4 := List.length_take_le 4 aad
    have hmac : macLen = 16 := rfl
    rw [List.length_append, List.length_replicate]
    omega⟩
  length_encrypt := plainKey.length_encrypt
  length_decrypt := plainKey.length_decrypt

lemma namingKey_inverts : namingKey.Inverts := fun _ _ _ => rfl

lemma namingKey_binds : BindsSeq namingKey := by
  intro seq seq' iv ct heq
  have htake : ∀ x : UInt32, (u32 x).take 4 = u32 x := fun x => List.take_of_length_le (length_u32 x).le
  have hbytes := congrArg Buf.toList heq
  simp only [namingKey, htake, length_u32] at hbytes
  rw [← ofU32_u32 seq, List.append_cancel_right hbytes, ofU32_u32]

def plainHeader : Header := ⟨1, 2, 3, true⟩

theorem device_packet_round_trip_empty :
    namingKey.Inverts ∧ BindsSeq namingKey ∧ FlexData.new.Holds [] ∧ FlexData.new.need + 58 < 2^32 ∧
      ∃ pkt bytes, marshal .host namingKey SecAssociation.zeroIv plainHeader 7 FlexData.new = .ok pkt ∧
        pkt.Holds bytes ∧ ∀ e : FlexData, e.Holds bytes →
          (∃ p, unmarshal .host namingKey 7 e = .ok (plainHeader, p) ∧ p.Holds []) ∧
          ∀ seq', seq' ≠ 7 → ∃ err, unmarshal .host namingKey seq' e = .error err :=
  ⟨namingKey_inverts, namingKey_binds, FlexData.holds_new, by decide,
    device_packet_round_trip namingKey_inverts namingKey_binds .host SecAssociation.zeroIv plainHeader 7
      FlexData.holds_new (by decide)⟩

def crowdedLayout : FlexBuf := ⟨4294967295, 64, 4294967231, 0⟩

lemma holds_crowded {bytes : List UInt8} (hlen : bytes.length = 4294967295) :
    FlexData.Holds ⟨crowdedLayout, some bytes⟩ (bytes.drop 64) := by
  refine ⟨⟨bytes.take 64, [], ?_, ?_, rfl⟩, ?_, hlen⟩
  · rw [List.append_nil, List.take_append_drop]
    rfl
  · rw [List.length_take, hlen]
    rfl
  · rw [List.length_drop, hlen]
    rfl

def headedLayout : FlexBuf := ⟨4294967295, 50, 4294967245, 0⟩

lemma encryptData_headed (K : CryptoKey) (iv : Iv) (seq : UInt32) {bytes : List UInt8}
    (hlen : bytes.length = 4294967295) :
    SecAssociation.encryptData .host K iv ⟨headedLayout, some bytes⟩ (u32 seq) true =
      .error (.flex .outside) := by
  have hthree : UInt32.ofNat [(3 : UInt8), 3, 3].length = 3 := rfl
  have hlay : (headedLayout.resizeAllocation headedLayout.hlength headedLayout.length
      (3 + FlexBuf.defaultPad)).1 = ⟨4294967295, 2147483681, 4294967245, 2147483665⟩ := by
    decide +kernel
  have hsz : headedLayout.hlength + headedLayout.length + (3 + FlexBuf.defaultPad) ≤
      headedLayout.allocation := by decide +kernel
  have hresize : FlexData.resizeAllocation ⟨headedLayout, some bytes⟩ headedLayout.hlength
      headedLayout.length (3 + FlexBuf.defaultPad) =
      .ok ⟨⟨4294967295, 2147483681, 4294967245, 2147483665⟩, some bytes⟩ := by
    rw [FlexData.resizeAllocation_centred hsz]
    simp only [hlay]
  have hroom : headedLayout.tlength < 3 := by decide +kernel
  have hstart : ((2147483681 : UInt32) + 4294967245).toNat = 2147483630 := by decide +kernel
  have htake : FlexBuf.takeTrailer ⟨4294967295, 2147483681, 4294967245, 2147483665⟩ 3 =
      ⟨4294967295, 2147483681, 4294967248, 2147483662⟩ := by
    decide +kernel
  have hadd : ∃ bytes', FlexData.addTrailer ⟨headedLayout, some bytes⟩ [3, 3, 3] =
      .ok ⟨⟨4294967295, 2147483681, 4294967248, 2147483662⟩, some bytes'⟩ ∧
        bytes'.length = 4294967295 := by
    have hin : 2147483630 + [(3 : UInt8), 3, 3].length ≤ bytes.length := by
      rw [hlen]
      decide
    refine ⟨splice bytes 2147483630 [3, 3, 3], ?_, by rw [length_splice_inside _ _ _ hin, hlen]⟩
    simp only [FlexData.addTrailer, hthree, if_pos hroom, hresize, ok_bind, hstart]
    rw [store_some hin, ok_bind]
    simp only [FlexData.withLayout, htake]
  obtain ⟨bytes', hadd, hlen'⟩ := hadd
  have hpadsz : padSz headedLayout.length.toNat = 3 := by decide +kernel
  have hpadding : List.replicate 3 (UInt8.ofNat 3) = [3, 3, 3] := rfl
  have hpad : SecAssociation.addPKCS7Padding ⟨headedLayout, some bytes⟩ =
      .ok ⟨⟨4294967295, 2147483681, 4294967248, 2147483662⟩, some bytes'⟩ := by
    simp only [SecAssociation.addPKCS7Padding, hpadsz, hpadding, hadd, lift_ok]
  have hread : readData ⟨⟨4294967295, 2147483681, 4294967248, 2147483662⟩, some bytes'⟩ =
      .error (.flex .outside) := by
    apply if_neg
    change ¬2147483681 + 4294967248 ≤ bytes'.length
    omega
  simp only [SecAssociation.encryptData, hpad, ok_bind, readAad_of_fits (aadFits_seq .host seq),
    hread, error_bind]

/-- A payload that leaves no room in 32 bits for the padding cannot be marshalled. -/
theorem crowded_buffer_not_marshalled :
    ∃ (d : FlexData) (xs : List UInt8), d.Holds xs ∧
      marshal .host namingKey SecAssociation.zeroIv plainHeader 7 d = .error (.flex .outside) := by
  obtain ⟨bytes, hlen⟩ : ∃ bytes : List UInt8, bytes.length = 4294967295 :=
    ⟨List.replicate 4294967295 0, List.length_replicate⟩
  refine ⟨⟨crowdedLayout, some bytes⟩, bytes.drop 64, holds_crowded hlen, ?_⟩
  have hroom : [u32 crowdedLayout.length, [if plainHeader.ack then 1 else 0],
      [plainHeader.cmd], u32 plainHeader.did, u32 plainHeader.usr].flatten.length ≤
      crowdedLayout.hlength.toNat := by
    decide +kernel
  obtain ⟨d', hadd, hholds, hlayout, -⟩ := addFields_of_room (holds_crowded hlen) hroom
  have hheaded : d'.layout = headedLayout := by
    rw [hlayout]
    simp only [List.foldl_cons, List.foldl_nil, length_u32, List.length_singleton]
    decide +kernel
  have hsize := hholds.size
  have hlength := hholds.length
  rw [hheaded] at hsize hlength
  obtain ⟨layout, buffer⟩ := d'
  cases buffer with
  | none =>
    exact absurd rfl (hholds.allocated (List.ne_nil_of_length_pos (by rw [hlength]; decide +kernel)))
  | some bytes' =>
    obtain rfl : layout = headedLayout := hheaded
    rw [marshal, hadd, lift_ok, ok_bind]
    exact encryptData_headed namingKey zeroIv 7 hsize

end RoundTrip

end Bfs.Device.PacketBuffer
