import Bfs.Device.Packet
import Bfs.Utils.FlexData

/-! `bfsSecAssociation` on flexible buffers: encryption in place and into another buffer, with libgcrypt
and in the enclave. Every variant makes the same message, and every variant of decryption opens it. -/
namespace Bfs.Utils
open ByteSeq Fallible
open Bfs.Device (padSz blocksize padSz_pos padSz_le)
open Bfs.Fs (Iv Mac ivLen macLen)

/-- `bfsCryptoKey` for a cipher with associated data that keeps the length of a message. The tag depends
on the ciphertext. -/
structure CryptoKey where
  encrypt : (aad iv msg : List UInt8) → List UInt8
  decrypt : (aad iv ct : List UInt8) → List UInt8
  tag : (aad iv ct : List UInt8) → Mac
  length_encrypt : ∀ aad iv msg, (encrypt aad iv msg).length = msg.length
  length_decrypt : ∀ aad iv ct, (decrypt aad iv ct).length = ct.length

def CryptoKey.Inverts (K : CryptoKey) : Prop :=
  ∀ aad iv msg, K.decrypt aad iv (K.encrypt aad iv msg) = msg

inductive SaErr
  | flex (e : FlexErr)
  | shortBuffer
  | badPadding (sz : ℕ)
  | macFailure
  | cipherFailure
  deriving DecidableEq, Repr

namespace SecAssociation

section Calls

def lift {α : Type} : Except FlexErr α → Except SaErr α
  | .ok a => .ok a
  | .error e => .error (.flex e)

def readData (d : FlexData) : Except SaErr (List UInt8) :=
  if d.layout.hlength.toNat + d.layout.length.toNat ≤ d.mem.length then .ok d.content
  else .error (.flex .outside)

/-- The associated data as a cipher reads it. Its length goes through an `int`, which libgcrypt takes for
a `size_t`. -/
def readAad (build : Build) (aad : List UInt8) : Except SaErr (List UInt8) :=
  if build = .host ∧ 2^31 ≤ aad.length then .error (.flex .outside) else .ok aad

def addPKCS7Padding (d : FlexData) : Except SaErr FlexData :=
  let padsz := padSz d.layout.length.toNat
  lift (d.addTrailer (List.replicate padsz (UInt8.ofNat padsz)))

/-- A `char` as a `size_t`. -/
def charSize (b : UInt8) : ℕ := if b < 128 then b.toNat else 2^64 - 256 + b.toNat

def removePKCS7Padding (d : FlexData) : Except SaErr FlexData := do
  let last ← match d.mem[d.layout.hlength.toNat + (d.layout.length - 1).toNat]? with
    | none => .error (.flex .outside)
    | some b => .ok b
  let padsz := charSize last
  if blocksize < padsz then .error (.badPadding padsz)
  else
    let (_, d) ← lift (d.removeTrailer (UInt32.ofNat padsz))
    .ok d

/-- `macData`, and the same steps in the enclave. -/
def macData (d : FlexData) (mac : Mac) : Except SaErr FlexData :=
  if d.layout.length.toNat ≤ blocksize then .error .shortBuffer else lift (d.addTrailer mac.toList)

def addMac (mac : Bool) (d : FlexData) (tag : Mac) : Except SaErr FlexData :=
  if mac then macData d tag else .ok d

/-- `encryptData` in place. The enclave works on a copy. -/
def encryptData (build : Build) (K : CryptoKey) (iv : Iv) (d : FlexData) (aad : List UInt8)
    (mac : Bool) : Except SaErr FlexData := do
  let d ← addPKCS7Padding d
  let aad ← readAad build aad
  let plain ← readData d
  let ct := K.encrypt aad iv.toList plain
  let d ← lift (d.overwrite ct)
  let d ← lift (d.addHeader iv.toList)
  addMac mac d (K.tag aad iv.toList ct)

def openData (build : Build) (K : CryptoKey) (aad iv ct : List UInt8) (mac : Option (List UInt8)) :
    Except SaErr (List UInt8) :=
  match mac with
  | some tag => if tag = (K.tag aad iv ct).toList then .ok (K.decrypt aad iv ct) else .error .macFailure
  | none =>
    match build with
    | .host => .ok (K.decrypt aad iv ct)
    | .enclave => .error .cipherFailure

def takeParts (d : FlexData) (mac : Bool) :
    Except SaErr (Option (List UInt8) × List UInt8 × FlexData) := do
  if mac then
    let (tag, d) ← lift (d.removeTrailer (UInt32.ofNat macLen))
    let (iv, d) ← lift (d.removeHeader (UInt32.ofNat ivLen))
    .ok (some tag, iv, d)
  else
    let (iv, d) ← lift (d.removeHeader (UInt32.ofNat ivLen))
    .ok (none, iv, d)

/-- `decryptData` in place. -/
def decryptData (build : Build) (K : CryptoKey) (d : FlexData) (aad : List UInt8) (mac : Bool) :
    Except SaErr FlexData := do
  let (tag, iv, d) ← takeParts d mac
  let aad ← readAad build aad
  let ct ← readData d
  let plain ← openData build K aad iv ct tag
  let d ← lift (d.overwrite plain)
  removePKCS7Padding d

end Calls

section Steps

variable {d : FlexData} {xs : List UInt8}

@[simp] lemma lift_ok {α : Type} (a : α) : lift (.ok a : Except FlexErr α) = .ok a := rfl

lemma readData_of_holds (h : d.Holds xs) : readData d = .ok xs := by
  have hexact := h.exact
  have hsize := h.size
  unfold FlexBuf.Exact at hexact
  rw [readData, if_pos (by omega), h.content]

lemma holds_addPKCS7Padding (h : d.Holds xs) (hfits : d.need + blocksize < 2^32) :
    ∃ d', addPKCS7Padding d = .ok d' ∧ d'.Holds (Device.addPKCS7Padding xs) ∧
      d'.need ≤ d.need + blocksize := by
  have hle := padSz_le xs.length
  obtain ⟨d', hadd, hholds, hneed⟩ := FlexData.holds_addTrailer h (by
    rw [List.length_replicate]
    omega : d.need + (List.replicate (padSz xs.length) (UInt8.ofNat (padSz xs.length))).length < 2^32)
  rw [List.length_replicate] at hneed
  refine ⟨d', ?_, hholds, by omega⟩
  rw [addPKCS7Padding, ← h.length, hadd, lift_ok]

lemma holds_removePKCS7Padding (h : d.Holds (Device.addPKCS7Padding xs)) :
    ∃ d', removePKCS7Padding d = .ok d' ∧ d'.Holds xs ∧ d'.need ≤ d.need := by
  have hpos := padSz_pos xs.length
  have hle : padSz xs.length ≤ 16 := padSz_le xs.length
  set k := padSz xs.length with hk
  have hbyte : (UInt8.ofNat k).toNat = k := by
    rw [UInt8.toNat_ofNat', Nat.mod_eq_of_lt (by omega)]
  have hchar : charSize (UInt8.ofNat k) = k := by
    have hlt : UInt8.ofNat k < 128 := by
      rw [UInt8.lt_iff_toNat_lt, hbyte]
      exact lt_of_le_of_lt hle (by decide)
    rw [charSize, if_pos hlt, hbyte]
  obtain ⟨front, back, hmem, hfront, -⟩ := h.parts
  have hlength := h.length
  rw [Device.addPKCS7Padding, List.length_append, List.length_replicate, ← hk] at hlength
  have hone : (1 : UInt32) ≤ d.layout.length := by
    rw [UInt32.le_iff_toNat_le]
    change 1 ≤ _
    omega
  have hsub : (d.layout.length - 1).toNat = xs.length + (k - 1) := by
    rw [UInt32.toNat_sub_of_le _ _ hone]
    change _ - 1 = _
    omega
  have hlast : d.mem[d.layout.hlength.toNat + (d.layout.length - 1).toNat]? = some (UInt8.ofNat k) := by
    rw [hmem, hsub, ← hfront, List.getElem?_append_right (Nat.le_add_right _ _), Nat.add_sub_cancel_left,
      Device.addPKCS7Padding, ← hk, List.append_assoc, List.getElem?_append_right (Nat.le_add_right _ _),
      Nat.add_sub_cancel_left, List.getElem?_append_left (by rw [List.length_replicate]; omega),
      List.getElem?_replicate, if_pos (by omega)]
  have hnonempty : Device.addPKCS7Padding xs ≠ [] := by
    apply List.ne_nil_of_length_pos
    rw [Device.addPKCS7Padding, List.length_append, List.length_replicate]
    omega
  have hlen : (List.replicate k (UInt8.ofNat k)).length = (UInt32.ofNat k).toNat := by
    rw [List.length_replicate, UInt32.toNat_ofNat', Nat.mod_eq_of_lt (by omega)]
  obtain ⟨d', hremove, hholds, hneed, -⟩ :=
    FlexData.holds_removeTrailer h hlen (h.allocated hnonempty)
  refine ⟨d', ?_, hholds, hneed⟩
  have hblock : ¬blocksize < k := Nat.not_lt.mpr hle
  simp only [removePKCS7Padding, hlast, ok_bind, hchar, if_neg hblock, hremove, lift_ok]

lemma holds_macData (h : d.Holds xs) (hlen : blocksize < xs.length) (mac : Mac)
    (hfits : d.need + macLen < 2^32) :
    ∃ d', macData d mac = .ok d' ∧ d'.Holds (xs ++ mac.toList) := by
  obtain ⟨d', hadd, hholds, -⟩ := FlexData.holds_addTrailer h (by
    rw [mac.length_toList]
    exact hfits : d.need + mac.toList.length < 2^32)
  refine ⟨d', ?_, hholds⟩
  rw [macData, if_neg (by rw [← h.length]; omega), hadd, lift_ok]

end Steps

section Messages

variable {K : CryptoKey} {build : Build} {iv : Iv} {aad : List UInt8} {mac : Bool}
  {d out : FlexData} {xs ys : List UInt8}

def AadFits (build : Build) (aad : List UInt8) : Prop := build = .host → aad.length < 2^31

lemma readAad_of_fits (haad : AadFits build aad) : readAad build aad = .ok aad := by
  rw [readAad, if_neg]
  rintro ⟨hhost, hle⟩
  exact absurd (haad hhost) (by omega)

def cipherText (K : CryptoKey) (aad : List UInt8) (iv : Iv) (xs : List UInt8) : List UInt8 :=
  K.encrypt aad iv.toList (Device.addPKCS7Padding xs)

def message (K : CryptoKey) (aad : List UInt8) (iv : Iv) (mac : Bool) (xs : List UInt8) : List UInt8 :=
  (iv.toList ++ cipherText K aad iv xs) ++
    if mac then (K.tag aad iv.toList (cipherText K aad iv xs)).toList else []

lemma length_cipherText (K : CryptoKey) (aad : List UInt8) (iv : Iv) (xs : List UInt8) :
    (cipherText K aad iv xs).length = (Device.addPKCS7Padding xs).length :=
  K.length_encrypt _ _ _

lemma length_addPKCS7Padding (xs : List UInt8) :
    (Device.addPKCS7Padding xs).length = xs.length + padSz xs.length := by
  rw [Device.addPKCS7Padding, List.length_append, List.length_replicate]

lemma blocksize_lt_length : blocksize < (iv.toList ++ cipherText K aad iv xs).length := by
  have hpos : blocksize ≤ xs.length + padSz xs.length := by
    unfold padSz blocksize
    split_ifs <;> omega
  have hiv : 0 < ivLen := by decide
  rw [List.length_append, iv.length_toList, length_cipherText, length_addPKCS7Padding]
  omega

lemma holds_finish (mac : Bool) (h : d.Holds (cipherText K aad iv xs))
    (hfits : d.need + ivLen + macLen < 2^32) :
    ∃ e e', lift (d.addHeader iv.toList) = .ok e ∧
      addMac mac e (K.tag aad iv.toList (cipherText K aad iv xs)) = .ok e' ∧
      e'.Holds (message K aad iv mac xs) := by
  have hlen := iv.length_toList
  obtain ⟨e, hadd, hholds, hneed⟩ := FlexData.holds_addHeader h (by omega :
    d.need + iv.toList.length < 2^32)
  cases mac with
  | false =>
    refine ⟨e, e, by rw [hadd, lift_ok], rfl, ?_⟩
    rw [message, if_neg (by decide), List.append_nil]
    exact hholds
  | true =>
    obtain ⟨e', hmac, hholds'⟩ := holds_macData hholds blocksize_lt_length
      (K.tag aad iv.toList (cipherText K aad iv xs)) (by omega)
    exact ⟨e, e', by rw [hadd, lift_ok], hmac, hholds'⟩

theorem holds_encryptData (haad : AadFits build aad) (h : d.Holds xs)
    (hfits : d.need + blocksize + ivLen + macLen < 2^32) :
    ∃ e, encryptData build K iv d aad mac = .ok e ∧ e.Holds (message K aad iv mac xs) := by
  obtain ⟨d₁, hpad, hholds₁, hneed₁⟩ := holds_addPKCS7Padding h (by omega)
  obtain ⟨d₂, hput, hlayout₂, hholds₂⟩ := FlexData.holds_overwrite hholds₁
    (K.length_encrypt aad iv.toList (Device.addPKCS7Padding xs))
  have hneed₂ : d₂.need = d₁.need := by
    simp only [FlexData.need, hlayout₂]
  obtain ⟨e, e', hadd, hmac, hholds⟩ := holds_finish mac hholds₂ (by omega)
  refine ⟨e', ?_, hholds⟩
  simp only [encryptData, hpad, readAad_of_fits haad, readData_of_holds hholds₁, hput, lift_ok, ok_bind,
    hadd]
  exact hmac

lemma holds_takeParts (h : d.Holds (message K aad iv mac xs)) :
    ∃ d', takeParts d mac = .ok (if mac then
        some (K.tag aad iv.toList (cipherText K aad iv xs)).toList else none, iv.toList, d') ∧
      d'.Holds (cipherText K aad iv xs) := by
  have hiv : iv.toList.length = (UInt32.ofNat ivLen).toNat := iv.length_toList
  have hne : message K aad iv mac xs ≠ [] := by
    apply List.ne_nil_of_length_pos
    have hlen := iv.length_toList
    have hpos : 0 < ivLen := by decide
    rw [message, List.length_append, List.length_append]
    omega
  have hbuf := h.allocated hne
  cases mac with
  | false =>
    rw [message, if_neg (by decide), List.append_nil] at h
    obtain ⟨d', hremove, hholds, -, -⟩ := FlexData.holds_removeHeader h hiv hbuf
    refine ⟨d', ?_, hholds⟩
    simp only [takeParts, Bool.false_eq_true, if_false, hremove, lift_ok, ok_bind]
  | true =>
    rw [message, if_pos rfl] at h
    have hmac : (K.tag aad iv.toList (cipherText K aad iv xs)).toList.length =
        (UInt32.ofNat macLen).toNat := (K.tag aad iv.toList (cipherText K aad iv xs)).length_toList
    obtain ⟨d₁, htag, hholds₁, -, hbuf₁⟩ := FlexData.holds_removeTrailer h hmac hbuf
    obtain ⟨d', hremove, hholds, -, -⟩ := FlexData.holds_removeHeader hholds₁ hiv hbuf₁
    refine ⟨d', ?_, hholds⟩
    simp only [takeParts, if_true, htag, hremove, lift_ok, ok_bind]

lemma openData_cipherText (hK : K.Inverts) (hmac : mac = true ∨ build = .host) :
    openData build K aad iv.toList (cipherText K aad iv xs) (if mac then
      some (K.tag aad iv.toList (cipherText K aad iv xs)).toList else none) =
      .ok (Device.addPKCS7Padding xs) := by
  cases mac with
  | true =>
    rw [if_pos rfl]
    simp only [openData, if_true]
    rw [cipherText, hK]
  | false =>
    obtain rfl := hmac.resolve_left (by decide)
    rw [if_neg (by decide)]
    simp only [openData]
    rw [cipherText, hK]

theorem holds_decryptData (hK : K.Inverts) (haad : AadFits build aad)
    (hmac : mac = true ∨ build = .host) (h : d.Holds (message K aad iv mac xs)) :
    ∃ p, decryptData build K d aad mac = .ok p ∧ p.Holds xs := by
  obtain ⟨d₁, hparts, hholds₁⟩ := holds_takeParts h
  obtain ⟨d₂, hput, -, hholds₂⟩ := FlexData.holds_overwrite hholds₁
    (length_cipherText K aad iv xs).symm
  obtain ⟨p, hunpad, hholds, -⟩ := holds_removePKCS7Padding hholds₂
  refine ⟨p, ?_, hholds⟩
  simp only [decryptData, hparts, ok_bind, readAad_of_fits haad, readData_of_holds hholds₁,
    openData_cipherText hK hmac, hput, lift_ok, hunpad]

end Messages

section RoundTrip

def plainKey : CryptoKey where
  encrypt := fun _ _ msg => msg
  decrypt := fun _ _ ct => ct
  tag := fun _ _ _ => Buf.fill 0 macLen
  length_encrypt := fun _ _ _ => rfl
  length_decrypt := fun _ _ _ => rfl

def zeroIv : Iv := Buf.fill 0 ivLen

lemma store_some {layout : FlexBuf} {bytes dat : List UInt8} {start : ℕ}
    (h : start + dat.length ≤ bytes.length) :
    FlexData.store ⟨layout, some bytes⟩ start dat = .ok ⟨layout, some (splice bytes start dat)⟩ :=
  if_pos h

end RoundTrip

end SecAssociation

end Bfs.Utils
