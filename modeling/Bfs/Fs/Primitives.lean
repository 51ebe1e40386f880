import Bfs.Fs.TreeContents

/-! The assumptions on the cryptographic primitives, and primitives that satisfy them. -/
namespace Bfs.Fs
open ByteSeq

def CollisionFree (C : Crypto) : Prop :=
  ∀ l r l' r' : List UInt8, l.length = macLen → r.length = macLen → l'.length = macLen →
    r'.length = macLen → C.hmac (l ++ r) = C.hmac (l' ++ r') → l = l' ∧ r = r'

lemma CollisionFree.pairHash_inj {C : Crypto} (hC : CollisionFree C) {l r l' r' : List UInt8}
    (hl : l.length = macLen) (hr : r.length = macLen) (hl' : l'.length = macLen)
    (hr' : r'.length = macLen) (heq : pairHash C l r = pairHash C l' r') : l = l' ∧ r = r' := by
  have htake : ∀ {a : List UInt8}, a.length = macLen → a.take macLen = a :=
    fun ha => List.take_of_length_le ha.le
  unfold pairHash hmacData at heq
  rw [htake hl, htake hr, htake hl', htake hr'] at heq
  exact hC _ _ _ _ hl hr hl' hr' (Buf.ext heq)

def macOfIv (iv : Iv) : Mac :=
  ⟨iv.toList ++ List.replicate (macLen - ivLen) 0, by
    rw [List.length_append, iv.length_toList, List.length_replicate]
    rfl⟩

lemma macOfIv_injective : Function.Injective macOfIv := by
  intro iv iv' heq
  apply Buf.ext
  exact List.append_cancel_right (congrArg Buf.toList heq)

lemma fill_iv_ne {x y : UInt8} (hxy : x ≠ y) : (Buf.fill x ivLen : Iv) ≠ Buf.fill y ivLen :=
  fun heq => hxy (Buf.fill_injective (by decide) heq)

/-- Primitives for the writes in `log`: a sealing ledger, and two MACs are their own hash. -/
def ledgerCrypto (log : List (Aead.Sealing ℕ Iv Block)) : Crypto where
  toScheme := Aead.ledger macOfIv log
  hmac := fun bytes => if h : bytes.length = hmacLen then ⟨bytes, h⟩ else Buf.fill 0 hmacLen

lemma ledgerCrypto_enc (log : List (Aead.Sealing ℕ Iv Block)) (b : ℕ) (iv : Iv) (data : Block) :
    (ledgerCrypto log).enc b iv data = (data, macOfIv iv) := rfl

lemma ledgerCrypto_dec {log : List (Aead.Sealing ℕ Iv Block)} {b : ℕ} {iv : Iv} {data : Block}
    (hmem : ⟨b, iv, data⟩ ∈ log) : (ledgerCrypto log).dec b iv data (macOfIv iv) = some data :=
  if_pos ⟨hmem, rfl⟩

lemma ledgerCrypto_collisionFree (log : List (Aead.Sealing ℕ Iv Block)) :
    CollisionFree (ledgerCrypto log) := by
  intro l r l' r' hl hr hl' hr' heq
  have hlen : ∀ {a b : List UInt8}, a.length = macLen → b.length = macLen →
      (a ++ b).length = hmacLen := by
    intro a b ha hb
    rw [List.length_append, ha, hb]
    rfl
  simp only [ledgerCrypto, hlen hl hr, hlen hl' hr', dif_pos] at heq
  exact List.append_inj (congrArg Buf.toList heq) (hl.trans hl'.symm)

lemma ledgerCrypto_ideal {log : List (Aead.Sealing ℕ Iv Block)}
    (hiv : ∀ e ∈ log, ∀ e' ∈ log, e.id = e'.id → e.nonce = e'.nonce → e.msg = e'.msg) :
    Aead.Ideal (ledgerCrypto log).toScheme log :=
  Aead.ledger_ideal macOfIv_injective hiv

end Bfs.Fs
