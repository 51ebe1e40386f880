import Bfs.Fs.TreeContents

/-! What device and tree hold of the last writes: the ciphertext and the metadata entry of every
intact block, and in the tree the MACs with the hashes of the pairs of leaves. -/
namespace Bfs.Fs
open ByteSeq HeapTree

section Device

variable {C : Crypto} {v : Volume} {d : Disk} {last : ℕ → Option (Iv × Block)} {intact : ℕ → Prop}

def Volume.Separate (v : Volume) (b : ℕ) : Prop :=
  b < v.numBlks ∧ ∀ a ≤ v.numBlks, v.metaBlk a ≠ b

def Volume.sealBlk (v : Volume) (C : Crypto) (d : Disk) (b : ℕ) (iv : Iv) (data : Block) : Disk where
  size := d.size
  blk := Function.update (v.putSlot d b iv (C.enc b iv data).2).blk b (C.enc b iv data).1

lemma writeBlockHelper_sealBlk {b : ℕ} (hb : b < d.size) (iv : Iv) (data : Block) :
    writeBlockHelper (v.putSlot d b iv (C.enc b iv data).2) b (C.enc b iv data).1 =
      .ok (v.sealBlk C d b iv data) := if_pos hb

lemma Volume.slotOf_update {a b : ℕ} (ha : a ≤ v.numBlks) (hb : v.Separate b) (blk : Block) :
    v.slotOf ⟨d.size, Function.update d.blk b blk⟩ a = v.slotOf d a := by
  simp only [Volume.slotOf, Function.update_of_ne (hb.2 a ha)]

lemma Volume.slotOf_sealBlk {a b : ℕ} (ha : a ≤ v.numBlks) (hb : v.Separate b) (iv : Iv)
    (data : Block) : v.slotOf (v.sealBlk C d b iv data) a =
      if a = b then (iv, (C.enc b iv data).2) else v.slotOf d a := by
  refine (Volume.slotOf_update (d := v.putSlot d b iv (C.enc b iv data).2) ha hb _).trans ?_
  split_ifs with hab
  · subst hab
    exact Volume.slotOf_putSlot_same _ _
  · exact Volume.slotOf_putSlot_other hab _ _

lemma Volume.blk_sealBlk {a b : ℕ} (ha : v.Separate a) (hb : b ≤ v.numBlks) (iv : Iv)
    (data : Block) : (v.sealBlk C d b iv data).blk a =
      if a = b then (C.enc b iv data).1 else d.blk a := by
  unfold Volume.sealBlk
  split_ifs with hab
  · subst hab
    exact Function.update_self ..
  · simp only [Function.update_of_ne hab, Volume.putSlot, Function.update_of_ne (ha.2 b hb).symm]

/-- The device holds the last ciphertext of the blocks in `intact`, and their metadata entries the
matching IV and MAC. -/
structure DiskInv (C : Crypto) (v : Volume) (d : Disk) (last : ℕ → Option (Iv × Block))
    (intact : ℕ → Prop) : Prop where
  separate : ∀ b, (last b).isSome → v.Separate b
  blk_eq : ∀ b iv data, intact b → last b = some (iv, data) → d.blk b = (C.enc b iv data).1
  slot_eq : ∀ b iv data, intact b → last b = some (iv, data) →
    v.slotOf d b = (iv, (C.enc b iv data).2)

lemma DiskInv.mono (hinv : DiskInv C v d last intact) {intact' : ℕ → Prop}
    (hsub : ∀ b, intact' b → intact b) : DiskInv C v d last intact' where
  separate := hinv.separate
  blk_eq := fun b iv data hint => hinv.blk_eq b iv data (hsub b hint)
  slot_eq := fun b iv data hint => hinv.slot_eq b iv data (hsub b hint)

lemma DiskInv.forget (hinv : DiskInv C v d last intact) (d' : Disk) :
    DiskInv C v d' last fun _ => False where
  separate := hinv.separate
  blk_eq := fun _ _ _ hfalse => absurd hfalse id
  slot_eq := fun _ _ _ hfalse => absurd hfalse id

lemma DiskInv.write (hinv : DiskInv C v d last intact) {b : ℕ} (hb : v.Separate b) (iv : Iv)
    (data : Block) :
    DiskInv C v (v.sealBlk C d b iv data) (Function.update last b (some (iv, data)))
      (fun a => a = b ∨ intact a) where
  separate := by
    intro a ha
    by_cases hab : a = b
    · exact hab ▸ hb
    · rw [Function.update_of_ne hab] at ha
      exact hinv.separate a ha
  blk_eq := by
    intro a iv' data' hint hlast
    by_cases hab : a = b
    · subst hab
      rw [Function.update_self, Option.some.injEq, Prod.mk.injEq] at hlast
      obtain ⟨rfl, rfl⟩ := hlast
      rw [Volume.blk_sealBlk hb hb.1.le, if_pos rfl]
    · rw [Function.update_of_ne hab] at hlast
      have ha := hinv.separate a (by rw [hlast]; rfl)
      rw [Volume.blk_sealBlk ha hb.1.le, if_neg hab,
        hinv.blk_eq a iv' data' (hint.resolve_left hab) hlast]
  slot_eq := by
    intro a iv' data' hint hlast
    by_cases hab : a = b
    · subst hab
      rw [Function.update_self, Option.some.injEq, Prod.mk.injEq] at hlast
      obtain ⟨rfl, rfl⟩ := hlast
      rw [Volume.slotOf_sealBlk hb.1.le hb, if_pos rfl]
    · rw [Function.update_of_ne hab] at hlast
      have ha := hinv.separate a (by rw [hlast]; rfl)
      rw [Volume.slotOf_sealBlk ha.1.le hb, if_neg hab,
        hinv.slot_eq a iv' data' (hint.resolve_left hab) hlast]

lemma DiskInv.putRoot (hinv : DiskInv C v d last intact) (root : Hash) :
    DiskInv C v (v.putRoot d root) last
      fun b => blkMetaBlkLoc b ≠ blkMetaBlkLoc v.numBlks ∧ intact b where
  separate := hinv.separate
  blk_eq := by
    intro b iv data hint hlast
    have hb := hinv.separate b (by rw [hlast]; rfl)
    have hne : b ≠ v.metaBlk v.mtRootBlkNum := (hb.2 _ le_rfl).symm
    simp only [Volume.putRoot, Function.update_of_ne hne]
    exact hinv.blk_eq b iv data hint.2 hlast
  slot_eq := by
    intro b iv data hint hlast
    rw [Volume.slotOf_putRoot_other hint.1]
    exact hinv.slot_eq b iv data hint.2 hlast

end Device

section Tree

variable {C : Crypto} {k : ℕ} {c : ℕ → List UInt8} {last : ℕ → Option (Iv × Block)}

/-- The leaves hold the MACs of the last writes, and the parent of every written leaf is the hash
of its two children. -/
structure TreeInv (C : Crypto) (k : ℕ) (c : ℕ → List UInt8) (last : ℕ → Option (Iv × Block)) :
    Prop where
  root_len : (c 0).length = hmacLen
  leaf_len : ∀ b, (c (leaf (k+1) b)).length = macLen
  leaf_mac : ∀ b < 2^(k+1), ∀ iv data, last b = some (iv, data) →
    c (leaf (k+1) b) = (C.enc b iv data).2.toList
  parent : ∀ b < 2^(k+1), (last b).isSome →
    c (up (leaf (k+1) b)) = pairHash C (c (leaf (k+1) (2*(b/2)))) (c (leaf (k+1) (2*(b/2)+1)))

lemma length_innerHash (C : Crypto) (h i : ℕ) (left right : List UInt8) :
    (innerHash C h i left right).length = hmacLen := (C.hmac _).length_toList

lemma treeInv_initial (C : Crypto) (k : ℕ) :
    TreeInv C k (fun i => List.replicate (hashSz (k+1) i) 0) fun _ => none where
  root_len := by
    have hpow := Nat.one_le_two_pow (n := k)
    rw [List.length_replicate, hashSz, if_neg]
    rw [pow_succ]
    omega
  leaf_len := by
    intro b
    have hge : 2^(k+1) - 1 ≤ leaf (k+1) b := Nat.le_add_left _ _
    rw [List.length_replicate, hashSz, if_pos hge]
  leaf_mac := by simp
  parent := by simp

/-- New MACs `c₁` in the leaves keep the invariant when a descending list of inner nodes is
recomputed that has every parent whose children or whose written leaves changed. -/
lemma TreeInv.recompute (hinv : TreeInv C k c last) {c₁ : ℕ → List UInt8}
    {last₁ : ℕ → Option (Iv × Block)} {ns : List ℕ} (hdesc : ns.Pairwise (· > ·))
    (hinner : ∀ i ∈ ns, i < 2^(k+1) - 1) (hsame : ∀ i < 2^(k+1) - 1, c₁ i = c i)
    (hlen : ∀ b, (c₁ (leaf (k+1) b)).length = macLen)
    (hmac : ∀ b < 2^(k+1), ∀ iv data, last₁ b = some (iv, data) →
      c₁ (leaf (k+1) b) = (C.enc b iv data).2.toList)
    (hrest : ∀ b < 2^(k+1), up (leaf (k+1) b) ∉ ns → (last₁ b).isSome →
      (last b).isSome ∧ c₁ (leaf (k+1) (2*(b/2))) = c (leaf (k+1) (2*(b/2))) ∧
        c₁ (leaf (k+1) (2*(b/2)+1)) = c (leaf (k+1) (2*(b/2)+1))) :
    TreeInv C k (HeapTree.recompute (innerHash C (k+1)) c₁ ns) last₁ := by
  have hleaf : ∀ b, HeapTree.recompute (innerHash C (k+1)) c₁ ns (leaf (k+1) b) =
      c₁ (leaf (k+1) b) := by
    intro b
    apply recompute_of_notMem
    intro hmem
    have hlt := hinner _ hmem
    have hge : 2^(k+1) - 1 ≤ leaf (k+1) b := Nat.le_add_left _ _
    omega
  refine ⟨?_, ?_, ?_, ?_⟩
  · by_cases hmem : 0 ∈ ns
    · rw [recompute_of_mem _ _ hdesc hmem]
      exact length_innerHash C _ _ _ _
    · have hpow := Nat.one_le_two_pow (n := k)
      rw [recompute_of_notMem _ _ _ hmem, hsame 0 (by rw [pow_succ]; omega), hinv.root_len]
  · intro b
    rw [hleaf b, hlen b]
  · intro b hb iv data hlast
    rw [hleaf b, hmac b hb iv data hlast]
  · intro b hb hwritten
    rw [hleaf, hleaf]
    by_cases hmem : up (leaf (k+1) b) ∈ ns
    · obtain ⟨hl, hr⟩ := children_up_leaf k b
      rw [recompute_of_mem _ _ hdesc hmem, hl, hr, hleaf, hleaf, innerHash_up_leaf]
    · obtain ⟨hwas, hleft, hright⟩ := hrest b hb hmem hwritten
      rw [recompute_of_notMem _ _ _ hmem, hsame _ (up_leaf_lt hb), hinv.parent b hb hwas, hleft,
        hright]

lemma TreeInv.write (hinv : TreeInv C k c last) {b : ℕ} (hb : b < 2^(k+1)) (iv : Iv)
    (data : Block) :
    TreeInv C k (leafUpdate C (k+1) c b (C.enc b iv data).2)
      (Function.update last b (some (iv, data))) := by
  have hother : ∀ {a}, a ≠ b → leaf (k+1) a ≠ leaf (k+1) b :=
    fun hab heq => hab (leaf_injective (k+1) heq)
  apply hinv.recompute (pairwise_ascend _ _)
  · intro i hi
    exact (le_of_mem_ascend hi).trans_lt (up_leaf_lt hb)
  · intro i hi
    apply Function.update_of_ne
    have hge : 2^(k+1) - 1 ≤ leaf (k+1) b := Nat.le_add_left _ _
    omega
  · intro a
    by_cases hab : a = b
    · subst hab
      rw [Function.update_self]
      exact (C.enc a iv data).2.length_toList
    · rw [Function.update_of_ne (hother hab), hinv.leaf_len a]
  · intro a ha iv' data' hlast
    by_cases hab : a = b
    · subst hab
      rw [Function.update_self, Option.some.injEq, Prod.mk.injEq] at hlast
      obtain ⟨rfl, rfl⟩ := hlast
      rw [Function.update_self]
    · rw [Function.update_of_ne hab] at hlast
      rw [Function.update_of_ne (hother hab), hinv.leaf_mac a ha iv' data' hlast]
  · intro a _ hmem hwritten
    -- The parent of the changed leaf is the first node of the path.
    have hpair : a/2 ≠ b/2 := by
      intro hpair
      apply hmem
      rw [show up (leaf (k+1) a) = up (leaf (k+1) b) by rw [up_leaf, up_leaf, hpair]]
      simp [ascend]
    rw [Function.update_of_ne (fun hab => hpair (by rw [hab]))] at hwritten
    exact ⟨hwritten, Function.update_of_ne (hother (by omega)) .., Function.update_of_ne
      (hother (by omega)) ..⟩

end Tree

end Bfs.Fs
