import Bfs.Fs.BlockPath

/-! The contents of the Merkle tree, apart from how its buffers are held. As long as at most one
node points to the scratch buffer, the tree behaves as an array of hashes. -/
namespace Bfs.Fs
open ByteSeq HeapTree

structure MerkleTree.Holds (t : MerkleTree) (h : ℕ) (c : ℕ → List UInt8) : Prop where
  height_eq : t.height = h
  get_eq : ∀ i < 2^(h+1) - 1, t.get i = some (c i)
  one_alias : ∀ i j, t.nodes i = .currPar → t.nodes j = .currPar → i = j

def innerHash (C : Crypto) (h i : ℕ) (left right : List UInt8) : List UInt8 :=
  hmacData C left right (if 2^(h-1) - 1 ≤ i then macLen else hmacLen)

section Basic

variable {t : MerkleTree} {h : ℕ} {c : ℕ → List UInt8}

@[simp] lemma MerkleTree.point_height (i : ℕ) (p : HashPtr) : (t.point i p).height = t.height := rfl

@[simp] lemma MerkleTree.point_currPar (i : ℕ) (p : HashPtr) :
    (t.point i p).currPar = t.currPar := rfl

lemma MerkleTree.point_nodes (i j : ℕ) (p : HashPtr) :
    (t.point i p).nodes j = if j = i then p else t.nodes j := by
  simp [MerkleTree.point, Function.update_apply]

lemma MerkleTree.get_point_own (i j : ℕ) (bytes : List UInt8) :
    (t.point i (.own bytes)).get j = if j = i then some bytes else t.get j := by
  unfold MerkleTree.get MerkleTree.point
  by_cases hji : j = i
  · subst hji
    simp
  · simp [hji]

lemma MerkleTree.get_setCurrPar_alias {i : ℕ} (hi : t.nodes i = .currPar) (bytes : List UInt8) :
    (t.setCurrPar bytes).get i = some bytes := by
  simp [MerkleTree.get, MerkleTree.setCurrPar, hi]

lemma MerkleTree.get_setCurrPar_other {i : ℕ} (hi : t.nodes i ≠ .currPar) (bytes : List UInt8) :
    (t.setCurrPar bytes).get i = t.get i := by
  simp only [MerkleTree.get, MerkleTree.setCurrPar]
  cases hnode : t.nodes i with
  | null => rfl
  | own bytes => rfl
  | currPar => exact absurd hnode hi

lemma two_pow_succ_sub (h : ℕ) : 2^(h+1) - 1 = 2*(2^h - 1) + 1 := by
  have hpow := Nat.one_le_two_pow (n := h)
  rw [pow_succ]
  omega

lemma MerkleTree.alias_of_point {i j : ℕ} {bytes : List UInt8}
    (hj : (t.point i (.own bytes)).nodes j = .currPar) : t.nodes j = .currPar := by
  by_cases hji : j = i
  · subst hji
    simp [MerkleTree.point] at hj
  · simpa [MerkleTree.point, Function.update_of_ne hji] using hj

lemma MerkleTree.alias_of_store {i j : ℕ} {bytes : List UInt8}
    (hj : (t.store i bytes).nodes j = .currPar) : t.nodes j = .currPar := by
  unfold MerkleTree.store at hj
  split at hj
  · exact hj
  · exact MerkleTree.alias_of_point hj

lemma MerkleTree.Holds.point (ht : t.Holds h c) (i : ℕ) (bytes : List UInt8) :
    (t.point i (.own bytes)).Holds h (Function.update c i bytes) where
  height_eq := ht.height_eq
  get_eq := by
    intro j hj
    rw [MerkleTree.get_point_own]
    by_cases hji : j = i
    · subst hji
      simp
    · rw [if_neg hji, Function.update_of_ne hji, ht.get_eq j hj]
  one_alias := by
    intro j k hj hk
    exact ht.one_alias j k (MerkleTree.alias_of_point hj) (MerkleTree.alias_of_point hk)

lemma MerkleTree.Holds.store (ht : t.Holds h c) (i : ℕ) (bytes : List UInt8) :
    (t.store i bytes).Holds h (Function.update c i bytes) := by
  unfold MerkleTree.store
  split
  · rename_i halias
    refine ⟨ht.height_eq, ?_, ht.one_alias⟩
    intro j hj
    by_cases hji : j = i
    · subst hji
      rw [MerkleTree.get_setCurrPar_alias halias, Function.update_self]
    · have hne : t.nodes j ≠ .currPar := fun hcur => hji (ht.one_alias j i hcur halias)
      rw [MerkleTree.get_setCurrPar_other hne, Function.update_of_ne hji, ht.get_eq j hj]
  · exact ht.point i bytes

lemma hashNode_inner (C : Crypto) (v : Volume) (d : Disk) (ht : t.Holds h c) (i : ℕ)
    (hi : i < 2^h - 1) :
    hashNode C v d t i = .ok (innerHash C h i (c (2*i+1)) (c (2*i+2))) := by
  have hsucc := two_pow_succ_sub h
  unfold hashNode
  rw [ht.height_eq, if_neg (by omega), ht.get_eq _ (by omega), ht.get_eq _ (by omega)]
  rfl

lemma nextUp_eq_up {i : ℕ} (hi : 0 < i) : nextUp i = up i := by
  unfold nextUp up
  split_ifs with h <;> omega

lemma rehashPath_eq (C : Crypto) (v : Volume) (d : Disk) (k : ℕ) (ht : t.Holds h c) (i : ℕ)
    (hi : i < 2^h - 1) :
    ∃ t', rehashPath C v d k t i = .ok t' ∧
      t'.Holds h (recompute (innerHash C h) c (ascend k i)) ∧
      ∀ j, t'.nodes j = .currPar → t.nodes j = .currPar := by
  induction k generalizing t c i with
  | zero => exact ⟨t, rfl, ht, fun _ hj => hj⟩
  | succ k ih =>
    have hstored := ht.store i (innerHash C h i (c (2*i+1)) (c (2*i+2)))
    simp only [rehashPath, hashNode_inner C v d ht i hi, ascend, recompute_cons]
    by_cases hzero : i = 0
    · rw [if_pos hzero, recompute_nil]
      refine ⟨_, ?_, hstored, fun _ hj => MerkleTree.alias_of_store hj⟩
      simp [bind, Except.bind, hzero]
    · rw [if_neg hzero, ← nextUp_eq_up (Nat.pos_of_ne_zero hzero)]
      have hup : nextUp i < 2^h - 1 := by
        rw [nextUp_eq_up (Nat.pos_of_ne_zero hzero)]
        exact (up_lt (Nat.pos_of_ne_zero hzero)).trans hi
      obtain ⟨t', hrun, ht', halias⟩ := ih hstored (nextUp i) hup
      refine ⟨t', ?_, ht', fun j hj => MerkleTree.alias_of_store (halias j hj)⟩
      simpa [bind, Except.bind, hzero] using hrun

end Basic

section Update

variable {t : MerkleTree} {h : ℕ} {c : ℕ → List UInt8}

def leafUpdate (C : Crypto) (h : ℕ) (c : ℕ → List UInt8) (b : ℕ) (mac : Mac) : ℕ → List UInt8 :=
  recompute (innerHash C h) (Function.update c (leaf h b) mac.toList)
    (ascend h (up (leaf h b)))

lemma leaf_lt {b : ℕ} (hb : b < 2^h) : leaf h b < 2^(h+1) - 1 := by
  have hsucc := two_pow_succ_sub h
  unfold leaf
  omega

lemma updateLeaf_eq (C : Crypto) (cfg : BlkCfg) (d : Disk) (ht : t.Holds h c) (hh : 0 < h) (b : ℕ)
    (hb : b < 2^h) (mac : Mac) :
    ∃ t', updateLeaf C cfg d t b mac = .ok t' ∧ t'.Holds h (leafUpdate C h c b mac) ∧
      ∀ j, t'.nodes j = .currPar → t.nodes j = .currPar := by
  obtain ⟨k, rfl⟩ : ∃ k, h = k+1 := ⟨h-1, by omega⟩
  have hroot := ht.get_eq 0 (by rw [two_pow_succ_sub]; omega)
  have hleaf := ht.get_eq _ (leaf_lt hb)
  have hpoint := ht.point (leaf (k+1) b) mac.toList
  have hup : nextUp (leaf (k+1) b) < 2^(k+1) - 1 := by
    rw [nextUp_eq_up (leaf_succ_pos k b)]
    exact up_leaf_lt hb
  obtain ⟨t', hrun, ht', halias⟩ := rehashPath_eq C cfg.vol d (k+1) hpoint _ hup
  refine ⟨t', ?_, ?_, fun j hj => MerkleTree.alias_of_point (halias j hj)⟩
  · simp [updateLeaf, ht.height_eq, hroot, hleaf, hrun]
  · unfold leafUpdate
    rw [← nextUp_eq_up (leaf_succ_pos k b)]
    exact ht'

end Update

section Verify

variable {t : MerkleTree} {k : ℕ} {c : ℕ → List UInt8}

def MerkleTree.Unaliased (t : MerkleTree) : Prop := ∀ i, t.nodes i ≠ .currPar

def pairHash (C : Crypto) (left right : List UInt8) : List UInt8 :=
  hmacData C left right macLen

@[simp] lemma length_pairHash (C : Crypto) (left right : List UInt8) :
    (pairHash C left right).length = hmacLen := (C.hmac _).length_toList

lemma innerHash_up_leaf (C : Crypto) (k b : ℕ) (left right : List UInt8) :
    innerHash C (k+1) (up (leaf (k+1) b)) left right = pairHash C left right := by
  unfold innerHash pairHash
  rw [if_pos]
  rw [up_leaf, Nat.add_sub_cancel]
  exact Nat.le_add_left _ _

def readHash (C : Crypto) (k : ℕ) (c : ℕ → List UInt8) (b : ℕ) (mac : Mac) : List UInt8 :=
  pairHash C (Function.update c (leaf (k+1) b) mac.toList (leaf (k+1) (2*(b/2))))
    (Function.update c (leaf (k+1) b) mac.toList (leaf (k+1) (2*(b/2)+1)))

lemma up_leaf_ne_leaf {b : ℕ} (hb : b < 2^(k+1)) (a : ℕ) : up (leaf (k+1) b) ≠ leaf (k+1) a := by
  have hlt := up_leaf_lt hb
  have hge : 2^(k+1) - 1 ≤ leaf (k+1) a := Nat.le_add_left _ _
  omega

lemma MerkleTree.Holds.scratch {h : ℕ} (ht : t.Holds h c) (hu : t.Unaliased)
    (bytes : List UInt8) : (t.setCurrPar bytes).Holds h c := by
  refine ⟨ht.height_eq, ?_, ht.one_alias⟩
  intro i hi
  rw [MerkleTree.get_setCurrPar_other (hu i), ht.get_eq i hi]

lemma MerkleTree.Unaliased.point (hu : t.Unaliased) (i : ℕ) (bytes : List UInt8) :
    (t.point i (.own bytes)).Unaliased := by
  intro j
  unfold MerkleTree.point
  by_cases hji : j = i
  · subst hji
    simp
  · simpa [Function.update_of_ne hji] using hu j

lemma MerkleTree.Unaliased.store_eq (hu : t.Unaliased) (i : ℕ) (bytes : List UInt8) :
    t.store i bytes = t.point i (.own bytes) := by
  unfold MerkleTree.store
  cases hnode : t.nodes i with
  | null => rfl
  | own bytes => rfl
  | currPar => exact absurd hnode (hu i)

/-- The state in which `read_blk` compares the parent hash, when no node is held in the scratch
buffer. -/
def comparedTree (C : Crypto) (t : MerkleTree) (k : ℕ) (c : ℕ → List UInt8) (b : ℕ) (mac : Mac) :
    MerkleTree :=
  ((t.point (leaf (k+1) b) (.own mac.toList)).setCurrPar (c (up (leaf (k+1) b)))).point
    (up (leaf (k+1) b)) (.own (readHash C k c b mac))

lemma verifyRead_eq (C : Crypto) (cfg : BlkCfg) (d : Disk) (ht : t.Holds (k+1) c)
    (hu : t.Unaliased) {b : ℕ} (hb : b < 2^(k+1)) (mac : Mac)
    (hlen : (c (up (leaf (k+1) b))).length = hmacLen) :
    verifyRead C cfg d t b mac =
      if readHash C k c b mac = c (up (leaf (k+1) b)) then
        (.ok (), comparedTree C t k c b mac)
      else
        (.error .parMismatch,
          ((comparedTree C t k c b mac).point (up (leaf (k+1) b)) .currPar).point
            (leaf (k+1) b) (t.nodes (leaf (k+1) b))) := by
  have hroot := ht.get_eq 0 (by rw [two_pow_succ_sub]; omega)
  have hleaf := ht.get_eq _ (leaf_lt hb)
  have hpar : up (leaf (k+1) b) < 2^(k+1+1) - 1 := by
    have hlt := up_leaf_lt hb
    rw [two_pow_succ_sub]
    omega
  have hpoint := ht.point (leaf (k+1) b) mac.toList
  have hpu := hu.point (leaf (k+1) b) mac.toList
  have hcur : (t.point (leaf (k+1) b) (.own mac.toList)).get (up (leaf (k+1) b)) =
      some (c (up (leaf (k+1) b))) := by
    rw [hpoint.get_eq _ hpar, Function.update_of_ne (up_leaf_ne_leaf hb b)]
  have hscratch := hpoint.scratch hpu (c (up (leaf (k+1) b)))
  have hhash := hashNode_inner C cfg.vol d hscratch _ (up_leaf_lt hb)
  obtain ⟨hl, hr⟩ := children_up_leaf k b
  rw [innerHash_up_leaf, hl, hr] at hhash
  have htake : (c (up (leaf (k+1) b))).take hmacLen = c (up (leaf (k+1) b)) :=
    List.take_of_length_le hlen.le
  have hsu : ((t.point (leaf (k+1) b) (.own mac.toList)).setCurrPar
      (c (up (leaf (k+1) b)))).Unaliased := hpu
  have hcmp : compareParent C cfg d (t.point (leaf (k+1) b) (.own mac.toList))
      (up (leaf (k+1) b)) (leaf (k+1) b) (t.nodes (leaf (k+1) b)) =
      if (comparedTree C t k c b mac).get (up (leaf (k+1) b)) =
          some (comparedTree C t k c b mac).currPar
      then (.ok (), comparedTree C t k c b mac)
      else (.error .parMismatch,
        ((comparedTree C t k c b mac).point (up (leaf (k+1) b)) .currPar).point
          (leaf (k+1) b) (t.nodes (leaf (k+1) b))) := by
    simp only [compareParent, hcur, htake, hhash, hsu.store_eq]
    rfl
  have hval : (comparedTree C t k c b mac).get (up (leaf (k+1) b)) =
      some (readHash C k c b mac) := by
    rw [comparedTree, MerkleTree.get_point_own, if_pos rfl]
  have hscr : (comparedTree C t k c b mac).currPar = c (up (leaf (k+1) b)) := rfl
  simp only [hval, hscr, Option.some.injEq] at hcmp
  simp [verifyRead, ht.height_eq, hroot, hleaf, nextUp_eq_up (leaf_succ_pos k b), hcmp]

lemma verifyRead_accept (C : Crypto) (cfg : BlkCfg) (d : Disk) (ht : t.Holds (k+1) c)
    (hu : t.Unaliased) {b : ℕ} (hb : b < 2^(k+1)) (mac : Mac)
    (hlen : (c (up (leaf (k+1) b))).length = hmacLen)
    (heq : readHash C k c b mac = c (up (leaf (k+1) b))) :
    ∃ t', verifyRead C cfg d t b mac = (.ok (), t') ∧
      t'.Holds (k+1) (Function.update c (leaf (k+1) b) mac.toList) ∧ t'.Unaliased := by
  rw [verifyRead_eq C cfg d ht hu hb mac hlen, if_pos heq]
  have hpu := hu.point (leaf (k+1) b) mac.toList
  have hscratch := (ht.point (leaf (k+1) b) mac.toList).scratch hpu (c (up (leaf (k+1) b)))
  refine ⟨_, rfl, ?_, MerkleTree.Unaliased.point hpu _ _⟩
  have hholds := hscratch.point (up (leaf (k+1) b)) (readHash C k c b mac)
  have hsame : Function.update (Function.update c (leaf (k+1) b) mac.toList)
      (up (leaf (k+1) b)) (readHash C k c b mac) =
        Function.update c (leaf (k+1) b) mac.toList := by
    apply Function.update_eq_self_iff.mpr
    rw [heq, Function.update_of_ne (up_leaf_ne_leaf hb b)]
  rw [hsame] at hholds
  exact hholds

lemma verifyRead_reject (C : Crypto) (cfg : BlkCfg) (d : Disk) (ht : t.Holds (k+1) c)
    (hu : t.Unaliased) {b : ℕ} (hb : b < 2^(k+1)) (mac : Mac)
    (hlen : (c (up (leaf (k+1) b))).length = hmacLen)
    (hne : readHash C k c b mac ≠ c (up (leaf (k+1) b))) :
    ∃ t', verifyRead C cfg d t b mac = (.error .parMismatch, t') ∧ t'.Holds (k+1) c ∧
      t'.nodes (up (leaf (k+1) b)) = .currPar := by
  rw [verifyRead_eq C cfg d ht hu hb mac hlen, if_neg hne]
  have hup := up_leaf_ne_leaf hb b
  have hnodes : ∀ i, (((comparedTree C t k c b mac).point (up (leaf (k+1) b)) .currPar).point
      (leaf (k+1) b) (t.nodes (leaf (k+1) b))).nodes i =
        if i = up (leaf (k+1) b) then .currPar else t.nodes i := by
    intro i
    simp only [comparedTree, MerkleTree.point, MerkleTree.setCurrPar]
    by_cases hil : i = leaf (k+1) b
    · subst hil
      rw [Function.update_self, if_neg (Ne.symm hup)]
    · rw [Function.update_of_ne hil]
      by_cases hiu : i = up (leaf (k+1) b)
      · subst hiu
        rw [Function.update_self, if_pos rfl]
      · rw [Function.update_of_ne hiu, Function.update_of_ne hiu, Function.update_of_ne hil,
          if_neg hiu]
  refine ⟨_, rfl, ⟨ht.height_eq, ?_, ?_⟩, ?_⟩
  · intro i hi
    rw [← ht.get_eq i hi]
    unfold MerkleTree.get
    rw [hnodes i]
    split_ifs with hiu
    · subst hiu
      exact (ht.get_eq _ hi).symm
    · cases hnode : t.nodes i with
      | null => rfl
      | own bytes => rfl
      | currPar => exact absurd hnode (hu i)
  · intro i j hi hj
    rw [hnodes] at hi hj
    split_ifs at hi hj with hiu hju
    · rw [hiu, hju]
    · exact absurd hj (hu j)
    · exact absurd hi (hu i)
    · exact absurd hi (hu i)
  · rw [hnodes, if_pos rfl]

end Verify

end Bfs.Fs
