import Bfs.Fs.TreeContents

/-! Setting up the tree of a fresh process, and what flushing and mounting do with a tree that has
all its hashes in memory. -/
namespace Bfs.Fs
open ByteSeq HeapTree

variable (C : Crypto) (v : Volume) (d : Disk)

/-- The loop of an initial `init_merkle_tree` gives every node a zeroed buffer. -/
lemma initNodes_initial (k : ℕ) (t : MerkleTree) (hnull : ∀ i < k, t.nodes i = .null) :
    ∃ t', initNodes C v d true k t = .ok t' ∧ t'.height = t.height ∧
      ∀ i, t'.nodes i =
        if i < k then .own (List.replicate (hashSz t.height i) 0) else t.nodes i := by
  induction k generalizing t with
  | zero => exact ⟨t, rfl, rfl, fun i => by simp⟩
  | succ k ih =>
    have hother : ∀ i < k, (t.point k (.own (List.replicate (hashSz t.height k) 0))).nodes i =
        .null := by
      intro i hi
      rw [MerkleTree.point_nodes, if_neg (by omega)]
      exact hnull i (by omega)
    obtain ⟨t', hrun, hheight, hnodes⟩ := ih _ hother
    refine ⟨t', ?_, hheight, ?_⟩
    · simp only [initNodes, initNode, hnull k (by omega)]
      exact hrun
    · intro i
      rw [hnodes i, MerkleTree.point_nodes, MerkleTree.point_height]
      by_cases hik : i = k
      · subst hik
        simp
      · rw [if_neg hik]
        exact if_congr (by omega) rfl rfl

lemma initNodes_full (initial : Bool) (k : ℕ) (t : MerkleTree)
    (hfull : ∀ i < k, t.nodes i ≠ .null) : initNodes C v d initial k t = .ok t := by
  induction k with
  | zero => rfl
  | succ k ih =>
    have hnode : initNode C v d initial t k = .ok t := by
      unfold initNode
      cases h : t.nodes k with
      | null => exact absurd h (hfull k (by omega))
      | own bytes => rfl
      | currPar => rfl
    rw [initNodes, hnode]
    exact ih fun i hi => hfull i (by omega)

lemma nodes_ne_null {t : MerkleTree} {h : ℕ} {c : ℕ → List UInt8} (ht : t.Holds h c) :
    ∀ i < t.numNodes, t.nodes i ≠ .null := by
  intro i hi hnull
  rw [MerkleTree.numNodes, ht.height_eq] at hi
  have hget := ht.get_eq i hi
  rw [MerkleTree.get, hnull] at hget
  exact absurd hget (by simp)

lemma initMerkleTree_initial (h : ℕ) :
    ∃ t, initMerkleTree C v d true (freshTree (2^h)) = .ok t ∧
      t.Holds h (fun i => List.replicate (hashSz h i) 0) ∧ t.Unaliased := by
  have hheight : (freshTree (2^h)).height = h := Nat.log2_two_pow
  obtain ⟨t, hrun, hth, hnodes⟩ := initNodes_initial C v d (freshTree (2^h)).numNodes
    (freshTree (2^h)) (fun _ _ => rfl)
  have hnum : (freshTree (2^h)).numNodes = 2^(h+1) - 1 := by
    rw [MerkleTree.numNodes, hheight]
  rw [hheight] at hth
  rw [hheight, hnum] at hnodes
  refine ⟨t, ?_, ⟨hth, ?_, ?_⟩, ?_⟩
  · rw [initMerkleTree, hrun]
    rfl
  · intro i hi
    rw [MerkleTree.get, hnodes i, if_pos hi]
  · intro i j hi _
    rw [hnodes i] at hi
    split_ifs at hi
    exact absurd hi (by simp [freshTree])
  · intro i hi
    rw [hnodes i] at hi
    split_ifs at hi
    exact absurd hi (by simp [freshTree])

lemma flushMerkleTree_eq {t : MerkleTree} {h : ℕ} {c : ℕ → List UInt8} (ht : t.Holds h c)
    (hfit : v.MetaFits d) (hlen : (c 0).length = hmacLen) :
    flushMerkleTree C v d t = .ok (t, v.putRoot d ⟨c 0, hlen⟩) := by
  have hroot : t.get 0 = some (c 0) := ht.get_eq 0 (by rw [two_pow_succ_sub]; omega)
  have hptr : rootPtr t = .buffer ⟨c 0, hlen⟩ := by simp [rootPtr, hroot, hlen]
  unfold flushMerkleTree flushNodes
  rw [initNodes_full C v d false _ t (nodes_ne_null ht)]
  simp [bind, Except.bind, hptr, saveRootHash_eq hfit]

lemma initMerkleTree_full {t : MerkleTree} {h : ℕ} {c : ℕ → List UInt8} (ht : t.Holds h c)
    (hfit : v.MetaFits d) (hsaved : (v.rootOf d).toList = c 0) :
    initMerkleTree C v d false t = .ok t := by
  have hroot : t.get 0 = some (c 0) := ht.get_eq 0 (by rw [two_pow_succ_sub]; omega)
  unfold initMerkleTree
  rw [initNodes_full C v d false _ t (nodes_ne_null ht)]
  simp [bind, Except.bind, readBlkMeta_root hfit, hroot, hsaved]

end Bfs.Fs
