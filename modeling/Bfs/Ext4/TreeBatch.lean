import Bfs.Ext4.BlockDev
import Bfs.Fs.Stored

/-! The tree functions of the lwext4 device on a complete tree: a request sets a range of leaves, then
either rehashes their ancestors or compares the hashes of their parents. -/
namespace Bfs.Ext4
open ByteSeq HeapTree Bfs.Fs

section Nodes

lemma ancestors_eq_ascend (k i : ℕ) : ancestors k i = ascend k i := by
  induction k generalizing i with
  | zero => rfl
  | succ k ih =>
    unfold ancestors ascend
    split_ifs with hi
    · rfl
    · rw [ih, nextUp_eq_up (Nat.pos_of_ne_zero hi)]

lemma mem_uniqueNodes {k start cnt i : ℕ} :
    i ∈ uniqueNodes (k+1) start cnt ↔
      ∃ j < cnt, i ∈ ascend (k+1) (up (leaf (k+1) (start + j))) := by
  simp only [uniqueNodes, Finset.mem_sort, List.mem_toFinset, List.mem_flatMap, List.mem_range,
    ancestors_eq_ascend, nextUp_eq_up (leaf_succ_pos k _)]

lemma pairwise_uniqueNodes (h start cnt : ℕ) : (uniqueNodes h start cnt).Pairwise (· > ·) :=
  (Finset.sortedGT_sort _).pairwise

lemma uniqueNodes_lt {k start cnt i : ℕ} (hin : start + cnt ≤ 2^(k+1))
    (hi : i ∈ uniqueNodes (k+1) start cnt) : i < 2^(k+1) - 1 := by
  obtain ⟨j, hj, hmem⟩ := mem_uniqueNodes.mp hi
  exact (le_of_mem_ascend hmem).trans_lt (up_leaf_lt (by omega))

lemma up_leaf_mem_uniqueNodes (start : ℕ) {k cnt j : ℕ} (hj : j < cnt) :
    up (leaf (k+1) (start + j)) ∈ uniqueNodes (k+1) start cnt := by
  apply mem_uniqueNodes.mpr
  exact ⟨j, hj, by simp [ascend]⟩

end Nodes

section Batch

/-- A complete tree of height `k+1` with hashes of the right sizes, none of them in the scratch
buffer. -/
structure Ready (t : MerkleTree) (k : ℕ) (c : ℕ → List UInt8) : Prop where
  holds : t.Holds (k+1) c
  unaliased : t.Unaliased
  inner_len : ∀ i < 2^(k+1) - 1, (c i).length = hmacLen
  leaf_len : ∀ b, (c (leaf (k+1) b)).length = macLen

/-- `c₁` is `c` with the MACs `macs j` in the leaves `start+j`, for `j` from `lo` to `hi`. -/
structure LeavesSet (k : ℕ) (c c₁ : ℕ → List UInt8) (start lo hi : ℕ) (macs : ℕ → Mac) : Prop where
  inner : ∀ i < 2^(k+1) - 1, c₁ i = c i
  outside : ∀ b, (b < start + lo ∨ start + hi ≤ b) → c₁ (leaf (k+1) b) = c (leaf (k+1) b)
  inside : ∀ j, lo ≤ j → j < hi → c₁ (leaf (k+1) (start + j)) = (macs j).toList

variable {C : Crypto} {v : Volume} {d : Disk} {t : MerkleTree} {k : ℕ} {c : ℕ → List UInt8}

lemma leaf_ge (k b : ℕ) : 2^(k+1) - 1 ≤ leaf (k+1) b := Nat.le_add_left _ _

lemma Ready.root_get (ht : Ready t k c) : t.get 0 = some (c 0) :=
  ht.holds.get_eq 0 (by rw [two_pow_succ_sub]; omega)

lemma Ready.setLeaf (ht : Ready t k c) (b : ℕ) (mac : Mac) :
    Ready (t.point (leaf (k+1) b) (.own mac.toList)) k
      (Function.update c (leaf (k+1) b) mac.toList) where
  holds := ht.holds.point _ _
  unaliased := ht.unaliased.point _ _
  inner_len := by
    intro i hi
    have hge := leaf_ge k b
    rw [Function.update_of_ne (by omega), ht.inner_len i hi]
  leaf_len := by
    intro a
    by_cases hab : leaf (k+1) a = leaf (k+1) b
    · rw [hab, Function.update_self]
      exact mac.length_toList
    · rw [Function.update_of_ne hab, ht.leaf_len a]

lemma setLeaves_eq (start : ℕ) {macs : ℕ → Option Mac} {f : ℕ → Mac} (m j : ℕ) (ht : Ready t k c)
    (hin : start + (j + m) ≤ 2^(k+1)) (hmacs : ∀ i, j ≤ i → i < j + m → macs i = some (f i)) :
    ∃ t' c₁, setLeaves start macs m j t = (.ok (), t') ∧ Ready t' k c₁ ∧
      LeavesSet k c c₁ start j (j + m) f := by
  induction m generalizing j t c with
  | zero => exact ⟨t, c, rfl, ht, fun _ _ => rfl, fun _ _ => rfl, fun i h₁ h₂ => by omega⟩
  | succ m ih =>
    have hstep := ht.setLeaf (start + j) (f j)
    obtain ⟨t', c₁, hrun, ht', hset⟩ := ih (j+1) hstep (by omega)
      (fun i h₁ h₂ => hmacs i (by omega) (by omega))
    have hleaf := ht.holds.get_eq _ (leaf_lt (b := start + j) (by omega))
    refine ⟨t', c₁, ?_, ht', ?_, ?_, ?_⟩
    · rw [setLeaves]
      simp only [ht.holds.height_eq, hleaf, hmacs j le_rfl (by omega)]
      exact hrun
    · intro i hi
      have hge := leaf_ge k (start + j)
      rw [hset.inner i hi, Function.update_of_ne (by omega)]
    · intro b hb
      rw [hset.outside b (by omega), Function.update_of_ne]
      intro heq
      have := leaf_injective (k+1) heq
      omega
    · intro i h₁ h₂
      by_cases hij : i = j
      · subst hij
        rw [hset.outside (start + i) (by omega), Function.update_self]
      · exact hset.inside i (by omega) (by omega)

lemma macs_of_setLeaves (start : ℕ) (macs : ℕ → Option Mac) (m j : ℕ)
    (hok : (setLeaves start macs m j t).1 = .ok ()) :
    ∀ i, j ≤ i → i < j + m → ∃ mac, macs i = some mac := by
  induction m generalizing j t with
  | zero => intro i h₁ h₂; omega
  | succ m ih =>
    simp only [setLeaves] at hok
    split_ifs at hok
    cases hmac : macs j with
    | none => simp [hmac] at hok
    | some mac =>
      simp only [hmac] at hok
      intro i h₁ h₂
      by_cases hij : i = j
      · exact ⟨mac, hij ▸ hmac⟩
      · exact ih (j+1) hok i (by omega) (by omega)

lemma Ready.store (ht : Ready t k c) {i : ℕ} (hi : i < 2^(k+1) - 1) {bytes : List UInt8}
    (hlen : bytes.length = hmacLen) : Ready (t.store i bytes) k (Function.update c i bytes) where
  holds := ht.holds.store i bytes
  unaliased := by
    rw [ht.unaliased.store_eq]
    exact ht.unaliased.point i bytes
  inner_len := by
    intro j hj
    by_cases hji : j = i
    · rw [hji, Function.update_self, hlen]
    · rw [Function.update_of_ne hji, ht.inner_len j hj]
  leaf_len := by
    intro b
    have hge := leaf_ge k b
    rw [Function.update_of_ne (by omega), ht.leaf_len b]

lemma rehashNodes_eq (ns : List ℕ) (ht : Ready t k c) (hns : ∀ i ∈ ns, i < 2^(k+1) - 1) :
    ∃ t', rehashNodes C v d ns t = (.ok (), t') ∧
      Ready t' k (recompute (innerHash C (k+1)) c ns) := by
  induction ns generalizing t c with
  | nil => exact ⟨t, rfl, ht⟩
  | cons i ns ih =>
    have hi := hns i List.mem_cons_self
    have hhash := hashNode_inner C v d ht.holds i hi
    obtain ⟨t', hrun, ht'⟩ := ih (ht.store hi (length_innerHash C (k+1) i _ _))
      (fun a ha => hns a (List.mem_cons_of_mem _ ha))
    refine ⟨t', ?_, ht'⟩
    simp only [rehashNodes, hhash]
    exact hrun

lemma checkNodes_cases (ns : List ℕ) (ht : Ready t k c) (hns : ∀ i ∈ ns, i < 2^(k+1) - 1)
    (hdesc : ns.Pairwise (· > ·)) :
    (∃ t', checkNodes C v d ns t = (.ok (), t') ∧ Ready t' k c ∧
      ∀ i ∈ ns, 2^k - 1 ≤ i → innerHash C (k+1) i (c (2*i+1)) (c (2*i+2)) = c i) ∨
    ((checkNodes C v d ns t).1 = .error .aborted ∧
      ∃ i ∈ ns, 2^k - 1 ≤ i ∧ innerHash C (k+1) i (c (2*i+1)) (c (2*i+2)) ≠ c i) := by
  induction ns generalizing t with
  | nil => exact Or.inl ⟨t, rfl, ht, by simp⟩
  | cons i ns ih =>
    have hi := hns i List.mem_cons_self
    obtain ⟨hlt, hdesc⟩ := List.pairwise_cons.mp hdesc
    by_cases habove : i < 2^k - 1
    · -- All remaining nodes lie above the parents of the leaves.
      refine Or.inl ⟨t, ?_, ht, ?_⟩
      · simp only [checkNodes, ht.holds.height_eq, Nat.add_sub_cancel, if_pos habove]
      · intro a ha hge
        have hle : a ≤ i := by
          cases List.mem_cons.mp ha with
          | inl heq => exact heq.le
          | inr hmem => exact (hlt a hmem).le
        omega
    · have hget : t.get i = some (c i) := ht.holds.get_eq i (by rw [two_pow_succ_sub]; omega)
      have htake : (c i).take hmacLen = c i := List.take_of_length_le (ht.inner_len i hi).le
      have hscratch : Ready (t.setCurrPar (c i)) k c :=
        ⟨ht.holds.scratch ht.unaliased _, ht.unaliased, ht.inner_len, ht.leaf_len⟩
      have hhash := hashNode_inner C v d hscratch.holds i hi
      have hstored := hscratch.store hi (length_innerHash C (k+1) i (c (2*i+1)) (c (2*i+2)))
      have hval := hstored.holds.get_eq i (by rw [two_pow_succ_sub]; omega)
      rw [Function.update_self] at hval
      have hcur : ((t.setCurrPar (c i)).store i
          (innerHash C (k+1) i (c (2*i+1)) (c (2*i+2)))).currPar = c i := by
        rw [hscratch.unaliased.store_eq]
        rfl
      have hrun : checkNodes C v d (i::ns) t =
          if innerHash C (k+1) i (c (2*i+1)) (c (2*i+2)) = c i then
            checkNodes C v d ns ((t.setCurrPar (c i)).store i
              (innerHash C (k+1) i (c (2*i+1)) (c (2*i+2))))
          else (.error .aborted, (t.setCurrPar (c i)).store i
              (innerHash C (k+1) i (c (2*i+1)) (c (2*i+2)))) := by
        simp only [checkNodes, ht.holds.height_eq, Nat.add_sub_cancel, if_neg habove, hget, htake,
          hhash, hval, hcur, Option.some.injEq]
      by_cases heq : innerHash C (k+1) i (c (2*i+1)) (c (2*i+2)) = c i
      · rw [hrun, if_pos heq]
        have hsame : Function.update c i (innerHash C (k+1) i (c (2*i+1)) (c (2*i+2))) = c := by
          rw [heq, Function.update_eq_self]
        rw [hsame] at hstored
        cases ih hstored (fun a ha => hns a (List.mem_cons_of_mem _ ha)) hdesc with
        | inl hok =>
          obtain ⟨t', hrun', ht', hall⟩ := hok
          refine Or.inl ⟨t', hrun', ht', ?_⟩
          intro a ha hge
          cases List.mem_cons.mp ha with
          | inl haeq => exact haeq ▸ heq
          | inr hmem => exact hall a hmem hge
        | inr hbad =>
          obtain ⟨hrun', a, ha, hge, hne⟩ := hbad
          exact Or.inr ⟨hrun', a, List.mem_cons_of_mem _ ha, hge, hne⟩
      · rw [hrun, if_neg heq]
        exact Or.inr ⟨rfl, i, List.mem_cons_self, by omega, heq⟩

lemma updateMerkleTree_eq (C : Crypto) {cfg : DevCfg} {start cnt : ℕ} {macs : ℕ → Option Mac} {f : ℕ → Mac}
    (ht : Ready t k c) (hcnt : 0 < cnt) (hin : start + cnt ≤ 2^(k+1))
    (hmacs : ∀ i < cnt, macs i = some (f i)) (hfit : cfg.vol.MetaFits d) :
    ∃ t' c₁ root, updateMerkleTree C cfg d t start cnt macs =
        (.ok (), t', cfg.vol.putRoot d root) ∧
      LeavesSet k c c₁ start 0 cnt f ∧
      Ready t' k (recompute (innerHash C (k+1)) c₁ (uniqueNodes (k+1) start cnt)) := by
  obtain ⟨t₁, c₁, hset, ht₁, hleaves⟩ := setLeaves_eq start cnt 0 ht (by omega)
    (fun i _ hi => hmacs i (by omega))
  rw [Nat.zero_add] at hleaves
  obtain ⟨t', hrehash, ht'⟩ := rehashNodes_eq (C := C) (v := cfg.vol) (d := d)
    (uniqueNodes (k+1) start cnt) ht₁ (fun i hi => uniqueNodes_lt hin hi)
  have hpow := Nat.one_le_two_pow (n := k)
  have hlen := ht'.inner_len 0 (by rw [pow_succ]; omega)
  have hptr : rootPtr t' = .buffer ⟨_, hlen⟩ := by simp [rootPtr, ht'.root_get, hlen]
  refine ⟨t', c₁, ⟨_, hlen⟩, ?_, hleaves, ht'⟩
  simp only [updateMerkleTree, ht.root_get, hset, ht₁.holds.height_eq, hrehash, hptr,
    saveRootHash_eq hfit, reduceCtorEq, if_false, hcnt.ne', false_and, ne_eq, not_false_eq_true,
    true_and, Nat.succ_ne_zero]

lemma verifyMt_ok {cfg : DevCfg} {start cnt : ℕ} {macs : ℕ → Option Mac} (ht : Ready t k c)
    (hin : start + cnt ≤ 2^(k+1)) (hok : (verifyMt C cfg d t start cnt macs).1 = .ok ()) :
    ∃ f c₁, (∀ i < cnt, macs i = some (f i)) ∧ LeavesSet k c c₁ start 0 cnt f ∧
      Ready (verifyMt C cfg d t start cnt macs).2 k c₁ ∧
      ∀ j < cnt, pairHash C (c₁ (leaf (k+1) (2*((start+j)/2))))
        (c₁ (leaf (k+1) (2*((start+j)/2)+1))) = c (up (leaf (k+1) (start+j))) := by
  have hsetOk : (setLeaves start macs cnt 0 t).1 = .ok () := by
    simp only [verifyMt, ht.root_get, reduceCtorEq, if_false] at hok
    cases hset : setLeaves start macs cnt 0 t with
    | mk res t₁ =>
      cases res with
      | ok u => rfl
      | error e => simp [hset] at hok
  have hall := macs_of_setLeaves start macs cnt 0 hsetOk
  have hmacs : ∀ i < cnt, macs i = some ((macs i).getD (Buf.fill 0 macLen)) := by
    intro i hi
    obtain ⟨mac, hmac⟩ := hall i (Nat.zero_le i) (by omega)
    rw [hmac]
    rfl
  obtain ⟨t₁, c₁, hset, ht₁, hleaves⟩ := setLeaves_eq start cnt 0 ht (by omega)
    (fun i _ hi => hmacs i (by omega))
  rw [Nat.zero_add] at hleaves
  have hrun : verifyMt C cfg d t start cnt macs =
      checkNodes C cfg.vol d (uniqueNodes (k+1) start cnt) t₁ := by
    simp only [verifyMt, ht.root_get, hset, ht₁.holds.height_eq, reduceCtorEq, if_false]
  rw [hrun] at hok ⊢
  cases checkNodes_cases (C := C) (v := cfg.vol) (d := d) (uniqueNodes (k+1) start cnt) ht₁
      (fun i hi => uniqueNodes_lt hin hi) (pairwise_uniqueNodes _ _ _) with
  | inr hbad =>
    rw [hbad.1] at hok
    exact absurd hok (by simp)
  | inl hgood =>
    obtain ⟨t', hcheck, ht', hparents⟩ := hgood
    refine ⟨_, c₁, hmacs, hleaves, by rw [hcheck]; exact ht', ?_⟩
    intro j hj
    have hlt := up_leaf_lt (h := k) (b := start + j) (by omega)
    have hparent := hparents _ (up_leaf_mem_uniqueNodes start hj)
      (by rw [up_leaf]; exact Nat.le_add_left _ _)
    obtain ⟨hl, hr⟩ := children_up_leaf k (start + j)
    rw [innerHash_up_leaf, hl, hr, hleaves.inner _ hlt] at hparent
    exact hparent

lemma setLeaves_error (start : ℕ) (macs : ℕ → Option Mac) {e : DevErr} (m j : ℕ) (ht : Ready t k c)
    (hin : start + (j + m) ≤ 2^(k+1)) (herr : (setLeaves start macs m j t).1 = .error e) :
    e = .undefined := by
  induction m generalizing j t c with
  | zero => exact absurd herr (by simp [setLeaves])
  | succ m ih =>
    have hleaf := ht.holds.get_eq _ (leaf_lt (b := start + j) (by omega))
    simp only [setLeaves, ht.holds.height_eq, hleaf, reduceCtorEq, if_false] at herr
    cases hmac : macs j with
    | none =>
      simp only [hmac] at herr
      exact (Except.error.inj herr).symm
    | some mac =>
      simp only [hmac] at herr
      exact ih (j+1) (ht.setLeaf (start + j) mac) (by omega) herr

lemma verifyMt_error {cfg : DevCfg} {start cnt : ℕ} {macs : ℕ → Option Mac} {e : DevErr}
    (ht : Ready t k c) (hin : start + cnt ≤ 2^(k+1))
    (herr : (verifyMt C cfg d t start cnt macs).1 = .error e) : e.survived = false := by
  cases hset : setLeaves start macs cnt 0 t with
  | mk res t₁ =>
    cases res with
    | error e' =>
      have he' : e' = .undefined := setLeaves_error start macs cnt 0 ht (by omega)
        (by rw [hset])
      simp only [verifyMt, ht.root_get, hset, reduceCtorEq, if_false] at herr
      rw [← Except.error.inj herr, he']
      rfl
    | ok u =>
      have hall := macs_of_setLeaves start macs (t := t) cnt 0 (by rw [hset])
      have hget : ∀ i, 0 ≤ i → i < 0 + cnt →
          macs i = some ((macs i).getD (Buf.fill 0 macLen)) := by
        intro i h₁ h₂
        obtain ⟨mac, hmac⟩ := hall i h₁ h₂
        rw [hmac]
        rfl
      obtain ⟨t₂, c₁, hset', ht₁, -⟩ := setLeaves_eq start
        (f := fun i => (macs i).getD (Buf.fill 0 macLen)) cnt 0 ht (by omega) hget
      rw [hset, Prod.mk.injEq] at hset'
      obtain ⟨-, rfl⟩ := hset'
      simp only [verifyMt, ht.root_get, hset, ht₁.holds.height_eq, reduceCtorEq, if_false] at herr
      cases checkNodes_cases (C := C) (v := cfg.vol) (d := d) (uniqueNodes (k+1) start cnt) ht₁
          (fun i hi => uniqueNodes_lt hin hi) (pairwise_uniqueNodes _ _ _) with
      | inl hgood =>
        obtain ⟨t', hcheck, -, -⟩ := hgood
        rw [hcheck] at herr
        exact absurd herr (by simp)
      | inr hbad =>
        rw [hbad.1] at herr
        rw [← Except.error.inj herr]
        rfl

end Batch

end Bfs.Ext4
