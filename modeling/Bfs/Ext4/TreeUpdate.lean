import Bfs.Ext4.TreeBatch
import Bfs.Fs.Primitives

/-! The update of the tree for a batch of blocks: its effect on every node, and that it is the same as the
updates for the single blocks in any order. -/
namespace Bfs.Ext4
open ByteSeq HeapTree Bfs.Fs

def Above (i x : ℕ) : Prop := i < x ∧ ∃ n, up^[n+1] x = i

def updateOneByOne (C : Crypto) (cfg : DevCfg) (start : ℕ) (macs : ℕ → Option Mac) :
    List ℕ → Disk → MerkleTree → Except DevErr Unit × MerkleTree × Disk
  | [], d, t => (.ok (), t, d)
  | j::js, d, t =>
    match updateMerkleTree C cfg d t (start + j) 1 fun _ => macs j with
    | (.ok _, t, d) => updateOneByOne C cfg start macs js d t
    | r => r

/-- `c'` is `c` after the leaves of `js` have got new MACs: their ancestors are the hashes of their
children, and no other node is changed. -/
structure Rehashed (C : Crypto) (h start : ℕ) (f : ℕ → Mac) (js : List ℕ) (c c' : ℕ → List UInt8) :
    Prop where
  leaves : ∀ j ∈ js, c' (leaf h (start + j)) = (f j).toList
  above : ∀ j ∈ js, ∀ i, Above i (leaf h (start + j)) →
    c' i = innerHash C h i (c' (2*i+1)) (c' (2*i+2))
  other : ∀ i, (∀ j ∈ js, i ≠ leaf h (start + j) ∧ ¬Above i (leaf h (start + j))) → c' i = c i

/-- The update for a batch returns, rehashes the ancestors of its leaves and nothing else, and leaves
the tree that the updates for its blocks leave in any order. -/
def BatchExact (C : Crypto) (cfg : DevCfg) (d : Disk) (t : MerkleTree) (h : ℕ) (c : ℕ → List UInt8)
    (start cnt : ℕ) (macs : ℕ → Option Mac) (f : ℕ → Mac) : Prop :=
  ∃ t' d' c', updateMerkleTree C cfg d t start cnt macs = (.ok (), t', d') ∧ t'.Holds h c' ∧
    Rehashed C h start f (List.range cnt) c c' ∧
    ∀ js : List ℕ, js.Perm (List.range cnt) →
      ∃ t'' d'', updateOneByOne C cfg start macs js d t = (.ok (), t'', d'') ∧ t''.Holds h c'

section Above

variable {k b i : ℕ}

lemma up_le (i : ℕ) : up i ≤ i := by
  unfold up
  omega

lemma up_leaf_lt_leaf (k b : ℕ) : up (leaf (k+1) b) < leaf (k+1) b := by
  have hpos := leaf_succ_pos k b
  unfold up
  omega

lemma mem_ascend_up_leaf_iff (hb : b < 2^(k+1)) :
    i ∈ ascend (k+1) (up (leaf (k+1) b)) ↔ Above i (leaf (k+1) b) := by
  constructor
  · intro hi
    exact ⟨(le_of_mem_ascend hi).trans_lt (up_leaf_lt_leaf k b),
      (mem_ascend_iff (up_leaf_lt hb)).mp hi⟩
  · intro hi
    exact (mem_ascend_iff (up_leaf_lt hb)).mpr hi.2

lemma Above.lt (hb : b < 2^(k+1)) (hi : Above i (leaf (k+1) b)) : i < 2^(k+1) - 1 :=
  (le_of_mem_ascend ((mem_ascend_up_leaf_iff hb).mpr hi)).trans_lt (up_leaf_lt hb)

lemma above_of_child {a : ℕ} (hchild : up a = i) (ha : a = leaf (k+1) b ∨ Above a (leaf (k+1) b)) :
    Above i (leaf (k+1) b) := by
  rcases ha with rfl | ⟨hlt, n, hn⟩
  · exact ⟨hchild ▸ up_leaf_lt_leaf k b, 0, hchild⟩
  · refine ⟨(hchild ▸ up_le a).trans_lt hlt, n+1, ?_⟩
    rw [Function.iterate_succ_apply', hn, hchild]

lemma up_left (i : ℕ) : up (2*i+1) = i := by
  unfold up
  omega

lemma up_right (i : ℕ) : up (2*i+2) = i := by
  unfold up
  omega

end Above

section Batch

variable {C : Crypto} {cfg : DevCfg} {d : Disk} {t : MerkleTree} {k start cnt : ℕ}
  {c c₁ c' c'' : ℕ → List UInt8} {f : ℕ → Mac} {js : List ℕ}

lemma Rehashed.unique (hin : ∀ j ∈ js, start + j < 2^(k+1))
    (h' : Rehashed C (k+1) start f js c c') (h'' : Rehashed C (k+1) start f js c c'') : c' = c'' := by
  apply eq_of_consistent (innerHash C (k+1))
    (A := {i | ∃ j ∈ js, Above i (leaf (k+1) (start + j))}) (m := 2^(k+1) - 1)
  · rintro i ⟨j, hj, habove⟩
    exact habove.lt (hin j hj)
  · rintro i ⟨j, hj, habove⟩
    exact h'.above j hj i habove
  · rintro i ⟨j, hj, habove⟩
    exact h''.above j hj i habove
  · intro i hi
    by_cases hleaf : ∃ j ∈ js, i = leaf (k+1) (start + j)
    · obtain ⟨j, hj, rfl⟩ := hleaf
      rw [h'.leaves j hj, h''.leaves j hj]
    · have hoff : ∀ j ∈ js, i ≠ leaf (k+1) (start + j) ∧ ¬Above i (leaf (k+1) (start + j)) :=
        fun j hj => ⟨fun heq => hleaf ⟨j, hj, heq⟩, fun habove => hi ⟨j, hj, habove⟩⟩
      rw [h'.other i hoff, h''.other i hoff]

lemma Rehashed.congr (js' : List ℕ) (hmem : ∀ j, j ∈ js' ↔ j ∈ js)
    (h : Rehashed C (k+1) start f js c c') : Rehashed C (k+1) start f js' c c' where
  leaves := fun j hj => h.leaves j ((hmem j).mp hj)
  above := fun j hj => h.above j ((hmem j).mp hj)
  other := fun i hoff => h.other i fun j hj => hoff j ((hmem j).mpr hj)

lemma rehashed_batch (hin : start + cnt ≤ 2^(k+1)) (hset : LeavesSet k c c₁ start 0 cnt f) :
    Rehashed C (k+1) start f (List.range cnt) c
      (recompute (innerHash C (k+1)) c₁ (uniqueNodes (k+1) start cnt)) := by
  have hmem : ∀ i, i ∈ uniqueNodes (k+1) start cnt ↔
      ∃ j < cnt, Above i (leaf (k+1) (start + j)) := by
    intro i
    rw [mem_uniqueNodes]
    constructor
    · rintro ⟨j, hj, hi⟩
      exact ⟨j, hj, (mem_ascend_up_leaf_iff (by omega)).mp hi⟩
    · rintro ⟨j, hj, hi⟩
      exact ⟨j, hj, (mem_ascend_up_leaf_iff (by omega)).mpr hi⟩
  constructor
  · intro j hj
    have hlt := List.mem_range.mp hj
    have hge := leaf_ge k (start + j)
    rw [recompute_of_notMem _ _ _ fun hi => absurd (uniqueNodes_lt hin hi) (by omega)]
    exact hset.inside j (Nat.zero_le j) hlt
  · intro j hj i habove
    exact recompute_of_mem _ _ (pairwise_uniqueNodes _ _ _)
      ((hmem i).mpr ⟨j, List.mem_range.mp hj, habove⟩)
  · intro i hoff
    have hnot : i ∉ uniqueNodes (k+1) start cnt := by
      intro hi
      obtain ⟨j, hj, habove⟩ := (hmem i).mp hi
      exact (hoff j (List.mem_range.mpr hj)).2 habove
    rw [recompute_of_notMem _ _ _ hnot]
    by_cases hi : i < 2^(k+1) - 1
    · exact hset.inner i hi
    · -- a node that is not an inner one is a leaf
      obtain ⟨b, rfl⟩ : ∃ b, i = leaf (k+1) b := ⟨i - (2^(k+1) - 1), by unfold leaf; omega⟩
      apply hset.outside b
      by_contra hb
      apply (hoff (b - start) (List.mem_range.mpr (by omega))).1
      rw [Nat.add_sub_cancel' (by omega)]

lemma Rehashed.step {j : ℕ} (hin : ∀ i ∈ j::js, start + i < 2^(k+1))
    (h : Rehashed C (k+1) start f js c c₁)
    (hone : Rehashed C (k+1) (start + j) (fun _ => f j) (List.range 1) c₁ c') :
    Rehashed C (k+1) start f (j::js) c c' := by
  have hj : start + j < 2^(k+1) := hin j List.mem_cons_self
  have hkeep : ∀ i, i ≠ leaf (k+1) (start + j) → ¬Above i (leaf (k+1) (start + j)) → c' i = c₁ i := by
    intro i hne hnot
    apply hone.other i
    intro a ha
    obtain rfl := Nat.lt_one_iff.mp (List.mem_range.mp ha)
    exact ⟨hne, hnot⟩
  have hnew : ∀ i, Above i (leaf (k+1) (start + j)) →
      c' i = innerHash C (k+1) i (c' (2*i+1)) (c' (2*i+2)) :=
    hone.above 0 (by simp)
  constructor
  · intro a ha
    have hge := leaf_ge k (start + a)
    by_cases haj : a = j
    · rw [haj]
      exact hone.leaves 0 (by simp)
    · have hmem : a ∈ js := (List.mem_cons.mp ha).resolve_left haj
      rw [hkeep _ (fun heq => haj (by have := leaf_injective (k+1) heq; omega))
        (fun habove => absurd (habove.lt hj) (by omega))]
      exact h.leaves a hmem
  · intro a ha i habove
    by_cases hi : Above i (leaf (k+1) (start + j))
    · exact hnew i hi
    · have haj : a ≠ j := fun heq => hi (heq ▸ habove)
      have hmem : a ∈ js := (List.mem_cons.mp ha).resolve_left haj
      have hlt := habove.lt (hin a ha)
      have hge := leaf_ge k (start + j)
      have hchild : ∀ x, up x = i → c' x = c₁ x := fun x hx =>
        hkeep x (fun heq => hi (above_of_child hx (Or.inl heq)))
          (fun hx' => hi (above_of_child hx (Or.inr hx')))
      rw [hkeep i (by omega) hi, hchild _ (up_left i), hchild _ (up_right i)]
      exact h.above a hmem i habove
  · intro i hoff
    obtain ⟨hne, hnot⟩ := hoff j List.mem_cons_self
    rw [hkeep i hne hnot]
    exact h.other i fun a ha => hoff a (List.mem_cons_of_mem j ha)

/-- The updates for single blocks, one after another, after those for `done`. -/
lemma updateOneByOne_eq {macs : ℕ → Option Mac} (js done : List ℕ) (ht : Ready t k c₁)
    (hfit : cfg.vol.MetaFits d) (hin : ∀ j ∈ js ++ done, start + j < 2^(k+1))
    (hmacs : ∀ j ∈ js, macs j = some (f j)) (h : Rehashed C (k+1) start f done c c₁) :
    ∃ t' d' c', updateOneByOne C cfg start macs js d t = (.ok (), t', d') ∧ Ready t' k c' ∧
      Rehashed C (k+1) start f (js ++ done) c c' := by
  induction js generalizing d t c₁ done with
  | nil => exact ⟨t, d, c₁, rfl, ht, h⟩
  | cons j js ih =>
    have hj : start + j < 2^(k+1) := hin j (by simp)
    have hfits : start + j + 1 ≤ 2^(k+1) := hj
    have hmac : ∀ i < 1, (fun _ : ℕ => macs j) i = some ((fun _ : ℕ => f j) i) :=
      fun _ _ => hmacs j List.mem_cons_self
    obtain ⟨t₂, c₂, root, hrun, hset, ht₂⟩ := updateMerkleTree_eq C ht one_pos hfits hmac hfit
    have hone := rehashed_batch (C := C) (by omega) hset
    have hstep := h.step (j := j) (fun i hi => hin i (by
      cases List.mem_cons.mp hi with
      | inl heq => simp [heq]
      | inr hdone => simp [hdone])) hone
    have hperm : ∀ i, i ∈ js ++ j::done ↔ i ∈ j::js ++ done := fun i => by
      simp only [List.cons_append, List.mem_cons, List.mem_append]
      tauto
    obtain ⟨t', d', c', hrest, ht', hre⟩ := ih (d := cfg.vol.putRoot d root) (j::done) ht₂ hfit
      (fun i hi => hin i ((hperm i).mp hi)) (fun i hi => hmacs i (List.mem_cons_of_mem j hi)) hstep
    refine ⟨t', d', c', ?_, ht', hre.congr _ fun i => (hperm i).symm⟩
    simp only [updateOneByOne, hrun]
    exact hrest

/-- A batch of at least one block, in a tree with at least two leaves. -/
theorem batch_update_exact (C : Crypto) {macs : ℕ → Option Mac} (ht : Ready t k c) (hcnt : 0 < cnt)
    (hin : start + cnt ≤ 2^(k+1)) (hmacs : ∀ j < cnt, macs j = some (f j))
    (hfit : cfg.vol.MetaFits d) : BatchExact C cfg d t (k+1) c start cnt macs f := by
  obtain ⟨t', c₁, root, hrun, hset, ht'⟩ := updateMerkleTree_eq C ht hcnt hin hmacs hfit
  have hbatch := rehashed_batch (C := C) hin hset
  refine ⟨t', _, _, hrun, ht'.holds, hbatch, ?_⟩
  intro js hperm
  have hlt : ∀ j ∈ js, j < cnt := fun j hj => List.mem_range.mp (hperm.mem_iff.mp hj)
  have hnone : Rehashed C (k+1) start f [] c c :=
    ⟨fun j hj => absurd hj (by simp), fun j hj => absurd hj (by simp), fun _ _ => rfl⟩
  obtain ⟨t'', d'', c'', hseq, ht'', hre⟩ := updateOneByOne_eq js [] ht hfit
    (fun j hj => by have := hlt j (by simpa using hj); omega) (fun j hj => hmacs j (hlt j hj)) hnone
  have hsame := (hre.congr (List.range cnt) fun j => by
    rw [List.append_nil, hperm.mem_iff]).unique (fun j hj => by
      have := List.mem_range.mp hj
      omega) hbatch
  exact ⟨t'', d'', hseq, hsame ▸ ht''.holds⟩

end Batch

section Examples

def zeroNodes (h i : ℕ) : List UInt8 := List.replicate (if i < 2^h - 1 then hmacLen else macLen) 0

def zeroTree (h : ℕ) : MerkleTree := ⟨h, fun i => .own (zeroNodes h i), []⟩

lemma zeroTree_ready (k : ℕ) : Ready (zeroTree (k+1)) k (zeroNodes (k+1)) where
  holds := ⟨rfl, fun _ _ => rfl, fun i j hi => absurd hi (by simp [zeroTree])⟩
  unaliased := fun i hi => absurd hi (by simp [zeroTree])
  inner_len := by
    intro i hi
    rw [zeroNodes, List.length_replicate, if_pos hi]
  leaf_len := by
    intro b
    have hge := leaf_ge k b
    rw [zeroNodes, List.length_replicate, if_neg (by omega)]

def plainCrypto : Crypto where
  enc := fun _ iv data => (data, macOfIv iv)
  dec := fun _ _ ct _ => some ct
  hmac := fun _ => Buf.fill 0 hmacLen

def fourBlks : DevCfg := ⟨4, true⟩

def fourBlksDisk : Disk := ⟨4 + lwext4MetaSpc 4, fun _ => Buf.fill 0 blkSz⟩

lemma fourBlksDisk_fits : fourBlks.vol.MetaFits fourBlksDisk := by
  unfold Volume.MetaFits
  decide

theorem batch_update_exact_middle : fourBlks.vol.MetaFits fourBlksDisk ∧
    BatchExact plainCrypto fourBlks fourBlksDisk (zeroTree 2) 2 (zeroNodes 2) 1 2
      (fun _ => some (Buf.fill 1 macLen)) (fun _ => Buf.fill 1 macLen) :=
  ⟨fourBlksDisk_fits, batch_update_exact plainCrypto (zeroTree_ready 1) (by decide) (by decide)
    (fun _ _ => rfl) fourBlksDisk_fits⟩

/-- An empty batch fails the assertion on the index of the last leaf, and in a tree with one leaf the
parent of that leaf lies outside the tree. -/
theorem empty_batch_aborts :
    ¬BatchExact plainCrypto fourBlks fourBlksDisk (zeroTree 2) 2 (zeroNodes 2) 1 0
      (fun _ => some (Buf.fill 1 macLen)) (fun _ => Buf.fill 1 macLen) ∧
    ¬BatchExact plainCrypto ⟨1, true⟩ fourBlksDisk (zeroTree 0) 0 (zeroNodes 0) 0 1
      (fun _ => some (Buf.fill 1 macLen)) (fun _ => Buf.fill 1 macLen) := by
  have hempty : (updateMerkleTree plainCrypto fourBlks fourBlksDisk (zeroTree 2) 1 0
      fun _ => some (Buf.fill 1 macLen)).1 = .error .aborted := rfl
  have hone : (updateMerkleTree plainCrypto ⟨1, true⟩ fourBlksDisk (zeroTree 0) 0 1
      fun _ => some (Buf.fill 1 macLen)).1 = .error .undefined := rfl
  constructor
  · rintro ⟨t', d', c', hrun, -⟩
    rw [hrun] at hempty
    exact absurd hempty (by simp)
  · rintro ⟨t', d', c', hrun, -⟩
    rw [hrun] at hone
    exact absurd hone (by simp)

end Examples

end Bfs.Ext4
