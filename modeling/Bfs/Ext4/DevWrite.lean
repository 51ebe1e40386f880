import Bfs.Ext4.TreeBatch
import Bfs.Fs.TreeSetup

/-! The state of the lwext4 device against the blocks written last, and multi-block writes. -/
namespace Bfs.Ext4
open ByteSeq HeapTree Bfs.Fs

structure Ext4Volume where
  cfg : DevCfg
  levels : ℕ
  pow : cfg.useMt = true → cfg.numBlks = 2^(levels+1)
  disk : Disk
  whole : disk.size = cfg.numBlks + lwext4MetaSpc cfg.numBlks

namespace Ext4Volume

variable (V : Ext4Volume)

def numBlks : ℕ := V.cfg.numBlks

def size : ℕ := V.numBlks + lwext4MetaSpc V.numBlks

lemma metaBlk_eq (b : ℕ) : V.cfg.vol.metaBlk b = V.numBlks + 1 + b / 146 := by
  rw [← metasPerBlk_eq]
  rfl

lemma metaFits {d : Disk} (hd : d.size = V.size) : V.cfg.vol.MetaFits d := by
  have hblk := V.metaBlk_eq V.numBlks
  change V.cfg.vol.metaBlk V.numBlks < d.size
  rw [hd, size, lwext4MetaSpc, hblk, metasPerBlk_eq]
  omega

lemma lt_size {b : ℕ} (hb : b < V.numBlks) : b < V.size := by
  unfold size
  omega

lemma separate {b : ℕ} (hb : b < V.numBlks) : V.cfg.vol.Separate b := by
  refine ⟨hb, ?_⟩
  intro a _
  rw [V.metaBlk_eq]
  omega

def RootSafe (b : ℕ) : Prop := V.cfg.useMt = false ∨ blkMetaBlkLoc b ≠ blkMetaBlkLoc V.numBlks

end Ext4Volume

/-- The state of the device after formatting began: `seen` lists the written blocks, and the device
holds the intact ones. -/
structure DevInv (C : Crypto) (V : Ext4Volume) (s : DevState) (c : ℕ → List UInt8)
    (last : ℕ → Option (Iv × Block)) (intact : ℕ → Prop) : Prop where
  size_eq : s.disk.size = V.size
  started : Status.formatting.code ≤ s.status.code
  usable : s.status ≠ .corrupted
  seen_iff : ∀ b, b ∈ s.seen ↔ (last b).isSome
  tree : V.cfg.useMt = true → Ready s.mt V.levels c
  disk : DiskInv C V.cfg.vol s.disk last intact

/-- The last writes after a request of `blks` from block `start` on. -/
def noteBlks (last : ℕ → Option (Iv × Block)) (start : ℕ) :
    List (Iv × Block) → ℕ → Option (Iv × Block)
  | [] => last
  | blk::blks => noteBlks (Function.update last start (some blk)) (start+1) blks

lemma noteBlks_outside {last : ℕ → Option (Iv × Block)} {start : ℕ} (blks : List (Iv × Block)) {b : ℕ}
    (hb : b < start ∨ start + blks.length ≤ b) : noteBlks last start blks b = last b := by
  induction blks generalizing last start with
  | nil => rfl
  | cons blk blks ih =>
    rw [List.length_cons] at hb
    rw [noteBlks, ih (by omega), Function.update_of_ne (by omega)]

lemma noteBlks_inside {last : ℕ → Option (Iv × Block)} {start : ℕ} (blks : List (Iv × Block)) {j : ℕ}
    (hj : j < blks.length) : noteBlks last start blks (start + j) = blks[j]? := by
  induction blks generalizing last start j with
  | nil => exact absurd hj (by simp)
  | cons blk blks ih =>
    cases j with
    | zero =>
      change noteBlks (Function.update last start (some blk)) (start+1) blks start = some blk
      rw [noteBlks_outside blks (by omega), Function.update_self]
    | succ j =>
      rw [noteBlks, show start + (j+1) = start + 1 + j by omega, ih (by simpa using hj)]
      rfl

section Write

variable {C : Crypto} {V : Ext4Volume} {s : DevState} {c : ℕ → List UInt8}
  {last : ℕ → Option (Iv × Block)} {intact : ℕ → Prop}

lemma DevInv.unseen_iff (hs : DevInv C V s c last intact) (b : ℕ) :
    s.unseen b = true ↔ last b = none := by
  have hseen := hs.seen_iff b
  simp only [DevState.unseen, hs.started, decide_true, Bool.true_and, decide_eq_true_eq, hseen]
  cases last b <;> simp

lemma DevInv.mono (hs : DevInv C V s c last intact) {intact' : ℕ → Prop}
    (hsub : ∀ b, intact' b → intact b) : DevInv C V s c last intact' where
  size_eq := hs.size_eq
  started := hs.started
  usable := hs.usable
  seen_iff := hs.seen_iff
  tree := hs.tree
  disk := hs.disk.mono hsub

def DevState.sealed (C : Crypto) (V : Ext4Volume) (s : DevState) (b : ℕ) (blk : Iv × Block) :
    DevState :=
  { s.see b with disk := V.cfg.vol.sealBlk C s.disk b blk.1 blk.2 }

lemma DevState.see_disk (s : DevState) (b : ℕ) : (s.see b).disk = s.disk := by
  unfold DevState.see
  split_ifs <;> rfl

lemma DevState.see_status (s : DevState) (b : ℕ) : (s.see b).status = s.status := by
  unfold DevState.see
  split_ifs <;> rfl

lemma DevState.see_mt (s : DevState) (b : ℕ) : (s.see b).mt = s.mt := by
  unfold DevState.see
  split_ifs <;> rfl

lemma DevInv.see (hs : DevInv C V s c last intact) (b a : ℕ) :
    a ∈ (s.see b).seen ↔ a = b ∨ (last a).isSome := by
  unfold DevState.see
  by_cases hunseen : s.unseen b = true
  · rw [if_pos hunseen]
    simp only [List.mem_append, List.mem_singleton, hs.seen_iff a]
    exact or_comm
  · rw [if_neg hunseen, hs.seen_iff a]
    have hsome : (last b).isSome := by
      cases hlast : last b with
      | none => exact absurd ((hs.unseen_iff b).mpr hlast) hunseen
      | some x => rfl
    constructor
    · exact Or.inr
    · rintro (rfl | ha)
      · exact hsome
      · exact ha

lemma DevInv.sealed (hs : DevInv C V s c last intact) {b : ℕ} (hb : b < V.numBlks)
    (blk : Iv × Block) :
    DevInv C V (s.sealed C V b blk) c (Function.update last b (some blk))
      (fun a => a = b ∨ intact a) where
  size_eq := hs.size_eq
  started := by
    rw [DevState.sealed, DevState.see_status]
    exact hs.started
  usable := by
    rw [DevState.sealed, DevState.see_status]
    exact hs.usable
  seen_iff := by
    intro a
    rw [DevState.sealed, hs.see b a]
    by_cases hab : a = b
    · simp [hab]
    · simp [hab]
  tree := by
    rw [DevState.sealed, DevState.see_mt]
    exact hs.tree
  disk := hs.disk.write (V.separate hb) blk.1 blk.2

def finishWrite (C : Crypto) (cfg : DevCfg) (start cnt : ℕ) (macs : ℕ → Option Mac) (s : DevState) :
    Except DevErr Unit × DevState :=
  if cfg.useMt && s.status != .corrupted then
    match updateMerkleTree C cfg s.disk s.mt start cnt macs with
    | (.error e, t, d) => (.error e, { s with mt := t, disk := d })
    | (.ok _, t, d) => (.ok (), { s with mt := t, disk := d })
  else (.ok (), s)

def blkMac (C : Crypto) (start : ℕ) (blks : List (Iv × Block)) (i : ℕ) : Mac :=
  match blks[i]? with
  | some blk => (C.enc (start + i) blk.1 blk.2).2
  | none => Buf.fill 0 macLen

lemma bwriteLoop_cons (hs : DevInv C V s c last intact) {start cnt j : ℕ} (blk : Iv × Block)
    (blks : List (Iv × Block)) (macs : ℕ → Option Mac) (hb : start + j < V.numBlks)
    (hcnt : j + (blks.length + 1) = cnt) :
    bwriteLoop C V.cfg start cnt (blk::blks) j macs s =
      if blks = [] then
        finishWrite C V.cfg start cnt
          (Function.update macs j (some (C.enc (start + j) blk.1 blk.2).2)) (s.sealed C V (start + j) blk)
      else
        bwriteLoop C V.cfg start cnt blks (j+1)
          (Function.update macs j (some (C.enc (start + j) blk.1 blk.2).2))
          (s.sealed C V (start + j) blk) := by
  have hslot := writeBlkMeta_slot (V.metaFits hs.size_eq) (b := start + j) hb.le blk.1
    (C.enc (start + j) blk.1 blk.2).2
  have hput := writeBlockHelper_sealBlk (C := C) (v := V.cfg.vol) (d := s.disk) (b := start + j)
    (by rw [hs.size_eq]; exact V.lt_size hb) blk.1 blk.2
  have hst : (s.sealed C V (start + j) blk).status = s.status := DevState.see_status _ _
  simp only [bwriteLoop, finishWrite, DevState.see_disk, DevState.see_status, hst, hslot, hput]
  by_cases hlast : blks = []
  · subst hlast
    rw [List.length_nil] at hcnt
    rw [if_pos rfl, if_neg (by omega)]
    split_ifs with hmt
    · cases hupd : updateMerkleTree C V.cfg (V.cfg.vol.sealBlk C s.disk (start + j) blk.1 blk.2)
          (s.see (start + j)).mt start cnt
          (Function.update macs j (some (C.enc (start + j) blk.1 blk.2).2)) with
      | mk res td =>
        simp only [DevState.sealed, hupd]
        cases res with
        | ok u => simp only [bwriteLoop]
        | error e => rfl
    · simp only [DevState.sealed, DevState.see_status, bwriteLoop]
  · have hpos := List.length_pos_of_ne_nil hlast
    rw [if_neg hlast, if_pos (by omega)]
    simp only [DevState.sealed, DevState.see_status]

lemma bwriteLoop_eq {start : ℕ} (all pre blks : List (Iv × Block)) (macs : ℕ → Option Mac)
    (hall : all = pre ++ blks) (hne : blks ≠ []) (hs : DevInv C V s c last intact)
    (hin : start + all.length ≤ V.numBlks)
    (hmacs : ∀ i < pre.length, macs i = some (blkMac C start all i)) :
    ∃ s' macs', bwriteLoop C V.cfg start all.length blks pre.length macs s =
        finishWrite C V.cfg start all.length macs' s' ∧ s'.status = s.status ∧ s'.mt = s.mt ∧
      (∀ i < all.length, macs' i = some (blkMac C start all i)) ∧
      DevInv C V s' c (noteBlks last (start + pre.length) blks)
        fun b => (start + pre.length ≤ b ∧ b < start + all.length) ∨ intact b := by
  induction blks generalizing pre macs s last intact with
  | nil => exact absurd rfl hne
  | cons blk blks ih =>
    have hlen : all.length = pre.length + (blks.length + 1) := by
      rw [hall, List.length_append, List.length_cons]
    have hb : start + pre.length < V.numBlks := by omega
    have hget : all[pre.length]? = some blk := by
      rw [hall, List.getElem?_append_right le_rfl, Nat.sub_self]
      rfl
    have hmacs' : ∀ i < pre.length + 1, Function.update macs pre.length
        (some (C.enc (start + pre.length) blk.1 blk.2).2) i = some (blkMac C start all i) := by
      intro i hi
      by_cases hip : i = pre.length
      · subst hip
        rw [Function.update_self, blkMac, hget]
      · rw [Function.update_of_ne hip, hmacs i (by omega)]
    have hsealed := hs.sealed hb blk
    rw [bwriteLoop_cons hs blk blks macs hb hlen.symm]
    by_cases hlast : blks = []
    · subst hlast
      rw [List.length_nil] at hlen
      rw [if_pos rfl]
      refine ⟨_, _, rfl, DevState.see_status _ _, DevState.see_mt _ _, ?_, hsealed.mono ?_⟩
      · intro i hi
        exact hmacs' i (by omega)
      · intro b hb'
        rcases hb' with ⟨h₁, h₂⟩ | hint
        · exact Or.inl (by omega)
        · exact Or.inr hint
    · rw [if_neg hlast]
      obtain ⟨s', macs', hrun, hst, hmt, hfull, hinv⟩ := ih (pre ++ [blk])
        (Function.update macs pre.length (some (C.enc (start + pre.length) blk.1 blk.2).2))
        (by rw [hall, List.append_assoc]; rfl) hlast hsealed
        (by rw [List.length_append]; exact hmacs')
      rw [List.length_append, List.length_singleton] at hrun hinv
      refine ⟨s', macs', hrun, hst.trans (DevState.see_status _ _),
        hmt.trans (DevState.see_mt _ _), hfull, hinv.mono ?_⟩
      intro b hb'
      rcases hb' with ⟨h₁, h₂⟩ | hint
      · by_cases hbp : b = start + pre.length
        · exact Or.inr (Or.inl hbp)
        · exact Or.inl (by omega)
      · exact Or.inr (Or.inr hint)

lemma TreeInv.batch {k : ℕ} (hinv : TreeInv C k c last) {start : ℕ} {blks : List (Iv × Block)}
    {c₁ : ℕ → List UInt8} (hin : start + blks.length ≤ 2^(k+1))
    (hset : LeavesSet k c c₁ start 0 blks.length (blkMac C start blks)) :
    TreeInv C k (recompute (innerHash C (k+1)) c₁ (uniqueNodes (k+1) start blks.length))
      (noteBlks last start blks) := by
  apply hinv.recompute (pairwise_uniqueNodes _ _ _) (fun i hi => uniqueNodes_lt hin hi) hset.inner
  · intro b
    by_cases hb : start ≤ b ∧ b < start + blks.length
    · have hleaf := hset.inside (b - start) (Nat.zero_le _) (by omega)
      rw [show start + (b - start) = b by omega] at hleaf
      rw [hleaf]
      exact (blkMac C start blks _).length_toList
    · rw [hset.outside b (by omega), hinv.leaf_len b]
  · intro b hb iv data hlast
    by_cases hrange : start ≤ b ∧ b < start + blks.length
    · obtain ⟨j, rfl⟩ : ∃ j, b = start + j := ⟨b - start, by omega⟩
      rw [noteBlks_inside blks (by omega)] at hlast
      rw [hset.inside j (Nat.zero_le _) (by omega), blkMac, hlast]
    · rw [noteBlks_outside blks (by omega)] at hlast
      rw [hset.outside b (by omega), hinv.leaf_mac b hb iv data hlast]
  · intro b _ hmem hwritten
    -- A parent that is not rehashed has no child in the request.
    have hfree : ∀ a, a/2 = b/2 → a < start + 0 ∨ start + blks.length ≤ a := by
      intro a hab
      by_contra hrange
      apply hmem
      obtain ⟨j, rfl⟩ : ∃ j, a = start + j := ⟨a - start, by omega⟩
      rw [show up (leaf (k+1) b) = up (leaf (k+1) (start + j)) by rw [up_leaf, up_leaf, hab]]
      exact up_leaf_mem_uniqueNodes start (by omega)
    rw [noteBlks_outside blks (by simpa using hfree b rfl)] at hwritten
    exact ⟨hwritten, hset.outside _ (hfree _ (by omega)), hset.outside _ (hfree _ (by omega))⟩

lemma DevInv.bwrite (hs : DevInv C V s c last intact) (start : ℕ) (blks : List (Iv × Block))
    (hin : start + blks.length ≤ V.numBlks) :
    ∃ s' c', fileDevBwrite C V.cfg s start blks = (.ok (), s') ∧ s'.status = s.status ∧
      DevInv C V s' c' (noteBlks last start blks)
        (fun b => V.RootSafe b ∧ ((start ≤ b ∧ b < start + blks.length) ∨ intact b)) ∧
      (V.cfg.useMt = true → TreeInv C V.levels c last →
        TreeInv C V.levels c' (noteBlks last start blks)) := by
  by_cases hne : blks = []
  · subst hne
    refine ⟨s, c, rfl, rfl, hs.mono ?_, fun _ h => h⟩
    intro b hb
    exact hb.2.resolve_left (by simp)
  obtain ⟨s₁, macs, hrun, hst, hmt, hmacs, hinv⟩ := bwriteLoop_eq blks [] blks (fun _ => none) rfl hne
    hs hin (by simp)
  simp only [List.length_nil, Nat.add_zero] at hrun hinv
  rw [fileDevBwrite, hrun, finishWrite]
  cases huse : V.cfg.useMt with
  | false =>
    refine ⟨s₁, c, rfl, hst, hinv.mono ?_, by simp⟩
    intro b hb
    exact hb.2
  | true =>
    have hpow := V.pow huse
    have hready := hinv.tree huse
    have hin' : start + blks.length ≤ 2^(V.levels+1) := hpow ▸ hin
    obtain ⟨t', c₁, root, hupd, hleaves, ht'⟩ := updateMerkleTree_eq C hready
      (List.length_pos_of_ne_nil hne) hin' hmacs (V.metaFits hinv.size_eq)
    have hbad : (s₁.status != .corrupted) = true := by simpa using hinv.usable
    refine ⟨{ s₁ with mt := t', disk := V.cfg.vol.putRoot s₁.disk root },
      recompute (innerHash C (V.levels+1)) c₁ (uniqueNodes (V.levels+1) start blks.length), ?_, hst,
      ?_, ?_⟩
    · simp only [hbad, hupd, Bool.and_self, if_true]
    · refine ⟨hinv.size_eq, hinv.started, hinv.usable, hinv.seen_iff, fun _ => ht', ?_⟩
      refine (hinv.disk.putRoot root).mono ?_
      intro b hb
      have hloc := hb.1.resolve_left (by simp [huse])
      exact ⟨hloc, hb.2⟩
    · intro _ htree
      exact TreeInv.batch htree hin' hleaves

end Write

end Bfs.Ext4
