import Bfs.Fs.NativeVolume
import Bfs.Fs.TreeSetup

/-! Formatting and mounting a native volume succeed, and the mounted state satisfies the invariants
of device and tree. Saving the root at the end of formatting spoils the metadata entries that share
a block with it. -/
namespace Bfs.Fs
open ByteSeq HeapTree

namespace NativeVolume

variable (V : NativeVolume) {C : Crypto} {s : BlkState} {c : ℕ → List UInt8}

lemma writeBlk_update (hsize : s.disk.size = V.numBlks) (hst : s.status ≠ .corrupted) {b : ℕ}
    (hb : b < V.numBlks) (hmeta : V.cfg.isMeta b = false) (iv : Iv) (data : Block) :
    writeBlk C V.cfg s b iv data =
      match updateLeaf C V.cfg (V.cfg.vol.sealBlk C s.disk b iv data) s.mt b (C.enc b iv data).2 with
      | .ok t => (.ok (), ⟨V.cfg.vol.sealBlk C s.disk b iv data, s.status, t⟩)
      | .error e => (.error e, ⟨V.cfg.vol.sealBlk C s.disk b iv data, s.status, s.mt⟩) := by
  have hslot := writeBlkMeta_slot (V.metaFits hsize) (b := b) hb.le iv (C.enc b iv data).2
  have hput := writeBlockHelper_sealBlk (C := C) (v := V.cfg.vol) (hsize ▸ hb) iv data
  have hmt : V.cfg.useMt = true := rfl
  have hne : (s.status != .corrupted) = true := by simpa using hst
  cases hupd : updateLeaf C V.cfg (V.cfg.vol.sealBlk C s.disk b iv data) s.mt b
      (C.enc b iv data).2 with
  | ok t =>
    simp only [writeBlk, hmeta, hslot, hput, hmt, hne, hupd, Bool.false_eq_true, if_false,
      Bool.and_self, if_true]
  | error e =>
    simp only [writeBlk, hmeta, hslot, hput, hmt, hne, hupd, Bool.false_eq_true, if_false,
      Bool.and_self, if_true]

lemma writeBlk_eq (hsize : s.disk.size = V.numBlks) (hst : s.status ≠ .corrupted)
    (ht : s.mt.Holds (V.levels+1) c) {b : ℕ} (hb : b < V.numBlks)
    (hmeta : V.cfg.isMeta b = false) (iv : Iv) (data : Block) :
    ∃ t, writeBlk C V.cfg s b iv data = (.ok (), ⟨V.cfg.vol.sealBlk C s.disk b iv data, s.status, t⟩) ∧
      t.Holds (V.levels+1) (leafUpdate C (V.levels+1) c b (C.enc b iv data).2) ∧
      ∀ j, t.nodes j = .currPar → s.mt.nodes j = .currPar := by
  obtain ⟨t, hupd, hholds, halias⟩ := updateLeaf_eq C V.cfg (V.cfg.vol.sealBlk C s.disk b iv data) ht
    (Nat.succ_pos _) b hb (C.enc b iv data).2
  refine ⟨t, ?_, hholds, halias⟩
  rw [V.writeBlk_update hsize hst hb hmeta, hupd]

end NativeVolume

section Mounted

structure Tracks (C : Crypto) (V : NativeVolume) (s : BlkState) (c : ℕ → List UInt8)
    (last : ℕ → Option (Iv × Block)) (intact : ℕ → Prop) : Prop where
  size_eq : s.disk.size = V.numBlks
  holds : s.mt.Holds (V.levels+1) c
  unaliased : s.mt.Unaliased
  tree : TreeInv C V.levels c last
  disk : DiskInv C V.cfg.vol s.disk last intact

variable {C : Crypto} {V : NativeVolume} {s : BlkState} {c : ℕ → List UInt8}
  {last : ℕ → Option (Iv × Block)} {intact : ℕ → Prop}

lemma Tracks.mono (hs : Tracks C V s c last intact) {intact' : ℕ → Prop}
    (hsub : ∀ b, intact' b → intact b) : Tracks C V s c last intact' where
  size_eq := hs.size_eq
  holds := hs.holds
  unaliased := hs.unaliased
  tree := hs.tree
  disk := hs.disk.mono hsub

lemma Tracks.write (hs : Tracks C V s c last intact) (hst : s.status ≠ .corrupted) {b : ℕ}
    (hb : b < V.numBlks) (hmeta : V.cfg.isMeta b = false) (iv : Iv) (data : Block) :
    ∃ s' c', writeBlk C V.cfg s b iv data = (.ok (), s') ∧ s'.status = s.status ∧
      Tracks C V s' c' (Function.update last b (some (iv, data))) fun a => a = b ∨ intact a := by
  obtain ⟨t, hwrite, hholds, halias⟩ := V.writeBlk_eq hs.size_eq hst hs.holds hb hmeta iv data
  refine ⟨_, _, hwrite, rfl, hs.size_eq, hholds, ?_, hs.tree.write hb iv data,
    hs.disk.write (V.separate hb hmeta) iv data⟩
  intro i hi
  exact hs.unaliased i (halias i hi)

def noteWrites (last : ℕ → Option (Iv × Block)) (ws : List (ℕ × Iv × Block)) :
    ℕ → Option (Iv × Block) :=
  ws.foldl (fun last w => Function.update last w.1 (some w.2)) last

lemma Tracks.writeBlks (ws : List (ℕ × Iv × Block))
    (hws : ∀ w ∈ ws, w.1 < V.numBlks ∧ V.cfg.isMeta w.1 = false)
    (hs : Tracks C V s c last intact) (hst : s.status ≠ .corrupted) :
    ∃ s' c', Fs.writeBlks C V.cfg ws s = .ok s' ∧ s'.status = s.status ∧
      Tracks C V s' c' (noteWrites last ws) fun b => b ∈ ws.map Prod.fst ∨ intact b := by
  induction ws generalizing s c last intact with
  | nil => exact ⟨s, c, rfl, rfl, hs.mono fun b hb => hb.resolve_left (by simp)⟩
  | cons w ws ih =>
    obtain ⟨hb, hmeta⟩ := hws w List.mem_cons_self
    obtain ⟨s₁, c₁, hwrite, hst₁, hs₁⟩ := hs.write hst hb hmeta w.2.1 w.2.2
    obtain ⟨s', c', hrun, hst', hs'⟩ := ih (fun a ha => hws a (List.mem_cons_of_mem _ ha)) hs₁
      (by rw [hst₁]; exact hst)
    refine ⟨s', c', ?_, hst'.trans hst₁, hs'.mono ?_⟩
    · rw [Fs.writeBlks, hwrite]
      exact hrun
    · intro b hb
      rw [List.map_cons, List.mem_cons] at hb
      tauto

lemma noteWrites_map (image : ℕ → Block) (ivs : ℕ → Iv) (bs : List ℕ) (b : ℕ) :
    noteWrites last (bs.map fun b => (b, ivs b, image b)) b =
      if b ∈ bs then some (ivs b, image b) else last b := by
  induction bs generalizing last with
  | nil => simp [noteWrites]
  | cons a bs ih =>
    refine ih.trans ?_
    by_cases hba : b = a
    · subst hba
      by_cases hmem : b ∈ bs <;> simp [hmem]
    · simp [hba]

lemma mem_mkfsBlks {b : ℕ} : b ∈ mkfsBlks V.cfg ↔ b < V.numBlks ∧ V.cfg.isMeta b = false := by
  simp only [mkfsBlks, List.mem_filter, List.mem_range, Bool.not_eq_true']
  rfl

variable (C V) (image : ℕ → Block) (ivs : ℕ → Iv)

def mkfsLast (b : ℕ) : Option (Iv × Block) :=
  if b < V.numBlks ∧ V.cfg.isMeta b = false then some (ivs b, image b) else none

lemma mkfs_accepted : ∀ w ∈ (mkfsBlks V.cfg).map fun b => (b, ivs b, image b),
    w.1 < V.numBlks ∧ V.cfg.isMeta w.1 = false := by
  intro w hw
  obtain ⟨b, hb, rfl⟩ := List.mem_map.mp hw
  exact mem_mkfsBlks.mp hb

lemma tracks_initial {t : MerkleTree} (st : Status)
    (ht : t.Holds (V.levels+1) fun i => List.replicate (hashSz (V.levels+1) i) 0)
    (hu : t.Unaliased) :
    Tracks C V ⟨V.disk, st, t⟩ (fun i => List.replicate (hashSz (V.levels+1) i) 0) (fun _ => none)
      fun _ => False where
  size_eq := V.whole
  holds := ht
  unaliased := hu
  tree := treeInv_initial C V.levels
  disk := ⟨by simp, by simp, by simp⟩

lemma formatBlks_eq :
    ∃ d t c root, formatBlks C V.cfg V.disk image ivs =
        .ok ⟨V.cfg.vol.putRoot d root, .formatted, t⟩ ∧ root.toList = c 0 ∧
      ∀ st, Tracks C V ⟨V.cfg.vol.putRoot d root, st, t⟩ c (mkfsLast V image ivs)
        fun b => blkMetaBlkLoc b ≠ blkMetaBlkLoc V.numBlks := by
  obtain ⟨t₀, hinit, hholds, hu⟩ := initMerkleTree_initial C V.cfg.vol V.disk (V.levels+1)
  obtain ⟨s, c, hrun, -, hs⟩ := (tracks_initial C V .formatting hholds hu).writeBlks
    ((mkfsBlks V.cfg).map fun b => (b, ivs b, image b)) (mkfs_accepted V image ivs) (by simp)
  have hfit := V.metaFits hs.size_eq
  have hflush := flushMerkleTree_eq C V.cfg.vol s.disk hs.holds hfit hs.tree.root_len
  have hlast : noteWrites (fun _ => none) ((mkfsBlks V.cfg).map fun b => (b, ivs b, image b)) =
      mkfsLast V image ivs := by
    funext b
    rw [noteWrites_map, mkfsLast]
    exact if_congr mem_mkfsBlks rfl rfl
  rw [hlast] at hs
  refine ⟨s.disk, s.mt, c, ⟨c 0, hs.tree.root_len⟩, ?_, rfl, ?_⟩
  · have hmt : V.cfg.useMt = true := rfl
    have hinit' : initMerkleTree C V.cfg.vol V.disk true (freshTree V.cfg.numBlks) = .ok t₀ := hinit
    simp [formatBlks, hmt, hinit', mkfsWrites, hrun, hflush]
  · intro st
    have hwritten : ∀ {b iv data}, mkfsLast V image ivs b = some (iv, data) →
        b ∈ ((mkfsBlks V.cfg).map fun b => (b, ivs b, image b)).map Prod.fst ∨ False := by
      intro b iv data hb
      unfold mkfsLast at hb
      split_ifs at hb with hmem
      simpa using mem_mkfsBlks.mpr hmem
    have hdisk := hs.disk.putRoot ⟨c 0, hs.tree.root_len⟩
    refine ⟨hs.size_eq, hs.holds, hs.unaliased, hs.tree, hdisk.separate, ?_, ?_⟩
    · intro b iv data hint hlast
      exact hdisk.blk_eq b iv data ⟨hint, hwritten hlast⟩ hlast
    · intro b iv data hint hlast
      exact hdisk.slot_eq b iv data ⟨hint, hwritten hlast⟩ hlast

def formatAndMount : Except BlkErr BlkState :=
  match formatBlks C V.cfg V.disk image ivs with
  | .ok s => mountBlks C V.cfg s
  | .error e => .error e

lemma formatAndMount_eq :
    ∃ s c d root, formatAndMount C V image ivs = .ok s ∧ s.status = .mounted ∧
      s.disk = V.cfg.vol.putRoot d root ∧
      Tracks C V s c (mkfsLast V image ivs) fun b => blkMetaBlkLoc b ≠ blkMetaBlkLoc V.numBlks := by
  obtain ⟨d, t, c, root, hformat, hroot, hs⟩ := formatBlks_eq C V image ivs
  have htracks := hs .mounted
  have hsaved : (V.cfg.vol.rootOf (V.cfg.vol.putRoot d root)).toList = c 0 := by
    rw [Volume.rootOf_putRoot, hroot]
  have hinit := initMerkleTree_full C V.cfg.vol _ htracks.holds (V.metaFits htracks.size_eq) hsaved
  refine ⟨⟨V.cfg.vol.putRoot d root, .mounted, t.setCurrPar (List.replicate hmacLen 0)⟩, c, d, root,
    ?_, rfl, rfl, ?_⟩
  · have hmt : V.cfg.useMt = true := rfl
    simp [formatAndMount, hformat, mountBlks, hmt, hinit, MerkleTree.setCurrPar]
  · exact ⟨htracks.size_eq, htracks.holds.scratch htracks.unaliased _, htracks.unaliased,
      htracks.tree, htracks.disk⟩

end Mounted

end Bfs.Fs
