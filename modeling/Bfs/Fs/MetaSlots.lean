import Bfs.Fs.BlkMeta

/-! Sequences of metadata writes, each followed by saving the Merkle root. The root is saved over
a whole metadata block, so the entries that share this block with the root do not survive. -/
namespace Bfs.Fs
open ByteSeq

structure MetaVolume extends Volume where
  disk : Disk
  fits : toVolume.MetaFits disk

structure MetaWrite (v : Volume) where
  blk : ℕ
  blk_lt : blk < v.numBlks
  iv : Iv
  mac : Mac
  rootHash : Hash

def storeMeta (v : Volume) (d : Disk) (w : MetaWrite v) : Except LayerErr Disk := do
  let d ← writeBlkMeta v d w.blk (.slot (.buffer w.iv) (.buffer w.mac))
  saveRootHash v d (.buffer w.rootHash)

def storeMetas (v : Volume) (d : Disk) (ws : List (MetaWrite v)) : Except LayerErr Disk :=
  ws.foldlM (storeMeta v) d

def lastWrite {v : Volume} (ws : List (MetaWrite v)) (b : ℕ) : Option (MetaWrite v) :=
  ws.reverse.find? fun w => w.blk = b

def SlotsKept (v : MetaVolume) (ws : List (MetaWrite v.toVolume)) : Prop :=
  ∃ d, storeMetas v.toVolume v.disk ws = .ok d ∧
    (∀ w, lastWrite ws w.blk = some w → ∀ iv mac,
      readBlkMeta v.toVolume d w.blk (.slot (.buffer iv) (.buffer mac)) =
        .ok (.slot (.buffer w.iv) (.buffer w.mac))) ∧
    ∀ w, ws.getLast? = some w → ∀ hash,
      readBlkMeta v.toVolume d v.mtRootBlkNum (.root (.buffer hash)) =
        .ok (.root (.buffer w.rootHash))

def Volume.putMeta (v : Volume) (d : Disk) (w : MetaWrite v) : Disk :=
  v.putRoot (v.putSlot d w.blk w.iv w.mac) w.rootHash

lemma storeMeta_eq {v : Volume} {d : Disk} (hfit : v.MetaFits d) (w : MetaWrite v) :
    storeMeta v d w = .ok (v.putMeta d w) := by
  unfold storeMeta
  rw [writeBlkMeta_slot hfit w.blk_lt.le]
  exact saveRootHash_eq (d := v.putSlot d w.blk w.iv w.mac) hfit w.rootHash

lemma storeMetas_eq {v : Volume} {d : Disk} (hfit : v.MetaFits d) (ws : List (MetaWrite v)) :
    storeMetas v d ws = .ok (ws.foldl v.putMeta d) := by
  induction ws generalizing d with
  | nil => rfl
  | cons w ws ih =>
    rw [storeMetas, List.foldlM_cons, storeMeta_eq hfit]
    exact ih hfit

lemma metaFits_foldl {v : Volume} {d : Disk} (hfit : v.MetaFits d) (ws : List (MetaWrite v)) :
    v.MetaFits (ws.foldl v.putMeta d) := by
  induction ws generalizing d with
  | nil => exact hfit
  | cons w ws ih => exact ih hfit

lemma lastWrite_append {v : Volume} (ws : List (MetaWrite v)) (w : MetaWrite v) (b : ℕ) :
    lastWrite (ws ++ [w]) b = if w.blk = b then some w else lastWrite ws b := by
  by_cases h : w.blk = b <;> simp [lastWrite, h]

lemma slotOf_foldl {v : Volume} (d : Disk) (ws : List (MetaWrite v)) (b : ℕ) (w : MetaWrite v)
    (hloc : blkMetaBlkLoc b ≠ blkMetaBlkLoc v.numBlks) (hlast : lastWrite ws b = some w) :
    v.slotOf (ws.foldl v.putMeta d) b = (w.iv, w.mac) := by
  induction ws using List.reverseRecOn with
  | nil => exact absurd hlast (by simp [lastWrite])
  | append_singleton ws u ih =>
    rw [lastWrite_append] at hlast
    rw [List.foldl_append, List.foldl_cons, List.foldl_nil, Volume.putMeta,
      Volume.slotOf_putRoot_other hloc]
    split_ifs at hlast with hu
    · obtain rfl := Option.some.inj hlast
      subst hu
      exact Volume.slotOf_putSlot_same u.iv u.mac
    · rw [Volume.slotOf_putSlot_other (Ne.symm hu)]
      exact ih hlast

lemma rootOf_foldl {v : Volume} (d : Disk) (ws : List (MetaWrite v)) (w : MetaWrite v)
    (hlast : ws.getLast? = some w) : v.rootOf (ws.foldl v.putMeta d) = w.rootHash := by
  induction ws using List.reverseRecOn with
  | nil => exact absurd hlast (by simp)
  | append_singleton ws u ih =>
    rw [List.getLast?_concat] at hlast
    obtain rfl := Option.some.inj hlast
    rw [List.foldl_append, List.foldl_cons, List.foldl_nil, Volume.putMeta, Volume.rootOf_putRoot]

lemma slotOf_foldl_shared {v : Volume} (d : Disk) (ws : List (MetaWrite v)) (b : ℕ)
    (hws : ws ≠ []) (hzero : ∀ w ∈ ws, w.rootHash = Buf.fill 0 hmacLen)
    (hloc : blkMetaBlkLoc b = blkMetaBlkLoc v.numBlks) :
    v.slotOf (ws.foldl v.putMeta d) b = (Buf.fill 0 ivLen, Buf.fill 0 macLen) := by
  induction ws using List.reverseRecOn with
  | nil => exact absurd rfl hws
  | append_singleton ws u _ =>
    rw [List.foldl_append, List.foldl_cons, List.foldl_nil, Volume.putMeta,
      Volume.slotOf_putRoot_shared hloc, hzero u (by simp)]
    simp only [Buf.copy_fill, Buf.sub_fill]

def MetaWrite.mark {v : Volume} (w : MetaWrite v) : MetaWrite v where
  blk := w.blk
  blk_lt := w.blk_lt
  iv := Buf.fill 1 ivLen
  mac := Buf.fill 1 macLen
  rootHash := Buf.fill 0 hmacLen

lemma exists_lastWrite {v : Volume} (ws : List (MetaWrite v)) (w : MetaWrite v) (hw : w ∈ ws) :
    ∃ u ∈ ws, u.blk = w.blk ∧ lastWrite ws w.blk = some u := by
  cases h : lastWrite ws w.blk with
  | none =>
    have hnone := List.find?_eq_none.mp h w (List.mem_reverse.mpr hw)
    simp at hnone
  | some u =>
    have hmem := List.mem_reverse.mp (List.mem_of_find?_eq_some h)
    have hblk := List.find?_some h
    exact ⟨u, hmem, by simpa using hblk, rfl⟩

/-- For given blocks, all entries are kept, whatever is stored, exactly when no written block has
its entry in the metadata block of the root. -/
theorem slots_kept_iff (v : MetaVolume) (ws : List (MetaWrite v.toVolume)) :
    (∀ us : List (MetaWrite v.toVolume),
      us.map MetaWrite.blk = ws.map MetaWrite.blk → SlotsKept v us) ↔
      ∀ w ∈ ws, blkMetaBlkLoc w.blk < blkMetaBlkLoc v.numBlks := by
  constructor
  · intro h w hw
    by_contra hlt
    have hloc : blkMetaBlkLoc w.blk = blkMetaBlkLoc v.numBlks :=
      le_antisymm (Nat.div_le_div_right w.blk_lt.le) (not_lt.mp hlt)
    obtain ⟨d, hd, hread, -⟩ := h (ws.map MetaWrite.mark) (by simp [MetaWrite.mark])
    rw [storeMetas_eq v.fits] at hd
    obtain rfl := Except.ok.inj hd
    obtain ⟨u, hu, hblk, hlast⟩ :=
      exists_lastWrite (ws.map MetaWrite.mark) w.mark (List.mem_map_of_mem hw)
    rw [← hblk] at hlast
    have hslot := hread u hlast (Buf.fill 0 ivLen) (Buf.fill 0 macLen)
    rw [readBlkMeta_slot (metaFits_foldl v.fits _) u.blk_lt.le, slotOf_foldl_shared] at hslot
    · obtain ⟨u', -, rfl⟩ := List.mem_map.mp hu
      simp only [MetaWrite.mark, Except.ok.injEq, MetaBufs.slot.injEq, PtrArg.buffer.injEq] at hslot
      exact absurd (Buf.fill_injective (by decide) hslot.1) (by decide)
    · exact List.ne_nil_of_mem hu
    · intro x hx
      obtain ⟨x', -, rfl⟩ := List.mem_map.mp hx
      rfl
    · rw [hblk]
      exact hloc
  · intro h us hus
    refine ⟨us.foldl v.putMeta v.disk, storeMetas_eq v.fits us, ?_, ?_⟩
    · intro w hlast iv mac
      have hmem := List.mem_reverse.mp (List.mem_of_find?_eq_some hlast)
      have hblk : w.blk ∈ ws.map MetaWrite.blk := hus ▸ List.mem_map_of_mem hmem
      obtain ⟨x, hx, hxw⟩ := List.mem_map.mp hblk
      have hlt := h x hx
      rw [hxw] at hlt
      rw [readBlkMeta_slot (metaFits_foldl v.fits us) w.blk_lt.le,
        slotOf_foldl v.disk us w.blk w hlt.ne hlast]
    · intro w hlast hash
      rw [readBlkMeta_root (metaFits_foldl v.fits us), rootOf_foldl v.disk us w hlast]

def lwext4Volume : MetaVolume where
  useLwext4 := true
  numBlks := 262144
  disk := ⟨262144 + 1 + lwext4MetaSpc 262144, fun _ => Buf.fill 0 blkSz⟩
  fits := by
    change 262144 + 1 + 262144 / metasPerBlk < 262144 + 1 + lwext4MetaSpc 262144
    decide

def lastBlockWrite : MetaWrite lwext4Volume.toVolume :=
  ⟨262143, by decide, Buf.fill 1 ivLen, Buf.fill 1 macLen, Buf.fill 0 hmacLen⟩

/-- The entry of the last block reads as zeros right after the ones were stored. -/
theorem last_block_entry_lost :
    (∃ d, storeMetas lwext4Volume.toVolume lwext4Volume.disk [lastBlockWrite] = .ok d ∧
      readBlkMeta lwext4Volume.toVolume d lastBlockWrite.blk
          (.slot (.buffer (Buf.fill 0 ivLen)) (.buffer (Buf.fill 0 macLen))) =
        .ok (.slot (.buffer (Buf.fill 0 ivLen)) (.buffer (Buf.fill 0 macLen)))) ∧
      ¬SlotsKept lwext4Volume [lastBlockWrite] := by
  have hread : readBlkMeta lwext4Volume.toVolume
      ([lastBlockWrite].foldl lwext4Volume.putMeta lwext4Volume.disk) lastBlockWrite.blk
        (.slot (.buffer (Buf.fill 0 ivLen)) (.buffer (Buf.fill 0 macLen))) =
      .ok (.slot (.buffer (Buf.fill 0 ivLen)) (.buffer (Buf.fill 0 macLen))) := by
    rw [readBlkMeta_slot (metaFits_foldl lwext4Volume.fits _) (by decide),
      slotOf_foldl_shared _ _ _ (by simp) (by simp [lastBlockWrite]) (by decide)]
  refine ⟨⟨_, storeMetas_eq lwext4Volume.fits _, hread⟩, ?_⟩
  rintro ⟨d, hd, hkept, -⟩
  rw [storeMetas_eq lwext4Volume.fits] at hd
  obtain rfl := Except.ok.inj hd
  have hslot := hkept lastBlockWrite (by simp [lastWrite]) (Buf.fill 0 ivLen) (Buf.fill 0 macLen)
  rw [hread] at hslot
  simp only [lastBlockWrite, Except.ok.injEq, MetaBufs.slot.injEq, PtrArg.buffer.injEq] at hslot
  exact absurd (Buf.fill_injective (by decide) hslot.1) (by decide)

end Bfs.Fs
