import Bfs.Native.Effects

/-! The stored structures are read back as they were written, and an inode is written into its own
slot of the table only. -/
namespace Bfs.Native
open ByteSeq LittleEndian Bfs.Fs

section SuperBlock

/-- The stored fields of class `SuperBlock`. -/
@[ext] structure StoredSuperBlock where
  magic : UInt64
  blkSz : UInt64
  inoSz : UInt64
  noBlocks : UInt64
  noDblocks : UInt64
  noInodes : UInt64
  noDblocksFree : UInt64
  noInodesFree : UInt64
  firstDataBlkLoc : UInt64
  nextVbid : UInt64
  rootIno : UInt64
  ibmIno : UInt64
  itabIno : UInt64
  journalIno : UInt64
  firstUnresvIno : UInt64
  state : UInt64
  deriving DecidableEq

/-- The fields in the order in which `SuperBlock::serialize` copies them. -/
def StoredSuperBlock.fields (sb : StoredSuperBlock) : List UInt64 :=
  [sb.magic, sb.blkSz, sb.inoSz, sb.noBlocks, sb.noDblocks, sb.noInodes, sb.noDblocksFree,
    sb.noInodesFree, sb.firstDataBlkLoc, sb.nextVbid, sb.rootIno, sb.ibmIno, sb.itabIno,
    sb.journalIno, sb.firstUnresvIno, sb.state]

def StoredSuperBlock.serialize (sb : StoredSuperBlock) (b : Block) (offStart : ℕ) : Block :=
  b.write offStart (words sb.fields)

def StoredSuperBlock.deserialize (b : Block) (offStart : ℕ) : StoredSuperBlock where
  magic := ofU64 (slice b.toList offStart 8)
  blkSz := ofU64 (slice b.toList (offStart+8) 8)
  inoSz := ofU64 (slice b.toList (offStart+16) 8)
  noBlocks := ofU64 (slice b.toList (offStart+24) 8)
  noDblocks := ofU64 (slice b.toList (offStart+32) 8)
  noInodes := ofU64 (slice b.toList (offStart+40) 8)
  noDblocksFree := ofU64 (slice b.toList (offStart+48) 8)
  noInodesFree := ofU64 (slice b.toList (offStart+56) 8)
  firstDataBlkLoc := ofU64 (slice b.toList (offStart+64) 8)
  nextVbid := ofU64 (slice b.toList (offStart+72) 8)
  rootIno := ofU64 (slice b.toList (offStart+80) 8)
  ibmIno := ofU64 (slice b.toList (offStart+88) 8)
  itabIno := ofU64 (slice b.toList (offStart+96) 8)
  journalIno := ofU64 (slice b.toList (offStart+104) 8)
  firstUnresvIno := ofU64 (slice b.toList (offStart+112) 8)
  state := ofU64 (slice b.toList (offStart+120) 8)

def superBlockLen : ℕ := 128

lemma StoredSuperBlock.length_words_fields (sb : StoredSuperBlock) :
    (words sb.fields).length = superBlockLen := by
  rw [length_words]
  rfl

lemma StoredSuperBlock.deserialize_serialize (sb : StoredSuperBlock) (b : Block) {off : ℕ}
    (h : off + superBlockLen ≤ Fs.blkSz) : StoredSuperBlock.deserialize (sb.serialize b off) off = sb := by
  have hfield : ∀ {k : ℕ} {x : UInt64}, sb.fields[k]? = some x →
      ofU64 (slice (sb.serialize b off).toList (off + 8*k) 8) = x := by
    intro k x hx
    have hlt : k < 16 := (List.getElem?_eq_some_iff.mp hx).1
    have hfit : off + (words sb.fields).length ≤ Fs.blkSz := by rw [sb.length_words_fields]; exact h
    rw [StoredSuperBlock.serialize, b.slice_write_inside hfit (by
      rw [sb.length_words_fields, superBlockLen]; omega), slice_words hx, ofU64_u64]
  apply StoredSuperBlock.ext
  · exact hfield (k := 0) rfl
  · exact hfield (k := 1) rfl
  · exact hfield (k := 2) rfl
  · exact hfield (k := 3) rfl
  · exact hfield (k := 4) rfl
  · exact hfield (k := 5) rfl
  · exact hfield (k := 6) rfl
  · exact hfield (k := 7) rfl
  · exact hfield (k := 8) rfl
  · exact hfield (k := 9) rfl
  · exact hfield (k := 10) rfl
  · exact hfield (k := 11) rfl
  · exact hfield (k := 12) rfl
  · exact hfield (k := 13) rfl
  · exact hfield (k := 14) rfl
  · exact hfield (k := 15) rfl

end SuperBlock

section Slots

structure SameOutsideSlot (s s' : FsState) (ino : UInt64) : Prop where
  others : s'.numBlks = s.numBlks ∧ s'.sb = s.sb ∧ s'.openFileTab = s.openFileTab ∧
    s'.nextFd = s.nextFd
  blocks : ∀ b ≠ itabBlkLoc ino, s'.disk b = s.disk b
  slot : ∃ c c', s.disk (itabBlkLoc ino) = some c ∧ s'.disk (itabBlkLoc ino) = some c' ∧
    ∀ k, (k < itabBlkOff ino ∨ itabBlkOff ino + inodeSz ≤ k) → c'.toList[k]? = c.toList[k]?

variable {s s' : FsState} {ino : UInt64} {r : Inode} {u : Unit}

lemma writeInodeAt_cases (h : writeInodeAt ino r s = (.ok u, s')) :
    ∃ c, readBlk s (itabBlkLoc ino) = .ok c ∧
      s' = s.setBlk (itabBlkLoc ino) (r.serialize c (itabBlkOff ino)) := by
  obtain ⟨c, hc, hwrite⟩ := Prog.reads_bind_eq_ok.mp h
  exact ⟨c, hc, (writeBlk_eq_ok.mp hwrite).2⟩

lemma writeInodeAt_error {e : FsErr} (h : writeInodeAt ino r s = (.error e, s')) : s' = s := by
  rcases Prog.reads_bind_eq_error.mp h with ⟨-, hs⟩ | ⟨c, -, hwrite⟩
  · exact hs
  · rw [writeBlk] at hwrite
    split_ifs at hwrite
    · exact (Prod.mk.inj hwrite).2.symm
    · exact (Prod.mk.inj hwrite).2.symm
    · cases hwrite

lemma getElem?_serialize_outside (r : Inode) (c : Block) (ino : UInt64) {k : ℕ}
    (hk : k < itabBlkOff ino ∨ itabBlkOff ino + inodeSz ≤ k) :
    (r.serialize c (itabBlkOff ino)).toList[k]? = c.toList[k]? := by
  have hlen : inodeLen ≤ inodeSz := by decide
  have hfit := itabBlkOff_fits ino
  rw [Inode.serialize, c.toList_write (by rw [r.length_bytes]; exact hfit),
    getElem?_splice _ _ _ (by rw [c.length_toList]; omega), if_neg (by rw [r.length_bytes]; omega)]

lemma sameOutsideSlot_writeInodeAt (h : writeInodeAt ino r s = (.ok u, s')) :
    SameOutsideSlot s s' ino := by
  obtain ⟨c, hc, rfl⟩ := writeInodeAt_cases h
  refine ⟨⟨rfl, rfl, rfl, rfl⟩, ?_, c, r.serialize c (itabBlkOff ino), (readBlk_eq_ok.mp hc).2, ?_, ?_⟩
  · intro b hb
    exact Function.update_of_ne hb ..
  · exact Function.update_self ..
  · intro k hk
    exact getElem?_serialize_outside r c ino hk

lemma readInode_writeInodeAt_of_ne (h : writeInodeAt ino r s = (.ok u, s')) {j : UInt64}
    (hj : j ≠ ino) : readInode s' j = readInode s j := by
  obtain ⟨c, hc, rfl⟩ := writeInodeAt_cases h
  rw [readInode, readInode, readBlk_setBlk (readBlk_eq_ok.mp hc).1]
  by_cases hblk : itabBlkLoc j = itabBlkLoc ino
  · have hoff : itabBlkOff j ≠ itabBlkOff ino := fun hoff => hj (eq_of_itab_eq hblk hoff)
    rw [if_pos hblk, hblk, hc, Fallible.ok_bind, Fallible.ok_bind, r.deserialize_serialize_at,
      if_neg hoff]
  · rw [if_neg hblk]

end Slots

section Structures

/-- Every structure is read back as it was written, in its place; an inode is written into its own
slot only, and a write that fails changes nothing. -/
theorem structures_round_trip :
    (∀ (sb : StoredSuperBlock) (b : Block) (off : ℕ), off + superBlockLen ≤ Fs.blkSz →
      StoredSuperBlock.deserialize (sb.serialize b off) off = sb) ∧
    (∀ (r : Inode) (b : Block) (off : ℕ), off + inodeLen ≤ Fs.blkSz →
      Inode.deserialize (r.serialize b off) off = r) ∧
    (∀ (d : Dirent) (b : Block) (off : ℕ), Name.Fits d.deName → 0 ∉ d.deName →
      off + direntSz ≤ Fs.blkSz → Dirent.deserialize (d.serialize b off) off = d) ∧
    (∀ (ib : IndirectBlock) (b : Block),
      IndirectBlock.deserialize (IndirectBlock.serialize ib b) = ib) ∧
    (∀ (s s' : FsState) (ino : UInt64) (r : Inode), writeInodeAt ino r s = (.ok (), s') →
      SameOutsideSlot s s' ino ∧ ∀ j ≠ ino, readInode s' j = readInode s j) ∧
    ∀ (s s' : FsState) (ino : UInt64) (r : Inode) (e : FsErr),
      writeInodeAt ino r s = (.error e, s') → s' = s := by
  refine ⟨?_, ?_, ?_, ?_, ?_, ?_⟩
  · intro sb b off h
    exact sb.deserialize_serialize b h
  · intro r b off h
    exact r.deserialize_serialize b h
  · intro d b off hfits hzero h
    rw [Dirent.deserialize_serialize hfits b h, cStr_of_not_mem hzero]
  · intro ib b
    exact IndirectBlock.deserialize_serialize ib b
  · intro s s' ino r h
    exact ⟨sameOutsideSlot_writeInodeAt h, fun j hj => readInode_writeInodeAt_of_ne h hj⟩
  · intro s s' ino r e h
    exact writeInodeAt_error h

lemma longestName_fits : Name.Fits (List.replicate 254 97) := by
  unfold Name.Fits
  rw [List.length_replicate]
  decide

theorem round_trip_longest_name :
    Name.Fits (List.replicate 254 97) ∧ dentryBlkOff 14 + direntSz ≤ Fs.blkSz ∧
      Dirent.deserialize (Dirent.serialize ⟨8, List.replicate 254 97⟩ (Buf.fill 0 Fs.blkSz)
        (dentryBlkOff 14)) (dentryBlkOff 14) = ⟨8, List.replicate 254 97⟩ :=
  ⟨longestName_fits, by decide, structures_round_trip.2.2.1 _ _ _ longestName_fits
    (fun hzero => absurd (List.eq_of_mem_replicate hzero) (by decide)) (by decide)⟩

/-- A name is read back up to its first zero byte. -/
theorem name_cut_at_zero_byte : Name.Fits [97, 0, 98] ∧
    Dirent.deserialize (Dirent.serialize ⟨8, [97, 0, 98]⟩ (Buf.fill 0 Fs.blkSz) 0) 0 ≠
      ⟨8, [97, 0, 98]⟩ := by
  refine ⟨by decide, ?_⟩
  rw [Dirent.deserialize_serialize (by decide) _ (by decide)]
  decide

end Structures

end Bfs.Native
