import Bfs.Fs.Layout
import Bfs.Lib.LittleEndian

/-! The structures of the native file system and their places in a block: inodes, directory
entries, indirect blocks and bits of the inode bitmap. -/
namespace Bfs.Native
open ByteSeq LittleEndian Bfs.Fs

def maxFileNameLen : ℕ := 255
def numDirectBlocks : ℕ := 12
def numInodeIblks : ℕ := numDirectBlocks + 1

lemma numInodeIblks_pos : 0 < numInodeIblks := Nat.succ_pos _
def direntSz : ℕ := maxFileNameLen + 8
def numDirentsPerBlock : ℕ := blkSz / direntSz
def numBlksPerIb : ℕ := blkSz / 8

lemma direntSz_eq : direntSz = 263 := rfl
lemma numDirentsPerBlock_eq : numDirentsPerBlock = 15 := by decide
lemma inodeSz_eq : inodeSz = 256 := rfl
lemma numInodesPerBlock_eq : numInodesPerBlock = 16 := by decide
lemma blkSz_eq : blkSz = 4096 := rfl

/-- `ITAB_ABSOLUTE_BLK_LOC`. -/
def itabBlkLoc (ino : UInt64) : ℕ := itabRelStartBlkNum + ino.toNat / numInodesPerBlock

/-- `ITAB_ABSOLUTE_BLK_OFF`. -/
def itabBlkOff (ino : UInt64) : ℕ := (ino.toNat % numInodesPerBlock) * inodeSz

/-- `IBM_ABSOLUTE_BLK_LOC`. -/
def ibmBlkLoc (ino : UInt64) : ℕ := ibmRelStartBlkNum + ino.toNat / blkSzBits

/-- `DENTRY_ABSOLUTE_BLK_OFF`. -/
def dentryBlkOff (idx : ℕ) : ℕ := idx * direntSz

/-- A `std::string` of bytes: a file name or a path. -/
abbrev Name := List UInt8

/-- Class `Inode`. -/
@[ext] structure Inode where
  iNo : UInt64
  uid : UInt32
  mode : UInt32
  refCnt : UInt64
  atime : UInt64
  mtime : UInt64
  ctime : UInt64
  size : UInt64
  iLinksCount : UInt64
  iBlks : Buf UInt64 numInodeIblks
  deriving DecidableEq

def Inode.new (ino : UInt64) (uid mode : UInt32) (refCnt links : UInt64) : Inode :=
  ⟨ino, uid, mode, refCnt, 0, 0, 0, 0, links, Buf.fill 0 numInodeIblks⟩

def Inode.setIBlk (r : Inode) (idx : Fin numInodeIblks) (vbid : UInt64) : Inode :=
  { r with iBlks := r.iBlks.set idx vbid }

def indirectIdx : Fin numInodeIblks := ⟨numDirectBlocks, by decide⟩

section InodeBytes

/-- The bytes that `Inode::serialize` copies, in its order. -/
def Inode.bytes (r : Inode) : List UInt8 :=
  u64 r.iNo ++ (u32 r.uid ++ (u32 r.mode ++ (u64 r.refCnt ++ (u64 r.atime ++ (u64 r.mtime ++
    (u64 r.ctime ++ (u64 r.size ++ (u64 r.iLinksCount ++ words r.iBlks.toList))))))))

def Inode.serialize (r : Inode) (b : Block) (offStart : ℕ) : Block := b.write offStart r.bytes

def Inode.deserialize (b : Block) (offStart : ℕ) : Inode where
  iNo := ofU64 (slice b.toList offStart 8)
  uid := ofU32 (slice b.toList (offStart+8) 4)
  mode := ofU32 (slice b.toList (offStart+12) 4)
  refCnt := ofU64 (slice b.toList (offStart+16) 8)
  atime := ofU64 (slice b.toList (offStart+24) 8)
  mtime := ofU64 (slice b.toList (offStart+32) 8)
  ctime := ofU64 (slice b.toList (offStart+40) 8)
  size := ofU64 (slice b.toList (offStart+48) 8)
  iLinksCount := ofU64 (slice b.toList (offStart+56) 8)
  iBlks := ⟨ofWords numInodeIblks (slice b.toList (offStart+64) (8*numInodeIblks)),
    length_ofWords _ _⟩

def inodeLen : ℕ := 64 + 8*numInodeIblks

@[simp] lemma Inode.length_bytes (r : Inode) : r.bytes.length = inodeLen := by
  simp only [Inode.bytes, inodeLen, List.length_append, length_u64, length_u32, length_words,
    r.iBlks.length_toList]
  omega

lemma Inode.deserialize_serialize (r : Inode) (b : Block) {off : ℕ} (h : off + inodeLen ≤ blkSz) :
    Inode.deserialize (r.serialize b off) off = r := by
  have hfit : off + r.bytes.length ≤ blkSz := by rw [r.length_bytes]; exact h
  have hin : ∀ a len : ℕ, a+len ≤ inodeLen →
      slice (r.serialize b off).toList (off+a) len = slice r.bytes a len := by
    intro a len ha
    exact b.slice_write_inside hfit (by rw [r.length_bytes]; exact ha)
  have hstart := hin 0 8 (by decide)
  rw [Nat.add_zero] at hstart
  have hlen : 8*numInodeIblks = (words r.iBlks.toList).length := by
    rw [length_words, r.iBlks.length_toList]
  have hround := ofWords_words r.iBlks.toList
  rw [r.iBlks.length_toList] at hround
  apply Inode.ext
  · exact (congrArg ofU64 hstart).trans (by simp [Inode.bytes, slice_append_left])
  · exact (congrArg ofU32 (hin 8 4 (by decide))).trans
      (by simp [Inode.bytes, slice_append_right, slice_append_left])
  · exact (congrArg ofU32 (hin 12 4 (by decide))).trans
      (by simp [Inode.bytes, slice_append_right, slice_append_left])
  · exact (congrArg ofU64 (hin 16 8 (by decide))).trans
      (by simp [Inode.bytes, slice_append_right, slice_append_left])
  · exact (congrArg ofU64 (hin 24 8 (by decide))).trans
      (by simp [Inode.bytes, slice_append_right, slice_append_left])
  · exact (congrArg ofU64 (hin 32 8 (by decide))).trans
      (by simp [Inode.bytes, slice_append_right, slice_append_left])
  · exact (congrArg ofU64 (hin 40 8 (by decide))).trans
      (by simp [Inode.bytes, slice_append_right, slice_append_left])
  · exact (congrArg ofU64 (hin 48 8 (by decide))).trans
      (by simp [Inode.bytes, slice_append_right, slice_append_left])
  · exact (congrArg ofU64 (hin 56 8 (by decide))).trans
      (by simp [Inode.bytes, slice_append_right, slice_append_left])
  · apply Buf.ext
    refine (congrArg (ofWords numInodeIblks) (hin 64 _ (by decide))).trans ?_
    have hwhole := slice_zero_length (words r.iBlks.toList)
    rw [← hlen] at hwhole
    have hwords : slice r.bytes 64 (8*numInodeIblks) = words r.iBlks.toList := by
      simpa [Inode.bytes, slice_append_right] using hwhole
    rw [hwords, hround]

lemma Inode.deserialize_write_disjoint (b : Block) (off : ℕ) (src : List UInt8) {a : ℕ}
    (hd : a + inodeLen ≤ off ∨ off + src.length ≤ a) :
    Inode.deserialize (b.write off src) a = Inode.deserialize b a := by
  have hlen : inodeLen = 168 := rfl
  have hout : ∀ k len : ℕ, k+len ≤ inodeLen →
      slice (b.write off src).toList (a+k) len = slice b.toList (a+k) len := by
    intro k len hk
    exact b.slice_write_disjoint off src (by omega)
  have hstart := hout 0 8 (by decide)
  rw [Nat.add_zero] at hstart
  apply Inode.ext
  · exact congrArg ofU64 hstart
  · exact congrArg ofU32 (hout 8 4 (by decide))
  · exact congrArg ofU32 (hout 12 4 (by decide))
  · exact congrArg ofU64 (hout 16 8 (by decide))
  · exact congrArg ofU64 (hout 24 8 (by decide))
  · exact congrArg ofU64 (hout 32 8 (by decide))
  · exact congrArg ofU64 (hout 40 8 (by decide))
  · exact congrArg ofU64 (hout 48 8 (by decide))
  · exact congrArg ofU64 (hout 56 8 (by decide))
  · apply Buf.ext
    exact congrArg (ofWords numInodeIblks) (hout 64 _ (by decide))

lemma itabBlkOff_fits (ino : UInt64) : itabBlkOff ino + inodeLen ≤ blkSz := by
  have hlen : inodeLen = 168 := rfl
  rw [itabBlkOff, numInodesPerBlock_eq, inodeSz_eq, blkSz_eq]
  omega

lemma Inode.deserialize_serialize_at (r : Inode) (b : Block) (i j : UInt64) :
    Inode.deserialize (r.serialize b (itabBlkOff i)) (itabBlkOff j) =
      if itabBlkOff j = itabBlkOff i then r else Inode.deserialize b (itabBlkOff j) := by
  split_ifs with hji
  · rw [hji]
    exact r.deserialize_serialize b (itabBlkOff_fits i)
  · apply Inode.deserialize_write_disjoint
    have hlen : inodeLen = 168 := rfl
    rw [itabBlkOff, itabBlkOff, inodeSz_eq] at hji
    rw [r.length_bytes, itabBlkOff, itabBlkOff, inodeSz_eq]
    omega

lemma eq_of_itab_eq {i j : UInt64} (hloc : itabBlkLoc j = itabBlkLoc i)
    (hoff : itabBlkOff j = itabBlkOff i) : j = i := by
  rw [itabBlkLoc, itabBlkLoc, numInodesPerBlock_eq] at hloc
  rw [itabBlkOff, itabBlkOff, numInodesPerBlock_eq, inodeSz_eq] at hoff
  apply UInt64.toNat_inj.mp
  omega

end InodeBytes

section Dentries

@[ext] structure Dirent where
  ino : UInt64
  deName : Name
  deriving DecidableEq, Repr

/-- Class `DirEntry`: an entry with its place. -/
@[ext] structure DirEntry where
  deName : Name
  ino : UInt64
  blkLoc : UInt64
  idxLoc : ℕ
  deriving DecidableEq, Repr

def Dirent.bytes (d : Dirent) : List UInt8 := u64 d.ino ++ padTo 0 maxFileNameLen d.deName

/-- `DirEntry::serialize` behind its assertion that the name and its terminator fit. -/
def Dirent.serialize (d : Dirent) (b : Block) (offStart : ℕ) : Block := b.write offStart d.bytes

def cStr (nm : Name) : Name := nm.takeWhile (· ≠ 0)

def Dirent.deserialize (b : Block) (offStart : ℕ) : Dirent where
  ino := ofU64 (slice b.toList offStart 8)
  deName := cStr (slice b.toList (offStart+8) maxFileNameLen)

def Name.Fits (nm : Name) : Prop := nm.length + 1 ≤ maxFileNameLen

instance (nm : Name) : Decidable (Name.Fits nm) := inferInstanceAs (Decidable (_ ≤ _))

@[simp] lemma Dirent.length_bytes {d : Dirent} (hd : Name.Fits d.deName) :
    d.bytes.length = direntSz := by
  have hfit : d.deName.length + 1 ≤ maxFileNameLen := hd
  rw [Dirent.bytes, List.length_append, length_u64, length_padTo, direntSz]
  omega

lemma cStr_of_not_mem {nm : Name} (h : 0 ∉ nm) : cStr nm = nm := by
  apply List.takeWhile_eq_self_iff.mpr
  intro x hx
  simp only [ne_eq, decide_eq_true_eq]
  rintro rfl
  exact h hx

lemma cStr_append_zeros (nm : Name) (k : ℕ) : cStr (nm ++ List.replicate k 0) = cStr nm := by
  induction nm with
  | nil => cases k <;> simp [cStr, List.replicate_succ]
  | cons x nm ih =>
    by_cases hx : x = 0
    · simp [cStr, hx]
    · simpa [cStr, hx] using ih

lemma Dirent.deserialize_serialize {d : Dirent} (hd : Name.Fits d.deName) (b : Block) {off : ℕ}
    (h : off + direntSz ≤ blkSz) :
    Dirent.deserialize (d.serialize b off) off = ⟨d.ino, cStr d.deName⟩ := by
  have hlen := Dirent.length_bytes hd
  have hfit : d.deName.length + 1 ≤ maxFileNameLen := hd
  have hpad : (padTo 0 maxFileNameLen d.deName).length = maxFileNameLen := by
    rw [length_padTo]
    omega
  have hin : ∀ a len : ℕ, a+len ≤ direntSz →
      slice (d.serialize b off).toList (off+a) len = slice d.bytes a len := by
    intro a len ha
    exact b.slice_write_inside (by rw [hlen]; exact h) (by rw [hlen]; exact ha)
  have hstart := hin 0 8 (by decide)
  rw [Nat.add_zero] at hstart
  have hname : slice d.bytes 8 maxFileNameLen = padTo 0 maxFileNameLen d.deName := by
    rw [Dirent.bytes, slice_append_right _ _ _ (by rw [length_u64]), length_u64, Nat.sub_self]
    have hwhole := slice_zero_length (padTo 0 maxFileNameLen d.deName)
    rw [hpad] at hwhole
    exact hwhole
  rw [Dirent.deserialize, hstart, hin 8 maxFileNameLen (by decide), hname, padTo,
    cStr_append_zeros, Dirent.bytes, slice_append_left _ _ (length_u64 _).symm, ofU64_u64]

lemma Dirent.deserialize_write_disjoint (b : Block) (off : ℕ) (src : List UInt8) {a : ℕ}
    (hd : a + direntSz ≤ off ∨ off + src.length ≤ a) :
    Dirent.deserialize (b.write off src) a = Dirent.deserialize b a := by
  have hname : maxFileNameLen = 255 := rfl
  rw [direntSz_eq] at hd
  rw [Dirent.deserialize, Dirent.deserialize, b.slice_write_disjoint off src (by omega),
    b.slice_write_disjoint off src (by omega)]

lemma dentryBlkOff_fits {idx : ℕ} (h : idx < numDirentsPerBlock) :
    dentryBlkOff idx + direntSz ≤ blkSz := by
  rw [numDirentsPerBlock_eq] at h
  rw [dentryBlkOff, direntSz_eq, blkSz_eq]
  omega

lemma Dirent.deserialize_serialize_at {d : Dirent} (hd : Name.Fits d.deName) (b : Block)
    {i : ℕ} (hi : i < numDirentsPerBlock) (j : ℕ) :
    Dirent.deserialize (d.serialize b (dentryBlkOff i)) (dentryBlkOff j) =
      if j = i then ⟨d.ino, cStr d.deName⟩ else Dirent.deserialize b (dentryBlkOff j) := by
  split_ifs with hji
  · rw [hji]
    exact Dirent.deserialize_serialize hd b (dentryBlkOff_fits hi)
  · apply Dirent.deserialize_write_disjoint
    rw [Dirent.length_bytes hd, dentryBlkOff, dentryBlkOff, direntSz_eq]
    omega

end Dentries

section Indirect

/-- Class `IndirectBlock`. -/
abbrev IndirectBlock := Buf UInt64 numBlksPerIb

def IndirectBlock.serialize (ib : IndirectBlock) (b : Block) : Block := b.write 0 (words ib.toList)

def IndirectBlock.deserialize (b : Block) : IndirectBlock :=
  ⟨ofWords numBlksPerIb b.toList, length_ofWords _ _⟩

lemma IndirectBlock.deserialize_serialize (ib : IndirectBlock) (b : Block) :
    IndirectBlock.deserialize (IndirectBlock.serialize ib b) = ib := by
  have hlen : (words ib.toList).length = blkSz := by
    rw [length_words, ib.length_toList]
    rfl
  have hround := ofWords_words ib.toList
  rw [ib.length_toList] at hround
  apply Buf.ext
  have hlist : (b.write 0 (words ib.toList)).toList = words ib.toList := by
    rw [b.toList_write (by omega), splice, List.take_zero, List.nil_append, Nat.zero_add, hlen,
      List.drop_eq_nil_of_le b.length_toList.le, List.append_nil]
  exact (congrArg (ofWords numBlksPerIb) hlist).trans hround

end Indirect

section Bits

def bitMask (nr : ℕ) : UInt8 := UInt8.ofNat (2^(nr%8))

/-- `bfs_test_bit`. -/
def testBit (nr : ℕ) (b : Block) : Bool := bitMask nr &&& b.toList.getD (nr/8) 0 != 0

/-- `bfs_set_bit`. -/
def setBit (nr : ℕ) (b : Block) : Block :=
  b.write (nr/8) [b.toList.getD (nr/8) 0 ||| bitMask nr]

/-- `bfs_clear_bit`. -/
def clearBit (nr : ℕ) (b : Block) : Block :=
  b.write (nr/8) [b.toList.getD (nr/8) 0 &&& ~~~bitMask nr]

def byteBit (x : UInt8) (k : ℕ) : Bool := x.toBitVec.getLsbD k

lemma toBitVec_bitMask (nr : ℕ) : (bitMask nr).toBitVec = BitVec.twoPow 8 (nr%8) := by
  apply BitVec.eq_of_toNat_eq
  have hlt : 2^(nr%8) < 2^8 := Nat.pow_lt_pow_right (by omega) (by omega)
  rw [BitVec.toNat_twoPow]
  exact UInt8.toNat_ofNat'

lemma testBit_eq (nr : ℕ) (b : Block) : testBit nr b = byteBit (b.toList.getD (nr/8) 0) (nr%8) := by
  have hand : (bitMask nr &&& b.toList.getD (nr/8) 0).toBitVec =
      if byteBit (b.toList.getD (nr/8) 0) (nr%8) then BitVec.twoPow 8 (nr%8) else 0#8 := by
    rw [UInt8.toBitVec_and, toBitVec_bitMask, BitVec.twoPow_and, byteBit]
  have hpos : BitVec.twoPow 8 (nr%8) ≠ 0#8 := by
    intro h
    have hbit := congrArg (BitVec.getLsbD · (nr%8)) h
    simp at hbit
    omega
  rw [testBit, bne, Bool.not_eq_eq_eq_not]
  cases hbit : byteBit (b.toList.getD (nr/8) 0) (nr%8) with
  | true =>
    rw [hbit, if_pos rfl] at hand
    rw [Bool.not_true, beq_eq_false_iff_ne]
    intro h
    exact hpos (hand.symm.trans (congrArg UInt8.toBitVec h))
  | false =>
    rw [hbit, if_neg (by simp)] at hand
    rw [Bool.not_false, beq_iff_eq]
    exact UInt8.toBitVec_inj.mp hand

lemma byteBit_or (x : UInt8) (nr k : ℕ) :
    byteBit (x ||| bitMask nr) k = (byteBit x k || decide (nr%8 = k)) := by
  have hlt : nr%8 < 8 := Nat.mod_lt _ (by omega)
  simp [byteBit, toBitVec_bitMask, BitVec.getLsbD_twoPow, hlt]

lemma getD_write_byte (b : Block) {i : ℕ} (hi : i < blkSz) (x : UInt8) (j : ℕ) :
    (b.write i [x]).toList.getD j 0 = if j = i then x else b.toList.getD j 0 := by
  have hlen := b.length_toList
  rw [List.getD_eq_getElem?_getD, List.getD_eq_getElem?_getD,
    b.toList_write (by rw [List.length_singleton]; omega),
    getElem?_splice _ _ _ (by omega), List.length_singleton]
  split_ifs with h hji hji
  · simp [hji]
  · omega
  · omega
  · rfl

lemma testBit_setBit {nr : ℕ} (hnr : nr < blkSzBits) (b : Block) (k : ℕ) :
    testBit k (setBit nr b) = (testBit k b || decide (nr = k)) := by
  have hbits : blkSzBits = blkSz*8 := rfl
  rw [testBit_eq, testBit_eq, setBit, getD_write_byte b (by omega)]
  split_ifs with hbyte
  · rw [byteBit_or, hbyte]
    congr 1
    exact decide_eq_decide.mpr (by omega)
  · have hne : nr ≠ k := fun h => hbyte (by rw [h])
    simp [hne]

end Bits

end Bfs.Native
