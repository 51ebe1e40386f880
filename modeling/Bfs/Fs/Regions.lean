import Bfs.Fs.BlkMeta

/-! The regions of a native volume: they follow each other without gaps, fill the device, and
hold the bitmap bit and table slot of every inode and the metadata entry of every block. -/
namespace Bfs.Fs

section Regions

inductive Region
  | superblock
  | merkleRoot
  | inodeBitmap
  | inodeTable
  | metadata
  | data
  deriving DecidableEq, Repr

namespace Region

def start (n : ℕ) : Region → ℕ
  | superblock => sbRelStartBlkNum
  | merkleRoot => mtRelStartBlkNum
  | inodeBitmap => ibmRelStartBlkNum
  | inodeTable => itabRelStartBlkNum
  | metadata => metadataRelStartBlkNum
  | data => dataRelStartBlkNum n

def size (n : ℕ) : Region → ℕ
  | superblock => 1
  | merkleRoot => 1
  | inodeBitmap => numIbitmapBlocks
  | inodeTable => numItabBlocks
  | metadata => numMetaBlocks n
  | data => numDataBlocks n

def next : Region → Option Region
  | superblock => some merkleRoot
  | merkleRoot => some inodeBitmap
  | inodeBitmap => some inodeTable
  | inodeTable => some metadata
  | metadata => some data
  | data => none

def blocks (n : ℕ) (r : Region) : Finset ℕ := Finset.Ico (r.start n) (r.start n + r.size n)

lemma mem_blocks {n b : ℕ} {r : Region} :
    b ∈ r.blocks n ↔ r.start n ≤ b ∧ b < r.start n + r.size n := Finset.mem_Ico

end Region

/-- `IBM_ABSOLUTE_BLK_LOC`: the block with the bitmap bit of an inode. -/
def ibmAbsoluteBlkLoc (ino : ℕ) : ℕ := ibmRelStartBlkNum + ino / blkSzBits

/-- The position of the bit in its block, in `IBitMap::set_bit` and `IBitMap::clear_bit`. -/
def ibmBlkBit (ino : ℕ) : ℕ := ino % blkSzBits

/-- `ITAB_ABSOLUTE_BLK_LOC`: the block with the table slot of an inode. -/
def itabAbsoluteBlkLoc (ino : ℕ) : ℕ := itabRelStartBlkNum + ino / numInodesPerBlock

/-- `ITAB_ABSOLUTE_BLK_OFF`. -/
def itabAbsoluteBlkOff (ino : ℕ) : ℕ := ino % numInodesPerBlock * inodeSz

end Regions

section Partition

open Region

structure Partitions (n : ℕ) : Prop where
  first : superblock.start n = 0
  consecutive : ∀ r s : Region, r.next = some s → s.start n = r.start n + r.size n
  last : data.start n + data.size n = n
  disjoint : ∀ r s : Region, r ≠ s → Disjoint (r.blocks n) (s.blocks n)
  cover : ∀ b, b < n ↔ ∃ r : Region, b ∈ r.blocks n

structure HoldsInode (n ino : ℕ) : Prop where
  bit_block : ibmAbsoluteBlkLoc ino ∈ inodeBitmap.blocks n
  bit : ibmBlkBit ino < blkSzBits
  slot_block : itabAbsoluteBlkLoc ino ∈ inodeTable.blocks n
  slot : itabAbsoluteBlkOff ino + inodeSz ≤ blkSz

structure HoldsMeta (n b : ℕ) : Prop where
  entry_block : Volume.metaBlk ⟨false, n⟩ b ∈ metadata.blocks n
  entry : blkMetaBlkIdxLoc b * (ivLen + macLen) + ivLen + macLen ≤ blkSz
  root : hmacLen ≤ blkSz

lemma data_end {n : ℕ} (h : 0 < numDataBlocks n) : data.start n + data.size n = n := by
  have hmeta : metadataRelStartBlkNum = 1 + 1 + numIbitmapBlocks + numItabBlocks := rfl
  simp only [start, size, dataRelStartBlkNum, numDataBlocks] at h ⊢
  omega

lemma start_next {n : ℕ} {r s : Region} (h : r.next = some s) :
    s.start n = r.start n + r.size n := by
  cases r with
  | data => cases h
  | superblock => cases h; rfl
  | merkleRoot => cases h; rfl
  | inodeBitmap => cases h; rfl
  | inodeTable => cases h; rfl
  | metadata => cases h; rfl

def Region.index : Region → ℕ
  | superblock => 0
  | merkleRoot => 1
  | inodeBitmap => 2
  | inodeTable => 3
  | metadata => 4
  | data => 5

lemma end_le_start {n : ℕ} {r s : Region} (h : r.index < s.index) :
    r.start n + r.size n ≤ s.start n := by
  have h₁ := start_next (n := n) (show superblock.next = some merkleRoot from rfl)
  have h₂ := start_next (n := n) (show merkleRoot.next = some inodeBitmap from rfl)
  have h₃ := start_next (n := n) (show inodeBitmap.next = some inodeTable from rfl)
  have h₄ := start_next (n := n) (show inodeTable.next = some metadata from rfl)
  have h₅ := start_next (n := n) (show metadata.next = some data from rfl)
  cases r <;> cases s <;> first | exact absurd h (by decide) | omega

lemma disjoint_blocks {n : ℕ} {r s : Region} (h : r ≠ s) : Disjoint (r.blocks n) (s.blocks n) := by
  have hindex : r.index ≠ s.index := by
    intro heq
    apply h
    cases r <;> cases s <;> first | rfl | exact absurd heq (by decide)
  rw [Finset.disjoint_left]
  intro b hr hs
  rw [mem_blocks] at hr hs
  rcases Nat.lt_or_gt_of_ne hindex with hlt | hlt
  · have hle := end_le_start (n := n) hlt
    omega
  · have hle := end_le_start (n := n) hlt
    omega

lemma exists_region {n b : ℕ} (h : 0 < numDataBlocks n) : b < n ↔ ∃ r : Region, b ∈ r.blocks n := by
  have hlast := data_end h
  constructor
  · intro hb
    -- The region is the last one that begins at or before the block.
    by_contra hnone
    have hout : ∀ r : Region, r.start n ≤ b → r.start n + r.size n ≤ b := by
      intro r hle
      by_contra hlt
      exact hnone ⟨r, mem_blocks.mpr ⟨hle, by omega⟩⟩
    have hstep : ∀ r s : Region, r.next = some s → r.start n ≤ b → s.start n ≤ b := by
      intro r s hnext hle
      rw [start_next hnext]
      exact hout r hle
    have hdata : data.start n ≤ b :=
      hstep metadata data rfl (hstep inodeTable metadata rfl (hstep inodeBitmap inodeTable rfl
        (hstep merkleRoot inodeBitmap rfl (hstep superblock merkleRoot rfl (Nat.zero_le b)))))
    have hend := hout data hdata
    omega
  · rintro ⟨r, hr⟩
    rw [mem_blocks] at hr
    by_cases hdata : r = data
    · rw [hdata] at hr
      omega
    · have hle : r.start n + r.size n ≤ data.start n := by
        apply end_le_start
        cases r <;> first | decide | exact absurd rfl hdata
      omega

lemma holdsInode {n ino : ℕ} (h : ino < numInodes) : HoldsInode n ino := by
  rw [numInodes] at h
  have hbits : blkSzBits = 32768 := by decide
  have hper : numInodesPerBlock = 16 := by decide
  have hbitmap : numIbitmapBlocks = 4 := by decide
  have htable : numItabBlocks = 6250 := by decide
  refine ⟨?_, Nat.mod_lt _ (by decide), ?_, ?_⟩
  · rw [mem_blocks, ibmAbsoluteBlkLoc]
    simp only [start, size, hbits, hbitmap]
    omega
  · rw [mem_blocks, itabAbsoluteBlkLoc]
    simp only [start, size, hper, htable]
    omega
  · rw [itabAbsoluteBlkOff, hper, inodeSz, blkSz]
    omega

lemma holdsMeta {n b : ℕ} (h : b ≤ n) : HoldsMeta n b := by
  refine ⟨?_, blkMetaBlkIdxLoc_fits b, by decide⟩
  rw [mem_blocks]
  simp only [Volume.metaBlk, Volume.metaStart, Bool.false_eq_true, if_false, start, size,
    blkMetaBlkLoc, numMetaBlocks, metasPerBlk_eq]
  omega

/-- The regions of every volume with at least one data block divide the device, and they hold the
bits and slots of all inodes and the metadata entries of all blocks and of the root hash. -/
theorem native_layout (n : ℕ) (h : 0 < numDataBlocks n) :
    Partitions n ∧ (∀ ino < numInodes, HoldsInode n ino) ∧ ∀ b ≤ n, HoldsMeta n b := by
  refine ⟨⟨rfl, fun r s => start_next, data_end h, fun r s => disjoint_blocks,
    fun b => exists_region h⟩, ?_, ?_⟩
  · intro ino hino
    exact holdsInode hino
  · intro b hb
    exact holdsMeta hb

theorem native_layout_smallest :
    numDataBlocks 6301 = 1 ∧ Partitions 6301 ∧ HoldsInode 6301 99999 ∧ HoldsMeta 6301 6301 := by
  obtain ⟨hparts, hino, hmeta⟩ := native_layout 6301 (by decide)
  exact ⟨by decide, hparts, hino 99999 (by decide), hmeta 6301 le_rfl⟩

end Partition

end Bfs.Fs
