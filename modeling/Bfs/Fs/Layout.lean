import Bfs.Lib.Buf

/-! Block geometry: sizes of blocks and security metadata, the regions of a native volume, and
the place of the metadata of a block. -/
namespace Bfs.Fs
open ByteSeq

/-- `BLK_SZ`. -/
def blkSz : ℕ := 4096
def ivLen : ℕ := 12
def macLen : ℕ := 16
def hmacLen : ℕ := 32

abbrev Block := Buf UInt8 blkSz
abbrev Iv := Buf UInt8 ivLen
abbrev Mac := Buf UInt8 macLen
abbrev Hash := Buf UInt8 hmacLen

def metasPerBlk : ℕ := blkSz / (ivLen + macLen)

/-- `BLK_META_BLK_LOC`. -/
def blkMetaBlkLoc (b : ℕ) : ℕ := b / metasPerBlk

/-- `BLK_META_BLK_IDX_LOC`. -/
def blkMetaBlkIdxLoc (b : ℕ) : ℕ := b % metasPerBlk

section Native

def numInodes : ℕ := 100000
def blkSzBits : ℕ := blkSz*8
def inodeSz : ℕ := 256
def sbRelStartBlkNum : ℕ := 0
def mtRelStartBlkNum : ℕ := sbRelStartBlkNum + 1
def ibmRelStartBlkNum : ℕ := mtRelStartBlkNum + 1
def numIbitmapBlocks : ℕ := (numInodes - 1) / blkSzBits + 1
def numInodesPerBlock : ℕ := blkSz / inodeSz
def numItabBlocks : ℕ := (numInodes - 1) / numInodesPerBlock + 1
def itabRelStartBlkNum : ℕ := ibmRelStartBlkNum + numIbitmapBlocks
def metadataRelStartBlkNum : ℕ := itabRelStartBlkNum + numItabBlocks

/-- `NUM_META_BLOCKS` of a volume of `n` blocks. -/
def numMetaBlocks (n : ℕ) : ℕ := n / metasPerBlk + 1

/-- `DATA_REL_START_BLK_NUM`: the first data block, which holds the root directory. -/
def dataRelStartBlkNum (n : ℕ) : ℕ := metadataRelStartBlkNum + numMetaBlocks n

/-- `NUM_DATA_BLOCKS`. -/
def numDataBlocks (n : ℕ) : ℕ :=
  n - numIbitmapBlocks - numItabBlocks - numMetaBlocks n - 1 - 1

end Native

section Lwext4

/-- `BFS_LWEXT_META_START_BLK_NUM`. -/
def lwextMetaStartBlkNum (n : ℕ) : ℕ := n + 1

/-- `BFS_LWEXT4_META_SPC`. -/
def lwext4MetaSpc (n : ℕ) : ℕ := n / metasPerBlk + 1 + 1

end Lwext4

@[simp] lemma metasPerBlk_eq : metasPerBlk = 146 := by decide
@[simp] lemma metadataRelStartBlkNum_eq : metadataRelStartBlkNum = 6256 := by decide

lemma dataRelStartBlkNum_eq (n : ℕ) : dataRelStartBlkNum n = 6257 + n / 146 := by
  rw [dataRelStartBlkNum, numMetaBlocks, metadataRelStartBlkNum_eq, metasPerBlk_eq]
  omega

lemma blkMetaBlkIdxLoc_fits (b : ℕ) :
    blkMetaBlkIdxLoc b * (ivLen + macLen) + ivLen + macLen ≤ blkSz := by
  rw [blkMetaBlkIdxLoc, metasPerBlk_eq, ivLen, macLen, blkSz]
  omega

lemma blkMetaBlkIdxLoc_disjoint {a b : ℕ} (hloc : blkMetaBlkLoc a = blkMetaBlkLoc b)
    (hne : a ≠ b) :
    blkMetaBlkIdxLoc a * (ivLen + macLen) + (ivLen + macLen) ≤
        blkMetaBlkIdxLoc b * (ivLen + macLen) ∨
      blkMetaBlkIdxLoc b * (ivLen + macLen) + (ivLen + macLen) ≤
        blkMetaBlkIdxLoc a * (ivLen + macLen) := by
  simp only [blkMetaBlkLoc, blkMetaBlkIdxLoc, metasPerBlk_eq, ivLen, macLen] at *
  omega

end Bfs.Fs
