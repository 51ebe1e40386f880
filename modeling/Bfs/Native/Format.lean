import Bfs.Native.FileIo

/-! The file system that `mkfs` and `mount` leave: the reserved inodes, the root directory with its two
entries, and empty data blocks. -/
namespace Bfs.Native
open ByteSeq Bfs.Fs

def formattedRoot (n : ℕ) : Inode :=
  (Inode.new rootIno 0 (ifdir ||| 0o777) 1 2).setIBlk ⟨0, numInodeIblks_pos⟩
    (UInt64.ofNat (dataRelStartBlkNum n))

def reservedInode (n k : ℕ) : Inode :=
  if k = rootIno.toNat then formattedRoot n else Inode.new (UInt64.ofNat k) 0 0 0 0

def reservedInos : List ℕ := List.range firstUnreservedIno.toNat

def formattedBits : Block := reservedInos.foldl (fun b k => setBit k b) zeroBlk

def formattedItab (n : ℕ) : Block :=
  reservedInos.foldl (fun b k => (reservedInode n k).serialize b (itabBlkOff (UInt64.ofNat k))) zeroBlk

/-- The blocks behind `mkfs`. The buffer of the bitmap and the one of the inode table are cleared only
once, before the second block; from the third block on, they hold what the encryption of the block
before left there. The first two blocks are not read any more. -/
def formattedDisk (noise : ℕ → Block) (n b : ℕ) : Option Block :=
  if b < ibmRelStartBlkNum then some (noise b)
  else if b = ibmRelStartBlkNum then some formattedBits
  else if b = ibmRelStartBlkNum + 1 then some zeroBlk
  else if b < itabRelStartBlkNum then some (noise b)
  else if b = itabRelStartBlkNum then some (formattedItab n)
  else if b = itabRelStartBlkNum + 1 then some zeroBlk
  else if b < metadataRelStartBlkNum then some (noise b)
  else if b = dataRelStartBlkNum n then some (dotBlk rootIno rootIno)
  else some zeroBlk

/-- A volume of `n` blocks after `mkfs` and `mount`. -/
def formatted (noise : ℕ → Block) (n : ℕ) : FsState where
  numBlks := n
  disk := formattedDisk noise n
  sb := ⟨numDataBlocks n, numDataBlocks n, numInodes - firstUnreservedIno.toNat,
    UInt64.ofNat (dataRelStartBlkNum n + 1)⟩
  openFileTab := []
  nextFd := startFd.toUInt32

end Bfs.Native
