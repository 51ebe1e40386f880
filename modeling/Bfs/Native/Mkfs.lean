import Bfs.Native.Handles
import Bfs.Native.RoundTrip

/-! `mkfs` and `mount`. The buffers of the bitmap and of the inode table are written block after block
without being cleared, and `write_blk` encrypts a buffer in place. -/
namespace Bfs.Native
open ByteSeq Bfs.Fs

section Model

/-- What `write_blk` leaves in the buffer of a block: the encryption happens in place. No block is
written twice while formatting, so that the number of the block stands for the initialisation vector
of its write as well. -/
abbrev Encryption := ℕ → Block → Block

variable (enc : Encryption)

/-- `write_blk` with what is in the buffer afterwards. -/
def writeBuf (b : ℕ) (buf : Block) : FsM Block := do
  writeBlk b buf
  pure (enc b buf)

/-- A loop of `write_blk` over consecutive blocks that never clears its buffer. The call of
`resizeAllocation` behind each write keeps the sizes and so returns at its first test. -/
def writeUncleared : List ℕ → Block → FsM Block
  | [], buf => pure buf
  | b::bs, buf => do
    let buf ← writeBuf enc b buf
    writeUncleared bs buf

/-- A loop of `write_blk` over consecutive blocks with `burn` behind each write. -/
def writeCleared : List ℕ → FsM Unit
  | [] => pure ()
  | b::bs => do
    let _ ← writeBuf enc b zeroBlk
    writeCleared bs

def bfsSbMagic : UInt64 := 0xABCDABCDABCDABCD
def ibitmapIno : UInt64 := 4
def itableIno : UInt64 := 6
def journalIno : UInt64 := 7
def numUnresInodes : ℕ := numInodes - firstUnreservedIno.toNat

def mkfsSuper (n : ℕ) : StoredSuperBlock where
  magic := bfsSbMagic
  blkSz := UInt64.ofNat Fs.blkSz
  inoSz := UInt64.ofNat inodeSz
  noBlocks := UInt64.ofNat n
  noDblocks := UInt64.ofNat (numDataBlocks n)
  noInodes := UInt64.ofNat numInodes
  noDblocksFree := UInt64.ofNat (numDataBlocks n)
  noInodesFree := UInt64.ofNat numUnresInodes
  firstDataBlkLoc := UInt64.ofNat (dataRelStartBlkNum n + 1)
  nextVbid := UInt64.ofNat (dataRelStartBlkNum n + 1)
  rootIno := Native.rootIno
  ibmIno := ibitmapIno
  itabIno := itableIno
  journalIno := Native.journalIno
  firstUnresvIno := firstUnreservedIno
  state := UInt64.ofNat Status.formatted.code

/-- `BfsHandle::mkfs`. The blocks of the security metadata are not written. -/
def mkfs (status : Status) : FsM Status := do
  Prog.require (status = .initialized)
    (.serverError "Invalid server status in mkfs [!=INITIALIZED]\n")
  let n ← Prog.gets FsState.numBlks
  let _ ← writeBuf enc sbRelStartBlkNum ((mkfsSuper n).serialize zeroBlk 0)
  let _ ← writeBuf enc mtRelStartBlkNum zeroBlk
  let _ ← writeBuf enc ibmRelStartBlkNum formattedBits
  let _ ← writeUncleared enc (List.range' (ibmRelStartBlkNum + 1) (numIbitmapBlocks - 1)) zeroBlk
  let _ ← writeBuf enc itabRelStartBlkNum (formattedItab n)
  let _ ← writeUncleared enc (List.range' (itabRelStartBlkNum + 1) (numItabBlocks - 1)) zeroBlk
  let _ ← writeBuf enc (dataRelStartBlkNum n) (dotBlk rootIno rootIno)
  writeCleared enc (List.range' (dataRelStartBlkNum n + 1) (n - (dataRelStartBlkNum n + 1)))
  pure .formatted

def StoredSuperBlock.counters (sb : StoredSuperBlock) : SuperBlock :=
  ⟨sb.noDblocks.toNat, sb.noDblocksFree.toNat, sb.noInodesFree.toNat, sb.nextVbid⟩

/-- `BfsHandle::mount`. -/
def mount (status : Status) : FsM Status := do
  Prog.require (status = .formatted) (.serverError "Trying to mount from incorrect fs state.\n")
  let b ← Prog.reads (readBlk · sbRelStartBlkNum)
  let sb := StoredSuperBlock.deserialize b 0
  Prog.update fun s => { s with sb := sb.counters }
  Prog.require (sb.rootIno = rootIno) .aborted
  let r ← Prog.reads (readInode · sb.rootIno)
  Prog.require (r.iNo = sb.rootIno) .aborted
  let dataStart ← Prog.gets FsState.dataStart
  Prog.require ((r.iBlks.get ⟨0, numInodeIblks_pos⟩).toNat = dataStart) .aborted
  let d ← Prog.reads (readBlk · (r.iBlks.get ⟨0, numInodeIblks_pos⟩).toNat)
  Prog.require ((Dirent.deserialize d (dentryBlkOff 0)).deName = dotName) .aborted
  Prog.require ((Dirent.deserialize d (dentryBlkOff 1)).deName = dotDotName) .aborted
  pure .mounted

end Model

section Loops

variable (enc : Encryption)

def leftIn (a : ℕ) (buf : Block) : ℕ → Block
  | 0 => buf
  | k+1 => enc (a+k) (leftIn a buf k)

def FsState.fill (s : FsState) (a k : ℕ) (f : ℕ → Block) : FsState :=
  { s with disk := fun b => if a ≤ b ∧ b < a + k then some (f (b-a)) else s.disk b }

variable {enc} {s : FsState} {a k : ℕ} {f : ℕ → Block}

lemma FsState.Usable.setBlk {b c : ℕ} {v : Block} (h : s.Usable b) : (s.setBlk c v).Usable b := h

end Loops

section Result

variable {enc : Encryption} {s s' : FsState} {status st : Status}

/-- The writes of `mkfs` one behind the other. -/
def FsState.mkfsWrites (s : FsState) (enc : Encryption) : FsState :=
  (((((((s.setBlk sbRelStartBlkNum ((mkfsSuper s.numBlks).serialize zeroBlk 0)).setBlk
    mtRelStartBlkNum zeroBlk).setBlk
    ibmRelStartBlkNum formattedBits).fill
    (ibmRelStartBlkNum + 1) (numIbitmapBlocks - 1) (leftIn enc (ibmRelStartBlkNum + 1) zeroBlk)).setBlk
    itabRelStartBlkNum (formattedItab s.numBlks)).fill
    (itabRelStartBlkNum + 1) (numItabBlocks - 1) (leftIn enc (itabRelStartBlkNum + 1) zeroBlk)).setBlk
    (dataRelStartBlkNum s.numBlks) (dotBlk rootIno rootIno)).fill
    (dataRelStartBlkNum s.numBlks + 1) (s.numBlks - (dataRelStartBlkNum s.numBlks + 1)) fun _ => zeroBlk

end Result

section Contents

variable {enc : Encryption} {s : FsState}

end Contents

section Exact

variable {enc : Encryption} {s : FsState}

variable {s' : FsState} {status st : Status}

end Exact

section Mount

variable {enc : Encryption} {s t : FsState}

end Mount

end Bfs.Native
