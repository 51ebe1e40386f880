import Bfs.Fs.BlockPath
import Bfs.Lib.Prog
import Bfs.Native.Codec

/-! The state of the mounted native file system without caches, its errors, and the functions on
blocks, inodes and handles. A block holds what `read_blk` returns, and nothing if it is rejected. -/
namespace Bfs.Native
open ByteSeq Bfs.Fs

def rootIno : UInt64 := 2
def firstUnreservedIno : UInt64 := 8
def maxOpenFiles : ℕ := 1000000
def startFd : UInt64 := 3

/-- What a call of the file system can throw, the aborts of its assertions, the `out_of_range` of
its containers, and undefined behaviour. -/
inductive FsErr
  | accessDenied (msg : String)
  | requestFailed (msg : String)
  | serverError (msg : String)
  | blk (e : BlkErr)
  | aborted
  | outOfRange
  | undefined
  deriving DecidableEq

/-- `BfsAccessDeniedError` and `BfsClientRequestFailedError`, which are answered to the client. -/
def FsErr.isClient : FsErr → Bool
  | .accessDenied _ => true
  | .requestFailed _ => true
  | _ => false

/-- The counters of class `SuperBlock`. -/
structure SuperBlock where
  noDblocks : ℕ
  noDblocksFree : ℕ
  noInodesFree : ℕ
  nextVbid : UInt64
  deriving DecidableEq

/-- The state of class `BfsHandle`; an open file is its inode number. -/
structure FsState where
  numBlks : ℕ
  disk : ℕ → Option Block
  sb : SuperBlock
  openFileTab : List (UInt64 × UInt64)
  nextFd : UInt32

abbrev FsM := Prog FsState FsErr

/-- `DATA_REL_START_BLK_NUM`. -/
def FsState.dataStart (s : FsState) : ℕ := dataRelStartBlkNum s.numBlks

def FsState.cfg (s : FsState) : BlkCfg := ⟨s.numBlks, false⟩

section Blocks

/-- `BfsHandle::read_blk`. -/
def readBlk (s : FsState) (b : ℕ) : Except FsErr Block :=
  if s.cfg.isMeta b then .error (.blk .readMeta)
  else if s.numBlks ≤ b then .error (.blk .readFailed)
  else
    match s.disk b with
    | none => .error (.blk .decryptFailed)
    | some v => .ok v

def FsState.setBlk (s : FsState) (b : ℕ) (v : Block) : FsState :=
  { s with disk := Function.update s.disk b (some v) }

/-- `BfsHandle::write_blk`. -/
def writeBlk (b : ℕ) (v : Block) : FsM Unit := fun s =>
  if s.cfg.isMeta b then (.error (.blk .writeMeta), s)
  else if s.numBlks ≤ b then (.error (.blk .writeFailed), s)
  else (.ok (), s.setBlk b v)

/-- `SuperBlock::alloc_blk`; 0 is a failure. -/
def allocBlk : FsM UInt64 := fun s =>
  if s.sb.noDblocksFree = 0 then (.ok 0, s)
  else (.ok s.sb.nextVbid, { s with sb := { s.sb with
    noDblocksFree := s.sb.noDblocksFree - 1, nextVbid := s.sb.nextVbid + 1 } })

/-- `SuperBlock::dealloc_blk`; `deallocBlock` of the block layer does nothing. -/
def deallocBlk (b : UInt64) : FsM Bool := fun s =>
  if b.toNat ≤ s.dataStart ∨ s.sb.noDblocksFree = s.sb.noDblocks then (.ok false, s)
  else (.ok true, { s with sb := { s.sb with noDblocksFree := s.sb.noDblocksFree + 1 } })

end Blocks

section Inodes

/-- `BfsHandle::read_inode`. -/
def readInode (s : FsState) (ino : UInt64) : Except FsErr Inode := do
  let b ← readBlk s (itabBlkLoc ino)
  let r := Inode.deserialize b (itabBlkOff ino)
  if r.iNo = 0 then .error (.serverError "read_inode found bad inode\n") else .ok r

/-- `BfsHandle::write_inode` into the slot of `inoLoc`. -/
def writeInodeAt (inoLoc : UInt64) (r : Inode) : FsM Unit := do
  let b ← Prog.reads (readBlk · (itabBlkLoc inoLoc))
  writeBlk (itabBlkLoc inoLoc) (r.serialize b (itabBlkOff inoLoc))

/-- `BfsHandle::write_inode`. -/
def writeInode (r : Inode) : FsM Unit := writeInodeAt r.iNo r

@[irreducible] def firstClear (b : Block) : Option ℕ := (List.range blkSzBits).find? fun k => !testBit k b

/-- The search of `alloc_ino`: the first clear bit of the first bitmap block that has one. -/
def findFreeIno : List Block → ℕ → Option (ℕ × ℕ × Block)
  | [], _ => none
  | b::bs, ibmb =>
    match firstClear b with
    | some k => some (ibmb, k, b)
    | none => findFreeIno bs (ibmb+1)

def readIbm (s : FsState) : Except FsErr (List Block) :=
  (List.range numIbitmapBlocks).mapM fun b => readBlk s (ibmRelStartBlkNum + b)

def setNoInodesFree (n : ℕ) : FsM Unit :=
  Prog.update fun s => { s with sb := { s.sb with noInodesFree := n } }

/-- `BfsHandle::alloc_ino`; 0 is a failure. -/
def allocIno : FsM UInt64 := do
  let noFree ← Prog.gets fun s => s.sb.noInodesFree
  if noFree = 0 then pure 0
  else
    let ibm ← Prog.reads readIbm
    match findFreeIno ibm 0 with
    | none =>
      Prog.raise (.serverError "Failed allocating new inode: inconsistency inode table state")
    | some (ibmb, k, b) =>
      writeBlk (ibmRelStartBlkNum + ibmb) (setBit k b)
      setNoInodesFree (noFree - 1)
      pure (UInt64.ofNat (ibmb*blkSzBits + k))

def deallocBlks (msg : String) : List UInt64 → FsM Bool
  | [] => pure true
  | b::bs => do
    let dataStart ← Prog.gets FsState.dataStart
    if b.toNat ≤ dataStart then pure false
    else
      let ok ← deallocBlk b
      Prog.require (ok = true) (.serverError msg)
      deallocBlks msg bs

def Inode.direct (r : Inode) : List UInt64 := r.iBlks.toList.take numDirectBlocks
def Inode.indirect (r : Inode) : UInt64 := r.iBlks.get indirectIdx

/-- The second half of `delete_inode_iblks`. The walk over the indirect block returns at the first
entry that is not in use, before the indirect block itself is given back. -/
def deleteIndirect (r : Inode) : FsM Unit := do
  let dataStart ← Prog.gets FsState.dataStart
  if r.indirect.toNat ≤ dataStart then pure ()
  else
    let b ← Prog.reads (readBlk · r.indirect.toNat)
    let all ← deallocBlks "Failed to deallocate indirect block\n" (IndirectBlock.deserialize b).toList
    if all then
      let ok ← deallocBlk r.indirect
      Prog.require (ok = true) (.serverError "Failed to deallocate indirect block\n")
    else pure ()

/-- `BfsHandle::delete_inode_iblks`. -/
def deleteInodeIblks (r : Inode) : FsM Unit := do
  let all ← deallocBlks "Failed to deallocate direct block\n" r.direct
  if all then deleteIndirect r else pure ()

/-- `BfsHandle::dealloc_ino`. The bitmap holds the one block that was read, and `clear_bit` takes the
block number of the inode as an index into it. -/
def deallocIno (r : Inode) : FsM Unit := do
  Prog.require (r.iNo ≠ rootIno) (.serverError "Trying to deallocate root inode\n")
  let noFree ← Prog.gets fun s => s.sb.noInodesFree
  let b ← Prog.reads (readBlk · (ibmBlkLoc r.iNo))
  Prog.require (r.iNo.toNat / blkSzBits = 0) .undefined
  writeBlk (ibmBlkLoc r.iNo) (clearBit (r.iNo.toNat % blkSzBits) b)
  deleteInodeIblks r
  writeInodeAt r.iNo { r with iNo := 0 }
  setNoInodesFree (noFree + 1)

end Inodes

section Handles

/-- `BfsHandle::alloc_fd`; 0 is a failure. -/
def allocFd : FsM UInt64 := fun s =>
  if s.openFileTab.length = maxOpenFiles then (.ok 0, s)
  else (.ok s.nextFd.toUInt64, { s with nextFd := s.nextFd + 1 })

/-- `open_file_tab.insert`, which keeps an entry that is there. -/
def insertOpenFile (fh ino : UInt64) : FsM Unit := Prog.update fun s =>
  if (s.openFileTab.lookup fh).isSome then s else { s with openFileTab := (fh, ino) :: s.openFileTab }

/-- The inode number of an open file: `open_file_tab.at` and the test of its result. -/
def openIno (s : FsState) (fh : UInt64) (msg : String) : Except FsErr UInt64 :=
  match s.openFileTab.lookup fh with
  | none => .error .outOfRange
  | some ino => if ino < rootIno then .error (.serverError msg) else .ok ino

end Handles

section Access

def irwxu : UInt32 := 0o700
def irwxo : UInt32 := 0o7
def ifmt : UInt32 := 0o170000
def ifdir : UInt32 := 0o40000
def ifreg : UInt32 := 0o100000

/-- `BFS__S_ISDIR` and `BFS__S_ISREG`. -/
def Inode.isDir (r : Inode) : Bool := r.mode &&& ifmt == ifdir
def Inode.isReg (r : Inode) : Bool := r.mode &&& ifmt == ifreg

def Inode.denies (r : Inode) (uid : UInt32) : Bool :=
  (uid == r.uid && r.mode &&& irwxu == 0) || r.mode &&& irwxo == 0

end Access

end Bfs.Native
