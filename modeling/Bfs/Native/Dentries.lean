import Bfs.Native.Lookup

/-! Adding an entry to a directory: `add_dentry_to_direct_blks` and `add_dentry_to_indirect_blks`. -/
namespace Bfs.Native
open ByteSeq Bfs.Fs

def zeroBlk : Block := Buf.fill 0 blkSz

def writeDentry (b : Block) (d : DirEntry) : FsM Unit := do
  Prog.require (Name.Fits d.deName) .aborted
  writeBlk d.blkLoc.toNat (Dirent.serialize ⟨d.ino, d.deName⟩ b (dentryBlkOff d.idxLoc))

/-- Put the entry into the first empty slot of a block and count it in the parent; `none` if the
block is full. -/
def placeDentry (par : Inode) (ino : UInt64) (path : Name) (vbid : UInt64) (b : Block) :
    FsM (Option Inode) :=
  match (checkEachDentry .emptySlot par.iLinksCount.toNat vbid b Scan.start).de with
  | none => pure none
  | some de => do
    writeDentry b { de with deName := path, ino := ino, blkLoc := vbid }
    let par := { par with iLinksCount := par.iLinksCount + 1 }
    writeInode par
    pure (some par)

/-- The loop of `add_dentry_to_direct_blks` from an index on; the result has the parent if the entry
was added. A block that was just allocated is not read. -/
def addToDirect (ino : UInt64) (path : Name) :
    List (Fin numInodeIblks) → Bool → Inode → FsM (Bool × Inode)
  | [], _, par => pure (false, par)
  | idx::idxs, skipRead, par => do
    let dataStart ← Prog.gets FsState.dataStart
    if (par.iBlks.get idx).toNat < dataStart then
      let newBlk ← allocBlk
      if newBlk = 0 then pure (false, par)
      else
        let par := par.setIBlk idx newBlk
        writeInode par
        match ← placeDentry par ino path newBlk zeroBlk with
        | some par => pure (true, par)
        | none => addToDirect ino path idxs true par
    else
      let vbid := par.iBlks.get idx
      let b ← if skipRead then pure zeroBlk else Prog.reads (readBlk · vbid.toNat)
      match ← placeDentry par ino path vbid b with
      | some par => pure (true, par)
      | none => addToDirect ino path idxs skipRead par

/-- `BfsHandle::add_dentry_to_direct_blks`. -/
def addDentryToDirectBlks (par : Inode) (ino : UInt64) (path : Name) : FsM (Bool × Inode) :=
  addToDirect ino path ((List.finRange numDirectBlocks).map Fin.castSucc) false par

/-- The loop of `add_dentry_to_indirect_blks` from an index on. The serialized indirect block fills
its buffer. -/
def addToIndirect (ino : UInt64) (path : Name) :
    List (Fin numBlksPerIb) → Bool → IndirectBlock → Inode → FsM (Bool × Inode)
  | [], _, _, par => pure (false, par)
  | idx::idxs, skipRead, ib, par => do
    let dataStart ← Prog.gets FsState.dataStart
    if (ib.get idx).toNat < dataStart then
      let newBlk ← allocBlk
      if newBlk = 0 then pure (false, par)
      else
        let ib := ib.set idx newBlk
        writeBlk par.indirect.toNat (IndirectBlock.serialize ib zeroBlk)
        match ← placeDentry par ino path newBlk zeroBlk with
        | some par => pure (true, par)
        | none => addToIndirect ino path idxs true ib par
    else
      let vbid := ib.get idx
      let b ← if skipRead then pure zeroBlk else Prog.reads (readBlk · vbid.toNat)
      match ← placeDentry par ino path vbid b with
      | some par => pure (true, par)
      | none => addToIndirect ino path idxs skipRead ib par

/-- `BfsHandle::add_dentry_to_indirect_blks`. A new indirect block is recorded in the parent in memory;
the parent is written when the entry has been placed. -/
def addDentryToIndirectBlks (par : Inode) (ino : UInt64) (path : Name) : FsM (Bool × Inode) := do
  let dataStart ← Prog.gets FsState.dataStart
  if par.indirect.toNat < dataStart then
    let newBlk ← allocBlk
    if newBlk = 0 then pure (false, par)
    else
      addToIndirect ino path (List.finRange numBlksPerIb) true (Buf.fill 0 numBlksPerIb)
        (par.setIBlk indirectIdx newBlk)
  else
    let b ← Prog.reads (readBlk · par.indirect.toNat)
    addToIndirect ino path (List.finRange numBlksPerIb) false (IndirectBlock.deserialize b) par

def addDentry (par : Inode) (ino : UInt64) (path : Name) : FsM Unit := do
  let (ok, par) ← addDentryToDirectBlks par ino path
  if ok then pure ()
  else
    let (ok, _) ← addDentryToIndirectBlks par ino path
    Prog.require (ok = true)
      (.serverError "Failed adding dentry to direct or indirect blocks\n")

end Bfs.Native
