import Bfs.Native.Dentries

/-! The calls on names and handles: getattr, open, opendir, readdir, create, mkdir, unlink, rmdir,
rename, chmod, fsync and release. The user is its id. -/
namespace Bfs.Native
open ByteSeq Bfs.Fs

section Checks

def lookup (s : FsState) (uid : UInt32) (path : Name) (missing : String) :
    Except FsErr (DirEntry × Inode) := do
  match ← getDe s uid path with
  | none => .error (.requestFailed missing)
  | some de => do
    let r ← readInode s de.ino
    .ok (de, r)

def accessFile (s : FsState) (uid : UInt32) (path : Name) : Except FsErr (DirEntry × Inode) := do
  if ¬Name.Fits path then .error (.requestFailed "File name too long\n")
  else
    let (de, r) ← lookup s uid path "File does not exist\n"
    if r.denies uid then .error (.accessDenied "Permission denied\n") else .ok (de, r)

def parentInode (s : FsState) (uid : UInt32) (path : Name) (denied : String) :
    Except FsErr Inode := do
  match ← getDe s uid (dirname (cStr path)) with
  | none => .error (.serverError "Parent dir does not exist\n")
  | some de => do
    let par ← readInode s de.ino
    if par.denies uid then .error (.accessDenied denied)
    else if !par.isDir then .error (.serverError "Parent inode is not a dir\n")
    else .ok par

/-- The tests of `create` and `mkdir` before they change something. -/
def newEntryParent (s : FsState) (uid : UInt32) (path : Name) : Except FsErr Inode := do
  if ¬Name.Fits path then .error (.requestFailed "File name too long\n")
  else
    match ← getDe s uid path with
    | some _ => .error (.requestFailed "File exists\n")
    | none => parentInode s uid path "Permission denied\n"

def accessOpen (s : FsState) (uid : UInt32) (fh : UInt64) (badIno : String) :
    Except FsErr Inode := do
  let ino ← openIno s fh badIno
  let r ← readInode s ino
  if r.denies uid then .error (.accessDenied "Permission denied\n") else .ok r

end Checks

section Reading

structure Attr where
  uid : UInt32
  fino : UInt64
  fmode : UInt32
  fsize : UInt64
  deriving DecidableEq

/-- `BfsHandle::bfs_getattr`. -/
def bfsGetattr (s : FsState) (uid : UInt32) (path : Name) : Except FsErr Attr := do
  let (_, r) ← accessFile s uid path
  .ok ⟨r.uid, r.iNo, r.mode, r.size⟩

/-- `BfsHandle::bfs_readdir`. -/
def bfsReaddir (s : FsState) (uid : UInt32) (fh : UInt64) : Except FsErr (List DirEntry) := do
  let ino ← openIno s fh "Error during bfs_release get inode id\n"
  let st ← checkDirectBlks s uid .readdir ino Scan.start
  if st.allDentriesSearched then .ok st.ents
  else
    let st ← checkIndirectBlks s uid .readdir ino st
    .ok st.ents

/-- `BfsHandle::bfs_chmod`: the new mode is set in the inode that was read, which is not written
back. -/
def bfsChmod (s : FsState) (uid : UInt32) (path : Name) (_newMode : UInt32) : Except FsErr Unit := do
  let _ ← accessFile s uid path
  .ok ()

end Reading

section Handles

/-- The common part of `bfs_open` and `bfs_opendir` behind the test of the file type. -/
def openInode (r : Inode) (badFd : String) : FsM UInt64 := do
  let fh ← allocFd
  Prog.require (¬fh < startFd) (.serverError badFd)
  writeInode { r with refCnt := r.refCnt + 1 }
  insertOpenFile fh r.iNo
  pure fh

/-- `BfsHandle::bfs_open`. -/
def bfsOpen (uid : UInt32) (path : Name) : FsM UInt64 := do
  let (_, r) ← Prog.reads (accessFile · uid path)
  Prog.require (r.isReg = true) (.requestFailed "Inode is not a regular file\n")
  openInode r "Invalid file handle in open\n"

/-- `BfsHandle::bfs_opendir`. -/
def bfsOpendir (uid : UInt32) (path : Name) : FsM UInt64 := do
  let (_, r) ← Prog.reads (accessFile · uid path)
  Prog.require (r.isDir = true) (.requestFailed "File is not a directory\n")
  openInode r "Invalid file handle in opendir\n"

/-- `BfsHandle::bfs_release`. -/
def bfsRelease (uid : UInt32) (fh : UInt64) : FsM Unit := do
  let r ← Prog.reads (accessOpen · uid fh "Error during bfs_release get inode id\n")
  writeInode { r with refCnt := r.refCnt - 1 }
  Prog.update fun s => { s with openFileTab := s.openFileTab.filter fun e => e.1 ≠ fh }

/-- `BfsHandle::bfs_fsync`. -/
def bfsFsync (uid : UInt32) (fh : UInt64) : FsM Unit := do
  let r ← Prog.reads (accessOpen · uid fh "Error during bfs_fsync get inode id\n")
  writeInode r

end Handles

section Creation

/-- The direct part of `prealloc_blks`. -/
def preallocDirect : List (Fin numInodeIblks) → Inode → FsM Inode
  | [], r => pure r
  | idx::idxs, r => do
    let b ← allocBlk
    Prog.require (b ≠ 0) (.serverError "Failed preallocating a new direct block vbid\n")
    preallocDirect idxs (r.setIBlk idx b)

/-- The indirect part of `prealloc_blks`. -/
def preallocIndirect : List (Fin numBlksPerIb) → IndirectBlock → FsM IndirectBlock
  | [], ib => pure ib
  | idx::idxs, ib => do
    let b ← allocBlk
    Prog.require (b ≠ 0) (.serverError "Failed preallocating a new indirect data block\n")
    preallocIndirect idxs (ib.set idx b)

/-- `BfsHandle::prealloc_blks`. -/
def preallocBlks (r : Inode) : FsM Inode := do
  let r ← preallocDirect ((List.finRange numDirectBlocks).map Fin.castSucc) r
  let b ← allocBlk
  Prog.require (b ≠ 0) (.serverError "Failed preallocating a new indirect block\n")
  let ib ← preallocIndirect (List.finRange numBlksPerIb) (Buf.fill 0 numBlksPerIb)
  writeBlk b.toNat (IndirectBlock.serialize ib zeroBlk)
  pure (r.setIBlk indirectIdx b)

/-- `BfsHandle::bfs_create`. -/
def bfsCreate (uid : UInt32) (path : Name) (mode : UInt32) : FsM UInt64 := do
  let par ← Prog.reads (newEntryParent · uid path)
  let ino ← allocIno
  Prog.require (¬ino < firstUnreservedIno)
    (.requestFailed "Failed allocating new inode: too many files\n")
  addDentry par ino path
  let fh ← allocFd
  Prog.require (¬fh < startFd) (.serverError "Invalid file handle in create\n")
  insertOpenFile fh ino
  let r ← preallocBlks (Inode.new ino uid (ifreg ||| mode) 1 0)
  writeInode r
  pure fh

def dotName : Name := [46]
def dotDotName : Name := [46, 46]

def dotBlk (ino parent : UInt64) : Block :=
  Dirent.serialize ⟨parent, dotDotName⟩ (Dirent.serialize ⟨ino, dotName⟩ zeroBlk (dentryBlkOff 0))
    (dentryBlkOff 1)

/-- `BfsHandle::bfs_mkdir`. -/
def bfsMkdir (uid : UInt32) (path : Name) (mode : UInt32) : FsM Unit := do
  let par ← Prog.reads (newEntryParent · uid path)
  let ino ← allocIno
  Prog.require (¬ino < firstUnreservedIno)
    (.requestFailed "Failed allocating new inode: too many files\n")
  let b ← allocBlk
  Prog.require (b ≠ 0) (.serverError "Failed allocating a new direct block\n")
  writeBlk b.toNat (dotBlk ino par.iNo)
  addDentry par ino path
  writeInode ((Inode.new ino uid (ifdir ||| mode) 0 2).setIBlk ⟨0, by decide⟩ b)

end Creation

section Removal

def rewriteDentry (de : DirEntry) (nm : Name) (ino : UInt64) : FsM Unit := do
  let b ← Prog.reads (readBlk · de.blkLoc.toNat)
  writeDentry b { de with deName := nm, ino := ino }

def clearDentry (de : DirEntry) (par : Inode) : FsM Unit := do
  rewriteDentry de [] 0
  writeInode { par with iLinksCount := par.iLinksCount - 1 }

/-- The common end of `bfs_unlink` and `bfs_rmdir`: free the inode, then take its entry out of the
parent. -/
def removeFile (uid : UInt32) (path : Name) (de : DirEntry) (r : Inode) : FsM Unit := do
  deallocIno r
  let par ← Prog.reads (parentInode · uid path "Permission denied\n")
  clearDentry de par

/-- `BfsHandle::bfs_unlink`. -/
def bfsUnlink (uid : UInt32) (path : Name) : FsM Unit := do
  let (de, r) ← Prog.reads (accessFile · uid path)
  Prog.require (r.isReg = true) (.requestFailed "Inode is not a regular file\n")
  Prog.require (r.iLinksCount = 0) (.serverError "Regular file has i_links and shouldnt\n")
  Prog.require (path = rootPath ∨ r.refCnt = 0) (.requestFailed "Regular inode is still open\n")
  removeFile uid path de r

/-- `BfsHandle::bfs_rmdir`. -/
def bfsRmdir (uid : UInt32) (path : Name) : FsM Unit := do
  let (de, r) ← Prog.reads (accessFile · uid path)
  Prog.require (r.isDir = true) (.requestFailed "Inode is not a directory file (rmdir)\n")
  Prog.require (r.iLinksCount ≤ 2) (.requestFailed "Directory is not empty\n")
  Prog.require (path = rootPath ∨ r.refCnt = 0) (.requestFailed "Directory inode is still open\n")
  removeFile uid path de r

end Removal

section Renaming

/-- The tests of `bfs_rename` on the source: its parent, its entry and its inode. -/
def renameChecks (s : FsState) (uid : UInt32) (frPath : Name) :
    Except FsErr (Inode × DirEntry × Inode) := do
  if ¬Name.Fits frPath then .error (.requestFailed "File name too long\n")
  else
    let par ← parentInode s uid frPath "Permission denied on from source\n"
    let (de, r) ← lookup s uid frPath "fr_path does not exist\n"
    if r.denies uid then .error (.accessDenied "Permission denied on source file\n")
    else if !r.isReg then .error (.requestFailed "Inode is not a regular file\n")
    else .ok (par, de, r)

/-- The first half of `bfs_rename`: take the source entry out of its directory. -/
def renameSource (uid : UInt32) (frPath : Name) : FsM UInt64 := do
  let (par, de, r) ← Prog.reads (renameChecks · uid frPath)
  clearDentry de par
  pure r.iNo

/-- The second half of `bfs_rename`: give the inode the target name. The inode of an existing target is
freed whatever it is, and its entry gets the new inode. -/
def renameTarget (uid : UInt32) (toPath : Name) (newI : UInt64) : FsM Unit := do
  match ← Prog.reads (getDe · uid toPath) with
  | some de => do
    let r ← Prog.reads (readInode · de.ino)
    Prog.require (r.denies uid = false) (.accessDenied "Permission denied on target file\n")
    deallocIno r
    rewriteDentry de de.deName newI
  | none => do
    let par ← Prog.reads (parentInode · uid toPath "Permission denied on from source\n")
    addDentry par newI toPath

/-- `BfsHandle::bfs_rename`. -/
def bfsRename (uid : UInt32) (frPath toPath : Name) : FsM Unit := do
  let newI ← renameSource uid frPath
  renameTarget uid toPath newI

end Renaming

end Bfs.Native
