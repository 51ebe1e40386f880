import Bfs.Native.State

/-! Directory scans and path lookup: `check_each_dentry`, `check_direct_blks`,
`check_indirect_blks`, `get_de` and `bfs_dirname`. Without caches none of them changes the state. -/
namespace Bfs.Native
open ByteSeq Bfs.Fs

/-- What a scan is for, the `de_handler` codes 1, 2 and 3. -/
inductive DeHandler
  | getDe (searchDe : Name)
  | readdir
  | emptySlot
  deriving DecidableEq

structure Scan where
  de : Option DirEntry
  allDentriesSearched : Bool
  deTested : ℕ
  ents : List DirEntry

def Scan.start : Scan := ⟨none, false, 0, []⟩

def blkDentries (vbid : UInt64) (b : Block) : List DirEntry :=
  (List.range numDirentsPerBlock).map fun idx =>
    let d := Dirent.deserialize b (dentryBlkOff idx)
    ⟨d.deName, d.ino, vbid, idx⟩

def DirEntry.valid (d : DirEntry) : Bool := d.deName != [] && !decide (d.ino < rootIno)

/-- The loop of `check_each_dentry`. -/
def checkDentries (h : DeHandler) (links : ℕ) : List DirEntry → Scan → Scan
  | [], st => st
  | d::ds, st =>
    match h with
    | .getDe searchDe =>
      if !d.valid then checkDentries h links ds st
      else if d.deName = searchDe then { st with de := some d }
      else if st.deTested + 1 = links then
        { st with deTested := st.deTested + 1, allDentriesSearched := true }
      else checkDentries h links ds { st with deTested := st.deTested + 1 }
    | .readdir =>
      if !d.valid then checkDentries h links ds st
      else if st.deTested + 1 = links then
        { st with deTested := st.deTested + 1, ents := st.ents ++ [d], allDentriesSearched := true }
      else checkDentries h links ds { st with deTested := st.deTested + 1, ents := st.ents ++ [d] }
    | .emptySlot =>
      if d.deName = [] then { st with de := some d }
      else checkDentries h links ds { st with deTested := st.deTested + 1 }

/-- `BfsHandle::check_each_dentry`. -/
def checkEachDentry (h : DeHandler) (links : ℕ) (vbid : UInt64) (b : Block) (st : Scan) : Scan :=
  if h ≠ .emptySlot ∧ st.deTested = links then { st with allDentriesSearched := true }
  else checkDentries h links (blkDentries vbid b) st

/-- The loops over the blocks of a directory. The scan is over at a block that is not in use, when
the entry was found, and when all entries were seen; `true` says that it ended so. -/
def checkBlks (s : FsState) (h : DeHandler) (links : ℕ) :
    List UInt64 → Scan → Except FsErr (Scan × Bool)
  | [], st => .ok (st, false)
  | vbid::vbids, st => do
    if vbid.toNat < s.dataStart then .ok ({ st with allDentriesSearched := true }, true)
    else
      let b ← readBlk s vbid.toNat
      let st := checkEachDentry h links vbid b st
      if st.de.isSome ∨ st.allDentriesSearched then .ok (st, true) else checkBlks s h links vbids st

def readDirInode (s : FsState) (uid : UInt32) (ino : UInt64) (notDir : String) :
    Except FsErr Inode := do
  let r ← readInode s ino
  if r.iNo ≠ ino then .error .aborted
  else if r.denies uid then .error (.accessDenied "Permission denied\n")
  else if !r.isDir then .error (.requestFailed notDir)
  else .ok r

/-- `BfsHandle::check_direct_blks`. -/
def checkDirectBlks (s : FsState) (uid : UInt32) (h : DeHandler) (ino : UInt64) (st : Scan) :
    Except FsErr Scan := do
  let r ← readDirInode s uid ino "Inode is not a directory file (check direct blks)\n"
  let (st, ended) ← checkBlks s h r.iLinksCount.toNat r.direct st
  if ended then .ok st
  else if st.deTested ≤ r.iLinksCount.toNat then .ok st else .error .aborted

/-- `BfsHandle::check_indirect_blks`. -/
def checkIndirectBlks (s : FsState) (uid : UInt32) (h : DeHandler) (ino : UInt64) (st : Scan) :
    Except FsErr Scan := do
  let r ← readDirInode s uid ino "Inode is not a directory file (check indirect blks)\n"
  let b ← readBlk s r.indirect.toNat
  let (st, ended) ← checkBlks s h r.iLinksCount.toNat (IndirectBlock.deserialize b).toList st
  if ended then .ok st
  else if st.deTested = r.iLinksCount.toNat then .ok { st with allDentriesSearched := true }
  else .error .aborted

/-- One round of the loop of `get_de`: the entry of a name in a directory. -/
def searchDir (s : FsState) (uid : UInt32) (parent : UInt64) (nm : Name) :
    Except FsErr (Option DirEntry) := do
  let st ← checkDirectBlks s uid (.getDe nm) parent Scan.start
  if st.de.isSome ∨ st.allDentriesSearched then .ok st.de
  else
    let st ← checkIndirectBlks s uid (.getDe nm) parent st
    if st.de.isSome ∨ st.allDentriesSearched then .ok st.de else .error .aborted

def slash : UInt8 := 47

def rootPath : Name := [slash]

/-- The names that `get_de` searches for, one after the other: the path up to each slash behind
its first byte, and the whole path. -/
def searchNames (path : Name) : List Name :=
  ((List.range path.length).filter fun k => decide (1 ≤ k) && path[k]? == some slash).map path.take
    ++ [path]

/-- The loop of `get_de` from a directory on. -/
def walk (s : FsState) (uid : UInt32) : UInt64 → List Name → Option DirEntry →
    Except FsErr (Option DirEntry)
  | _, [], de => .ok de
  | parent, nm::nms, _ => do
    match ← searchDir s uid parent nm with
    | none => .ok none
    | some d => walk s uid d.ino nms (some d)

def rootDe (s : FsState) : DirEntry := ⟨rootPath, rootIno, UInt64.ofNat s.dataStart, 0⟩

/-- `BfsHandle::get_de`; `none` is `BFS_FAILURE`. -/
def getDe (s : FsState) (uid : UInt32) (path : Name) : Except FsErr (Option DirEntry) := do
  if path.head? ≠ some slash then .ok none
  else if path = rootPath then .ok (some (rootDe s))
  else
    match ← walk s uid rootIno (searchNames path) none with
    | none => .ok none
    | some d => if d.deName = path then .ok (some d) else .ok none

/-- `bfs_dirname` of a C string. -/
def dirname (path : Name) : Name :=
  match (List.range path.length).reverse.find? fun k => path[k]? == some slash with
  | none => [46]
  | some 0 => rootPath
  | some k => path.take k

end Bfs.Native
