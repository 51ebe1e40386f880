import Bfs.Ext4.Handles
import Bfs.Lib.ByteSeq

/-! Reading and writing through the handles of the lwext4 backend. A write behind the end of a file fills
the hole by a write of its own; every call finds its file in the open file table under a mutex that is
not unlocked on all paths. -/
namespace Bfs.Ext4
open ByteSeq Bfs.Rpc

section Bytes

/-- The results of `ext4_fseek`, `ext4_fread` or `ext4_fwrite`, and `touch_file`. -/
structure IoAnswers where
  seek : Int32
  io : Int32
  touch : Int32
  deriving DecidableEq

inductive OpEnd
  | done (r : Int32)
  | failed (r : Int32)
  | aborted
  | fault
  deriving DecidableEq

def OpEnd.ret : OpEnd → Option Int32
  | .done r => some r
  | .failed r => some r
  | .aborted => none
  | .fault => none

def seekWrite (a : IoAnswers) (content buf : List UInt8) (off : ℕ) : OpEnd × List UInt8 :=
  if a.seek ≠ 0 then (.failed a.seek, content)
  else if a.io ≠ 0 then (.failed a.io, content)
  else if a.touch ≠ 0 then (.failed bfsFailure, splice content off buf)
  else (.done (Int32.ofNat buf.length), splice content off buf)

/-- What `malloc` gives, with the bytes that are there. -/
def malloc (garbage : ℕ → UInt8) (sz : ℕ) : List UInt8 := (List.range sz).map garbage

def afterFill (a : IoAnswers) (holeSize : Int32) (buf : List UInt8) (off : ℕ)
    (filled : OpEnd × List UInt8) : OpEnd × List UInt8 :=
  match filled.1.ret with
  | none => filled
  | some r =>
    if r ≠ holeSize then (.failed bfsFailure, filled.2)
    else if filled.2.length ≠ off then (.aborted, filled.2)
    else seekWrite a filled.2 buf off

/-- `__do_lwext4_write` from the lookup of the handle on, with the answers of this call and of the calls
in it. The size of a hole is an `int`; a negative one is more than `malloc` can give. -/
def fileWrite (garbage : ℕ → UInt8) (answers : ℕ → IoAnswers) (content buf : List UInt8) (off : ℕ) :
    OpEnd × List UInt8 :=
  if content.length < off then
    let holeSize := Int32.ofNat (off - content.length)
    if holeSize < 0 then (.fault, content)
    else
      let fill := malloc garbage holeSize.toInt.toNat
      afterFill (answers 0) holeSize buf off
        (fileWrite garbage (fun n => answers (n+1)) content fill content.length)
  else seekWrite (answers 0) content buf off
  termination_by off - content.length

/-- `__do_lwext4_read` from the lookup of the handle on: what is returned, and what is put into the
buffer. -/
def fileRead (a : IoAnswers) (content : List UInt8) (rsize off : ℕ) : OpEnd × List UInt8 :=
  let newOff := if off ≤ content.length then off else content.length
  if a.seek ≠ 0 then (.failed a.seek, [])
  else if a.io ≠ 0 then (.failed a.io, [])
  else
    let out := slice content newOff rsize
    (.done (Int32.ofNat out.length), out)

end Bytes

section Listing

/-- `DirEntry` as the listing of a directory fills it. -/
structure Dentry where
  deName : Path
  ino : UInt64
  eMode : UInt32
  eSize : UInt64
  atime : UInt32
  mtime : UInt32
  ctime : UInt32
  deriving DecidableEq

/-- What `__do_lwext4_getattr` gives. -/
structure EntryAttr where
  fino : UInt64
  fmode : UInt32
  fsize : UInt64
  atime : UInt32
  mtime : UInt32
  ctime : UInt32

/-- An entry of a directory, with the mode of the directory and the attributes at the path of the entry,
whichever is asked for. -/
structure FoundEntry where
  name : Path
  inode : UInt32
  mode : Except Int32 UInt32
  attr : Except Int32 EntryAttr

/-- `.`, `..` and `lost+found`. -/
def specialNames : List Path :=
  [[46], [46, 46], [108, 111, 115, 116, 43, 102, 111, 117, 110, 100]]

/-- The loop of `__do_lwext4_readdir`. A special entry has the size of the directory, and the times of the
entry before it, whatever they were in the beginning. -/
def readEntries (dirSize : UInt64) (atime mtime ctime : UInt32) :
    List FoundEntry → OpEnd × List Dentry
  | [] => (.done 0, [])
  | de::des =>
    if de.name ∈ specialNames then
      match de.mode with
      | .error r => (.failed r, [])
      | .ok fmode =>
        let rest := readEntries dirSize atime mtime ctime des
        (rest.1, ⟨de.name, de.inode.toUInt64, fmode, dirSize, atime, mtime, ctime⟩::rest.2)
    else
      match de.attr with
      | .error r => (.failed r, [])
      | .ok a =>
        if a.fino ≠ de.inode.toUInt64 then (.aborted, [])
        else
          let rest := readEntries dirSize a.atime a.mtime a.ctime des
          (rest.1, ⟨de.name, a.fino, a.fmode, a.fsize, a.atime, a.mtime, a.ctime⟩::rest.2)

end Listing

section Operations

structure Obj where
  kind : Kind
  inode : ℕ

structure LwFs where
  tab : HandleTab Obj
  files : ℕ → List UInt8

inductive Out
  | nothing
  | bytes (bs : List UInt8)
  | entries (ents : List Dentry)

inductive LwEnd
  | table (o : Outcome)
  | ret (e : OpEnd) (out : Out)

structure LwAnswers where
  opened : Except Int32 Obj
  found : Bool
  modeSet : Int32
  touched : Int32
  closed : Int32
  flushed : Int32
  truncated : Int32
  io : ℕ → IoAnswers
  garbage : ℕ → UInt8
  times : UInt32 × UInt32 × UInt32
  entries : List FoundEntry

/-- The lookup of a handle: `at` raises an exception for an unknown one and leaves the mutex locked. -/
def LwFs.withFile (s : LwFs) (fh : UInt64)
    (body : OpenFile Obj → OpEnd × Out × (ℕ → List UInt8)) : LwEnd × LwFs :=
  if s.tab.locked then (.table .blocked, s)
  else
    match s.tab.openFileTab[fh]? with
    | none => (.table .outOfRange, { s with tab := { s.tab with locked := true } })
    | some of =>
      let r := body of
      (.ret r.1 r.2.1, { s with files := r.2.2 })

def LwFs.read (s : LwFs) (fh rsize off : UInt64) (a : LwAnswers) : LwEnd × LwFs :=
  s.withFile fh fun of =>
    let r := fileRead (a.io 0) (s.files of.f.inode) rsize.toNat off.toNat
    (r.1, .bytes r.2, s.files)

def LwFs.write (s : LwFs) (fh : UInt64) (buf : List UInt8) (off : UInt64) (a : LwAnswers) :
    LwEnd × LwFs :=
  s.withFile fh fun of =>
    let r := fileWrite a.garbage a.io (s.files of.f.inode) buf off.toNat
    (r.1, .nothing, Function.update s.files of.f.inode r.2)

/-- `__do_lwext4_ftruncate`. -/
def LwFs.ftruncate (s : LwFs) (fh : UInt64) (len : UInt32) (a : LwAnswers) : LwEnd × LwFs :=
  s.withFile fh fun of =>
    if a.truncated ≠ 0 then (.failed a.truncated, .nothing, s.files)
    else
      let files := Function.update s.files of.f.inode ((s.files of.f.inode).take len.toNat)
      if a.touched ≠ 0 then (.failed bfsFailure, .nothing, files) else (.done 0, .nothing, files)

def LwFs.fsync (s : LwFs) (fh : UInt64) (a : LwAnswers) : LwEnd × LwFs :=
  s.withFile fh fun _ =>
    if a.flushed ≠ 0 then (.failed a.flushed, .nothing, s.files) else (.done 0, .nothing, s.files)

def LwFs.readdir (s : LwFs) (fh : UInt64) (a : LwAnswers) : LwEnd × LwFs :=
  s.withFile fh fun of =>
    let r := readEntries (UInt64.ofNat (s.files of.f.inode).length) a.times.1 a.times.2.1 a.times.2.2
      a.entries
    (r.1, .entries r.2, s.files)

def LwFs.onTable (s : LwFs) (r : Outcome × HandleTab Obj) : LwEnd × LwFs :=
  (.table r.1, { s with tab := r.2 })

inductive LwOp
  | create (path : Path)
  | openFile (path : Path)
  | opendir (path : Path)
  | release (fh : UInt64)
  | read (fh rsize off : UInt64)
  | write (fh : UInt64) (buf : List UInt8) (off : UInt64)
  | ftruncate (fh : UInt64) (len : UInt32)
  | fsync (fh : UInt64)
  | readdir (fh : UInt64)

def LwFs.call (s : LwFs) : LwOp → LwAnswers → LwEnd × LwFs
  | .create path, a => s.onTable (s.tab.create path a.opened a.modeSet a.touched)
  | .openFile path, a => s.onTable (s.tab.openFile path a.opened a.found a.touched a.modeSet)
  | .opendir path, a => s.onTable (s.tab.opendir path a.opened)
  | .release fh, a => s.onTable (s.tab.release fh a.closed)
  | .read fh rsize off, a => s.read fh rsize off a
  | .write fh buf off, a => s.write fh buf off a
  | .ftruncate fh len, a => s.ftruncate fh len a
  | .fsync fh, a => s.fsync fh a
  | .readdir fh, a => s.readdir fh a

end Operations

section Writing

variable {garbage : ℕ → UInt8} {answers : ℕ → IoAnswers} {content buf : List UInt8} {off : ℕ}

end Writing

section ByteArray

variable {s : LwFs} {fh : UInt64} {of : OpenFile Obj}

end ByteArray

end Bfs.Ext4
