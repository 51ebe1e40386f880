import Bfs.Native.Ops

/-! Reading and writing open files: `bfs_read` and `bfs_write`. Sizes and offsets are 64-bit numbers;
the sums of the loops stay below the file size limit or the end of the buffer. -/
namespace Bfs.Native
open ByteSeq Bfs.Fs

section Reading

/-- The variables of the loop of `bfs_read`; `ib` holds the indirect block and the index into it once
it was read. -/
structure ReadLoop where
  numReadBytes : ℕ
  currFileOff : ℕ
  currBlkIdx : ℕ
  ib : Option (IndirectBlock × ℕ)
  buf : List UInt8

/-- The next block of the loop of `bfs_read`; `none` ends the loop. -/
def nextReadBlk (s : FsState) (r : Inode) (st : ReadLoop) :
    Except FsErr (Option (UInt64 × ReadLoop)) := do
  if h : st.currBlkIdx < numDirectBlocks then
    let vbid := r.iBlks.get ⟨st.currBlkIdx, Nat.lt_succ_of_lt h⟩
    if vbid.toNat < s.dataStart then .ok none
    else .ok (some (vbid, { st with currBlkIdx := st.currBlkIdx + 1 }))
  else
    let (ib, idx) ← match st.ib with
      | some p => .ok p
      | none => do
        if st.currFileOff < blkSz * numDirectBlocks then .error .aborted
        else
          let b ← readBlk s r.indirect.toNat
          .ok (IndirectBlock.deserialize b, st.currBlkIdx - numDirectBlocks)
    match ib.toList[idx]? with
    | none => .ok none
    | some vbid =>
      if vbid.toNat < s.dataStart then .ok none
      else .ok (some (vbid, { st with ib := some (ib, idx+1) }))

/-- The loop of `bfs_read`; every round reads at least one byte. -/
def readLoop (s : FsState) (r : Inode) : ℕ → ReadLoop → Except FsErr ReadLoop
  | 0, st => .ok st
  | fuel+1, st => do
    if st.numReadBytes = 0 ∨ r.size.toNat ≤ st.currFileOff then .ok st
    else
      match ← nextReadBlk s r st with
      | none => .ok st
      | some (vbid, st) => do
        let pos := st.currFileOff % blkSz
        let len := min (min st.numReadBytes (blkSz - pos)) (r.size.toNat - st.currFileOff)
        let b ← readBlk s vbid.toNat
        readLoop s r fuel { st with
          numReadBytes := st.numReadBytes - len
          currFileOff := st.currFileOff + len
          buf := st.buf ++ slice b.toList pos len }

/-- `BfsHandle::bfs_read`: the bytes that it copies to the buffer. -/
def bfsRead (s : FsState) (uid : UInt32) (fh : UInt64) (size off : ℕ) :
    Except FsErr (List UInt8) := do
  let r ← accessOpen s uid fh "Error during bfs_read get inode id\n"
  if r.size.toNat < off then .ok []
  else
    let st ← readLoop s r size ⟨size, off, off / blkSz, none, []⟩
    if r.size.toNat < st.currFileOff then .error (.serverError "Offset > size, aborting\n")
    else .ok st.buf

end Reading

section Writing

/-- The variables of the loop of `bfs_write`; `wbuf` is what is left of the buffer. -/
structure WriteLoop where
  wbuf : List UInt8
  currFileOff : ℕ
  currBlkIdx : ℕ
  ib : Option (IndirectBlock × ℕ)
  usingNewBlk : Bool
  usedNewBlocks : Bool
  ino : Inode

/-- The indirect block of the loop of `bfs_write`. A new one is written empty and makes the next block
count as new. -/
def writeIb (st : WriteLoop) : FsM (IndirectBlock × ℕ × WriteLoop) := do
  match st.ib with
  | some (ib, idx) => pure (ib, idx, st)
  | none => do
    let dataStart ← Prog.gets FsState.dataStart
    let idx := st.currBlkIdx - numDirectBlocks
    if st.ino.indirect.toNat < dataStart then
      let newBlk ← allocBlk
      Prog.require (newBlk ≠ 0) (.serverError "Failed allocating a new indirect block\n")
      writeBlk newBlk.toNat zeroBlk
      let ib := Buf.fill 0 numBlksPerIb
      pure (ib, idx, { st with
        usingNewBlk := true, ino := st.ino.setIBlk indirectIdx newBlk, ib := some (ib, idx) })
    else
      let b ← Prog.reads (readBlk · st.ino.indirect.toNat)
      let ib := IndirectBlock.deserialize b
      pure (ib, idx, { st with ib := some (ib, idx) })

/-- The next block of the loop of `bfs_write`; `none` when the file has its maximal size. -/
def nextWriteBlk (st : WriteLoop) : FsM (Option (UInt64 × WriteLoop)) := do
  let dataStart ← Prog.gets FsState.dataStart
  if h : st.currBlkIdx < numDirectBlocks then
    let idx : Fin numInodeIblks := ⟨st.currBlkIdx, Nat.lt_succ_of_lt h⟩
    let st' := { st with currBlkIdx := st.currBlkIdx + 1 }
    if (st.ino.iBlks.get idx).toNat < dataStart then
      let vbid ← allocBlk
      Prog.require (vbid ≠ 0) (.serverError "Failed allocating a new direct block vbid\n")
      pure (some (vbid, { st' with
        usingNewBlk := true, usedNewBlocks := true, ino := st.ino.setIBlk idx vbid }))
    else pure (some (st.ino.iBlks.get idx, st'))
  else
    let (ib, idx, st) ← writeIb st
    if h : idx < numBlksPerIb then
      let vbid := ib.get ⟨idx, h⟩
      if vbid.toNat < dataStart then
        let vbid ← allocBlk
        Prog.require (vbid ≠ 0) (.serverError "Failed allocating a new indirect block vbid\n")
        let ib := ib.set ⟨idx, h⟩ vbid
        writeBlk st.ino.indirect.toNat (IndirectBlock.serialize ib zeroBlk)
        pure (some (vbid, { st with
          usingNewBlk := true, usedNewBlocks := true, ib := some (ib, idx+1) }))
      else pure (some (vbid, { st with ib := some (ib, idx+1) }))
    else pure none

/-- The loop of `bfs_write`; every round writes at least one byte. `true` says that the loop was left
at the size limit. -/
def writeLoop : ℕ → WriteLoop → FsM (WriteLoop × Bool)
  | 0, st => pure (st, false)
  | fuel+1, st => do
    if st.wbuf = [] then pure (st, false)
    else
      match ← nextWriteBlk st with
      | none => pure (st, true)
      | some (vbid, st) => do
        let pos := st.currFileOff % blkSz
        let len := min st.wbuf.length (blkSz - pos)
        let b ←
          if st.usingNewBlk = false ∧ len < blkSz then Prog.reads (readBlk · vbid.toNat)
          else pure zeroBlk
        writeBlk vbid.toNat (b.write pos (st.wbuf.take len))
        writeLoop fuel { st with
          wbuf := st.wbuf.drop len, currFileOff := st.currFileOff + len, usingNewBlk := false }

/-- The result of `bfs_write`, a 64-bit difference: it wraps around if the hole was not even filled. -/
def writtenBytes (size left : ℕ) : UInt64 := UInt64.ofNat size - UInt64.ofNat left

/-- `BfsHandle::bfs_write`. A write behind the end of the file starts at the end, with zeros in front
of the bytes of the caller; the buffer for both must not be larger than a 64-bit number. -/
def bfsWrite (uid : UInt32) (fh : UInt64) (buf : List UInt8) (off : ℕ) : FsM UInt64 := do
  let r ← Prog.reads (accessOpen · uid fh "Error during bfs_write get inode id\n")
  let holeSize := off - r.size.toNat
  Prog.require (buf.length + holeSize < 2^64) .undefined
  let wbuf := List.replicate holeSize 0 ++ buf
  let start := off - holeSize
  let (st, full) ← writeLoop wbuf.length ⟨wbuf, start, start / blkSz, none, false, false, r⟩
  if full then pure (writtenBytes buf.length st.wbuf.length)
  else
    if st.usedNewBlocks ∨ r.size.toNat < st.currFileOff then
      writeInode { st.ino with size := UInt64.ofNat st.currFileOff }
    else pure ()
    pure (writtenBytes buf.length st.wbuf.length)

end Writing

end Bfs.Native
