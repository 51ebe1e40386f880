import Bfs.Native.Created

/-! `bfs_write` as an operation on the bytes of a file, up to the size limit. -/
namespace Bfs.Native
open ByteSeq Bfs.Fs

section Definitions

def storedAt (f : ℕ → UInt8) (size off : ℕ) (bs : List UInt8) (p : ℕ) : UInt8 :=
  if off ≤ p ∧ p < off + bs.length then bs.getD (p-off) 0 else if p < size then f p else 0

end Definitions

section Errors

end Errors

section Result

variable {s s' : FsState} {r : Inode} {uid : UInt32} {fh ino : UInt64} {buf : List UInt8} {off m : ℕ}

def holeBuf (r : Inode) (buf : List UInt8) (off : ℕ) : List UInt8 :=
  List.replicate (off - r.size.toNat) 0 ++ buf

lemma length_holeBuf (r : Inode) (buf : List UInt8) (off : ℕ) :
    (holeBuf r buf off).length = off - r.size.toNat + buf.length := by
  rw [holeBuf, List.length_append, List.length_replicate]

lemma getD_holeBuf {p : ℕ} (hp : min off r.size.toNat ≤ p) :
    (holeBuf r buf off).getD (p - min off r.size.toNat) 0 = if off ≤ p then buf.getD (p-off) 0 else 0 := by
  rw [holeBuf, List.getD_eq_getElem?_getD, List.getElem?_append, List.length_replicate]
  split_ifs with hhole hoff hoff
  · omega
  · rw [List.getElem?_replicate, if_pos hhole, Option.getD_some]
  · rw [List.getD_eq_getElem?_getD, show p - min off r.size.toNat - (off - r.size.toNat) = p - off by omega]
  · omega

/-- The end of `bfs_write` behind its loop. -/
def finishWrite (r : Inode) (size : ℕ) (p : WriteLoop × Bool) : FsM UInt64 :=
  if p.2 then pure (writtenBytes size p.1.wbuf.length)
  else do
    if p.1.usedNewBlocks ∨ r.size.toNat < p.1.currFileOff then
      writeInode { p.1.ino with size := UInt64.ofNat p.1.currFileOff }
    else pure ()
    pure (writtenBytes size p.1.wbuf.length)

lemma bfsWrite_of_access {msg : String} (hmsg : msg = "Error during bfs_write get inode id\n")
    (h : accessOpen s uid fh msg = .ok r) (hfit : buf.length + (off - r.size.toNat) < 2^64) :
    bfsWrite uid fh buf off s =
      (writeLoop (holeBuf r buf off).length ⟨holeBuf r buf off, min off r.size.toNat,
        min off r.size.toNat / blkSz, none, false, false, r⟩ >>= finishWrite r buf.length) s := by
  have hstart : off - (off - r.size.toNat) = min off r.size.toNat := by omega
  subst hmsg
  rw [bfsWrite, Prog.reads_bind_of_ok (f := fun s => accessOpen s uid fh _) h]
  dsimp only
  rw [Prog.require_bind_of hfit, hstart]
  rfl

lemma accessOpen_eq (uid : UInt32) (h : OpenFile s fh ino r) (msg : String) :
    accessOpen s uid fh msg =
      if r.denies uid then .error (.accessDenied "Permission denied\n") else .ok r := by
  have hopen : openIno s fh msg = .ok ino := by
    rw [openIno, h.handle]
    exact if_neg h.valid
  have hne : r.iNo ≠ 0 := by
    rw [h.number]
    rintro rfl
    exact h.valid (by decide)
  rw [accessOpen, hopen, Fallible.ok_bind, readInode_of_inode h.stored hne, Fallible.ok_bind]

variable {st : WriteLoop} {k : ℕ}

lemma min_add_length_holeBuf (r : Inode) (buf : List UInt8) (off : ℕ) :
    min off r.size.toNat + (holeBuf r buf off).length = off + buf.length := by
  rw [length_holeBuf]
  omega

lemma byteAt_eq_storedAt (hw : Written s r (min off r.size.toNat) (holeBuf r buf off) st s' k)
    (hend : st.currFileOff = off + buf.length) {p : ℕ} (hp : p < max r.size.toNat (off + buf.length)) :
    byteAt s' st.ino p = storedAt (byteAt s r) r.size.toNat off buf p := by
  rw [hw.bytes, hend, storedAt]
  by_cases hin : min off r.size.toNat ≤ p ∧ p < off + buf.length
  · rw [if_pos hin, getD_holeBuf hin.1]
    by_cases hoff : off ≤ p
    · rw [if_pos hoff, if_pos ⟨hoff, hin.2⟩]
    · rw [if_neg hoff, if_neg (fun h => hoff h.1), if_neg (by omega)]
  · rw [if_neg hin, if_neg (by omega), if_pos (by omega)]

lemma currFileOff_full (hlimit : r.size.toNat ≤ maxFileSize)
    (hw : Written s r (min off r.size.toNat) (holeBuf r buf off) st s' maxFileBlks)
    (hmore : st.wbuf ≠ []) : st.currFileOff = maxFileSize := by
  have hblk := hw.block hmore
  have hbound := hw.bound
  have hge : maxFileBlks*blkSz ≤ st.currFileOff := by
    rw [← hblk]
    exact Nat.div_mul_le_self _ _
  have hdef : maxFileSize = maxFileBlks*blkSz := rfl
  omega

lemma writeLoop_holeBuf (hok : FileOk s r m) (buf : List UInt8) (off : ℕ) :
    WriteEnd s r m (min off r.size.toNat) (holeBuf r buf off)
      (writeLoop (holeBuf r buf off).length ⟨holeBuf r buf off, min off r.size.toNat,
        min off r.size.toNat / blkSz, none, false, false, r⟩ s).1
      (writeLoop (holeBuf r buf off).length ⟨holeBuf r buf off, min off r.size.toNat,
        min off r.size.toNat / blkSz, none, false, false, r⟩ s).2 :=
  writeLoop_end hok (.init hok ((min_le_right _ _).trans hok.limit)) le_rfl

section Runs

def firstFile : FsState := (bfsCreate 0 [47, 97] 0o666 (formatted (fun _ => zeroBlk) 8192)).2

lemma firstFile_newFile : ∃ ino r, NewFile firstFile 3 ino 0 0o666 r := by
  have hrun : (bfsCreate 0 [47, 97] 0o666 (formatted (fun _ => zeroBlk) 8192)).1 = .ok 3 := by
    decide +kernel
  have hstate : bfsCreate 0 [47, 97] 0o666 (formatted (fun _ => zeroBlk) 8192) = (.ok 3, firstFile) := by
    rw [firstFile, ← hrun]
  apply bfsCreate_newFile (formatted_fillable _ (by decide)) hstate _ List.lookup_nil
  intro ino hino
  have height : (allocIno (formatted (fun _ => zeroBlk) 8192)).1 = .ok 8 := by decide +kernel
  rw [height] at hino
  cases hino
  decide

lemma firstFile_fileOk : ∃ ino r, OpenFile firstFile 3 ino r ∧ FileOk firstFile r (maxFileBlks + 1) ∧
    ¬r.denies 0 ∧ r.size = 0 := by
  obtain ⟨ino, r, hnew⟩ := firstFile_newFile
  have hnext : firstFile.sb.nextVbid.toNat = 6839 := by decide +kernel
  have hblks : firstFile.numBlks = 8192 := by decide +kernel
  refine ⟨ino, r, hnew.opened, hnew.fileOk _ ?_, ?_, ?_⟩
  · rw [hnext, hblks, maxFileBlks_eq]
    decide
  · have huid : r.uid = 0 := by
      rw [hnew.fields]
      rfl
    have hmode : r.mode = ifreg ||| 0o666 := by
      rw [hnew.fields]
      rfl
    rw [Inode.denies, huid, hmode]
    decide
  · rw [hnew.fields]
    rfl

end Runs

end Result

end Bfs.Native
