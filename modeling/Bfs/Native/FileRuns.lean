import Bfs.Native.FileLimit

/-! Open files as byte arrays: what `bfs_read` returns after any sequence of reads and writes through
any handles, for files that have all their blocks, as `bfs_create` makes them. -/
namespace Bfs.Native
open ByteSeq Bfs.Fs

section Reading

variable {s : FsState} {r : Inode} {st : ReadLoop} {k m : ℕ} {content : List UInt8}

/-- The loop of a read is in front of block `k` of the file. -/
def ReadLoop.At (st : ReadLoop) (s : FsState) (r : Inode) (k : ℕ) : Prop :=
  match st.ib with
  | none => st.currBlkIdx = k
  | some (ib, idx) =>
    numDirectBlocks ≤ st.currBlkIdx ∧ idx + numDirectBlocks = k ∧ ib = indirectOf s r

lemma FileOk.block_lt (hok : FileOk s r m) {p : ℕ} (hp : p < r.size.toNat) :
    p / blkSz < m ∧ p / blkSz < maxFileBlks := by
  have hsize := hok.size
  have hlimit := hok.limit
  rw [maxFileSize] at hlimit
  rw [Nat.div_lt_iff_lt_mul (by decide), Nat.div_lt_iff_lt_mul (by decide)]
  omega

lemma getElem?_indirectOf {idx : ℕ} (hidx : idx + numDirectBlocks = k) (hm : Mapped s r k) :
    (indirectOf s r).toList[idx]? = some (fileBlk s r k) := by
  have hlt : idx < numBlksPerIb := by
    have := hm.lt
    rw [maxFileBlks] at this
    omega
  rw [fileBlk_get hidx hlt]
  exact (indirectOf s r).getElem?_toList ⟨idx, hlt⟩

lemma nextReadBlk_ok (hok : FileOk s r m) (hat : st.At s r k) (hoff : st.currFileOff / blkSz = k)
    (hk : k < m) (hlt : k < maxFileBlks) :
    ∃ idx ib, nextReadBlk s r st =
        .ok (some (fileBlk s r k, { st with currBlkIdx := idx, ib := ib })) ∧
      ReadLoop.At { st with currBlkIdx := idx, ib := ib } s r (k+1) := by
  obtain ⟨hm, hready⟩ := hok.ready k hk
  have hmapped : s.dataStart ≤ (fileBlk s r k).toNat := hm hlt
  have hused := Nat.not_lt.mpr hmapped
  rw [nextReadBlk]
  cases hib : st.ib with
  | none =>
    rw [ReadLoop.At, hib] at hat
    dsimp only at hat
    by_cases hd : st.currBlkIdx < numDirectBlocks
    · have hblk : r.iBlks.get ⟨st.currBlkIdx, Nat.lt_succ_of_lt hd⟩ = fileBlk s r k := by
        subst hat
        exact (fileBlk_direct hd).symm
      refine ⟨st.currBlkIdx + 1, none, ?_, congrArg Nat.succ hat⟩
      rw [dif_pos hd, hblk, if_neg hused]
    · obtain ⟨hin, c, hc⟩ := hready (by omega)
      have hfar : ¬st.currFileOff < blkSz*numDirectBlocks := by
        have hle := Nat.div_mul_le_self st.currFileOff blkSz
        have hmul : numDirectBlocks*blkSz ≤ st.currFileOff / blkSz * blkSz :=
          Nat.mul_le_mul_right _ (by omega)
        rw [Nat.mul_comm]
        omega
      have hload : IndirectBlock.deserialize c = indirectOf s r := by
        rw [indirectOf, dataAt_of_readBlk hin hc]
      refine ⟨st.currBlkIdx, some (indirectOf s r, st.currBlkIdx - numDirectBlocks + 1), ?_,
        Nat.not_lt.mp hd, by omega, rfl⟩
      rw [dif_neg hd]
      dsimp only
      rw [if_neg hfar, hc, Fallible.ok_bind, Fallible.ok_bind, hload]
      dsimp only
      rw [getElem?_indirectOf (by omega) hmapped]
      dsimp only
      rw [if_neg hused]
  | some p =>
    obtain ⟨ib, idx⟩ := p
    rw [ReadLoop.At, hib] at hat
    obtain ⟨hd, hidx, rfl⟩ := hat
    refine ⟨st.currBlkIdx, some (indirectOf s r, idx+1), ?_, hd, by omega, rfl⟩
    rw [dif_neg (Nat.not_lt.mpr hd)]
    dsimp only
    rw [Fallible.ok_bind]
    dsimp only
    rw [getElem?_indirectOf hidx hmapped]
    dsimp only
    rw [if_neg hused]

/-- The file of an inode has these bytes. -/
structure HasBytes (s : FsState) (r : Inode) (content : List UInt8) : Prop where
  length : r.size.toNat = content.length
  bytes : ∀ p < content.length, byteAt s r p = content.getD p 0

lemma HasBytes.slice_block (h : HasBytes s r content) {c : Block} {off len : ℕ}
    (hc : blkData s r (off / blkSz) = c) (hpos : off % blkSz + len ≤ blkSz)
    (hlen : off + len ≤ content.length) :
    slice c.toList (off % blkSz) len = slice content off len := by
  apply List.ext_getElem?
  intro i
  rw [getElem?_slice, getElem?_slice]
  split_ifs with hi
  · have hbyte := h.bytes (off+i) (by omega)
    obtain ⟨hdiv, hmod⟩ : (off+i) / blkSz = off / blkSz ∧ (off+i) % blkSz = off % blkSz + i := by
      have hb : blkSz = 4096 := rfl
      rw [hb] at hpos ⊢
      omega
    have hsize := c.length_toList
    rw [byteAt, hdiv, hc, hmod, List.getD_eq_getElem _ _ (by omega),
      List.getD_eq_getElem _ _ (by omega)] at hbyte
    rw [List.getElem?_eq_getElem (by omega), List.getElem?_eq_getElem (by omega), hbyte]
  · rfl

lemma readLoop_ok (hok : FileOk s r m) (hbytes : HasBytes s r content) (st : ReadLoop) {fuel : ℕ}
    (hfuel : st.numReadBytes ≤ fuel) (hat : st.At s r k)
    (hblk : st.numReadBytes ≠ 0 → st.currFileOff < r.size.toNat → st.currFileOff / blkSz = k)
    (hoff : st.currFileOff ≤ r.size.toNat) :
    ∃ st', readLoop s r fuel st = .ok st' ∧ st'.currFileOff ≤ r.size.toNat ∧
      st'.buf = st.buf ++ slice content st.currFileOff st.numReadBytes := by
  have hlength := hbytes.length
  induction fuel generalizing st k with
  | zero =>
    refine ⟨st, rfl, hoff, ?_⟩
    rw [Nat.le_zero.mp hfuel, slice, List.take_zero, List.append_nil]
  | succ fuel ih =>
    rw [readLoop]
    by_cases hend : st.numReadBytes = 0 ∨ r.size.toNat ≤ st.currFileOff
    · refine ⟨st, if_pos hend, hoff, ?_⟩
      rw [List.eq_nil_of_length_eq_zero (l := slice ..) (by rw [length_slice]; omega), List.append_nil]
    · obtain ⟨hmore, hin⟩ := not_or.mp hend
      rw [Nat.not_le] at hin
      have hk := hblk hmore hin
      obtain ⟨hkm, hlt⟩ := hok.block_lt hin
      rw [hk] at hkm hlt
      obtain ⟨idx, ib, hnext, hat'⟩ := nextReadBlk_ok hok hat hk hkm hlt
      obtain ⟨c, hc⟩ := hok.readable k hkm hlt
      have hdata : blkData s r (st.currFileOff / blkSz) = c := by
        rw [hk, blkData, dataAt_of_readBlk ((hok.ready k hkm).1 hlt) hc]
      rw [if_neg hend, hnext, Fallible.ok_bind]
      dsimp only
      rw [hc, Fallible.ok_bind]
      have hpos : st.currFileOff % blkSz < blkSz := Nat.mod_lt _ (by decide)
      have hdiv := Nat.div_add_mod st.currFileOff blkSz
      generalize hlen : min (min st.numReadBytes (blkSz - st.currFileOff % blkSz))
        (r.size.toNat - st.currFileOff) = len
      -- a read that goes on has read up to the end of the block
      have hgo : st.numReadBytes - len ≠ 0 → st.currFileOff + len < r.size.toNat →
          (st.currFileOff + len) / blkSz = k+1 := by
        intro hleft hbefore
        have hsum : st.currFileOff + len = blkSz*(k+1) := by
          rw [hk] at hdiv
          rw [Nat.mul_succ]
          omega
        rw [hsum, Nat.mul_div_cancel_left _ (by decide)]
      obtain ⟨st', hrun, hle, hbuf⟩ := ih ⟨st.numReadBytes - len, st.currFileOff + len, idx, ib,
        st.buf ++ slice c.toList (st.currFileOff % blkSz) len⟩ (by dsimp only; omega) hat' hgo
        (by dsimp only; omega)
      refine ⟨st', hrun, hle, ?_⟩
      rw [hbuf]
      dsimp only
      rw [hbytes.slice_block hdata (by omega) (by omega), List.append_assoc, ← slice_add,
        Nat.add_sub_cancel' (by omega)]

lemma bfsRead_of_access {uid : UInt32} {fh : UInt64} (hok : FileOk s r m)
    (hbytes : HasBytes s r content)
    (hacc : accessOpen s uid fh "Error during bfs_read get inode id\n" = .ok r) (size off : ℕ) :
    bfsRead s uid fh size off = .ok (slice content off size) := by
  rw [bfsRead, hacc, Fallible.ok_bind]
  by_cases hbehind : r.size.toNat < off
  · have hnil : slice content off size = [] := by
      apply List.eq_nil_of_length_eq_zero
      rw [length_slice, ← hbytes.length]
      omega
    rw [if_pos hbehind, hnil]
  · obtain ⟨st', hrun, hle, hbuf⟩ := readLoop_ok hok hbytes
      ⟨size, off, off / blkSz, none, []⟩ le_rfl rfl (fun _ _ => rfl) (Nat.not_lt.mp hbehind)
    rw [if_neg hbehind, hrun, Fallible.ok_bind, if_neg (Nat.not_lt.mpr hle), hbuf, List.nil_append]

end Reading

section Writing

variable {s s' : FsState} {fh ino : UInt64} {r : Inode} {m : ℕ}

/-- Blocks outside of a file may change, and more blocks may be given out. -/
structure Apart (s : FsState) (r : Inode) (s' : FsState) : Prop where
  numBlks : s'.numBlks = s.numBlks
  next : s.sb.nextVbid.toNat ≤ s'.sb.nextVbid.toNat
  disk : ∀ b, Owned s r b → s'.disk b = s.disk b

namespace Apart

lemma dataStart (h : Apart s r s') : s'.dataStart = s.dataStart := by
  rw [FsState.dataStart, h.numBlks, FsState.dataStart]

lemma dataAt_eq (h : Apart s r s') {v : UInt64} (hv : s.dataStart ≤ v.toNat → Owned s r v.toNat) :
    s'.dataAt v = s.dataAt v := by
  rw [FsState.dataAt, FsState.dataAt, h.dataStart]
  split_ifs with hused
  · rw [h.disk _ (hv hused)]
  · rfl

lemma fileBlk_eq (h : Apart s r s') (k : ℕ) : fileBlk s' r k = fileBlk s r k := by
  rw [fileBlk, fileBlk, indirectOf, indirectOf,
    h.dataAt_eq (fun hused => Or.inr ⟨hused, rfl⟩)]

lemma mapped_iff (h : Apart s r s') (k : ℕ) : Mapped s' r k ↔ Mapped s r k := by
  rw [Mapped, h.fileBlk_eq, h.dataStart, Mapped]

lemma byteAt_eq (h : Apart s r s') (p : ℕ) : byteAt s' r p = byteAt s r p := by
  rw [byteAt, byteAt, blkData, blkData, h.fileBlk_eq,
    h.dataAt_eq (fun hused => Or.inl ⟨_, hused, rfl⟩)]

lemma owned_iff (h : Apart s r s') (b : ℕ) : Owned s' r b ↔ Owned s r b := by
  simp only [Owned, h.fileBlk_eq, h.mapped_iff, h.dataStart]

lemma readBlk_eq (h : Apart s r s') {b : ℕ} (hb : Owned s r b) : readBlk s' b = readBlk s b := by
  rw [readBlk, readBlk, FsState.cfg, FsState.cfg, h.numBlks, h.disk b hb]

lemma fileOk (h : Apart s r s') (hok : FileOk s r m) : FileOk s' r m where
  placed := {
    injective := by
      simp only [h.fileBlk_eq, h.mapped_iff]
      exact hok.placed.injective
    given := by
      intro k hk
      rw [h.fileBlk_eq]
      exact (hok.placed.given k ((h.mapped_iff k).mp hk)).trans_le h.next
    indirect := by
      rw [h.dataStart]
      exact fun hused => (hok.placed.indirect hused).trans_le h.next
    apart := by
      simp only [h.fileBlk_eq, h.mapped_iff]
      exact hok.placed.apart
    next := by
      rw [h.dataStart]
      exact hok.placed.next.trans h.next }
  device := by
    rw [h.numBlks]
    exact hok.device
  limit := hok.limit
  size := hok.size
  ready := by
    intro k hk
    obtain ⟨hm, hready⟩ := hok.ready k hk
    rw [Ready, h.mapped_iff, h.dataStart]
    refine ⟨hm, fun hge => ⟨(hready hge).1, ?_⟩⟩
    rw [h.readBlk_eq (Or.inr ⟨(hready hge).1, rfl⟩)]
    exact (hready hge).2
  readable := by
    intro k hk hlt
    rw [h.fileBlk_eq, h.readBlk_eq (Or.inl ⟨k, (hok.ready k hk).1 hlt, rfl⟩)]
    exact hok.readable k hk hlt

end Apart

section Loop

variable {start k : ℕ} {w₀ : List UInt8} {st : WriteLoop}

/-- The loop finds every block of a file that has all its blocks. -/
lemma Written.ino_eq (hw : Written s r start w₀ st s' k) (hok : FileOk s r (maxFileBlks + 1)) :
    st.ino = r := by
  have hblks : st.ino.iBlks = r.iBlks := by
    apply Buf.ext_get
    intro i
    by_cases hd : i.val < numDirectBlocks
    · have hlt : i.val < maxFileBlks := hd.trans_le (Nat.le_add_right ..)
      have hsame := hw.old i ((hok.ready i (hlt.trans (Nat.lt_succ_self _))).1 hlt)
      rwa [fileBlk_direct hd, fileBlk_direct hd] at hsame
    · obtain rfl : i = indirectIdx := Fin.ext (Nat.le_antisymm (Nat.le_of_lt_succ i.isLt) (Nat.not_lt.mp hd))
      exact hw.indirect ((hok.ready numDirectBlocks (by decide)).2 le_rfl).1
  rw [hw.fields, hblks]

lemma Written.fileOk (hw : Written s r start w₀ st s' k) (hok : FileOk s r (maxFileBlks + 1)) :
    FileOk s' r (maxFileBlks + 1) := by
  have hino := hw.ino_eq hok
  have hplaced := hw.placed
  have hready := fun j => hw.ready hok (j := j)
  have hreadable := fun j => hw.readable hok (j := j)
  rw [hino] at hplaced hready hreadable
  refine ⟨hplaced, ?_, hok.limit, hok.size, hready, hreadable⟩
  rw [hw.numBlks]
  exact hok.device

lemma Written.owned_of_owned (hw : Written s r start w₀ st s' k) (hok : FileOk s r (maxFileBlks + 1))
    {b : ℕ} (hb : Owned s' r b) : Owned s r b := by
  rcases hb with ⟨j, hj, rfl⟩ | ⟨hused, rfl⟩
  · have hmapped := (hok.ready j (hj.lt.trans (Nat.lt_succ_self _))).1 hj.lt
    have hsame := hw.old j hmapped
    rw [hw.ino_eq hok] at hsame
    exact Or.inl ⟨j, hmapped, by rw [hsame]⟩
  · rw [hw.dataStart] at hused
    exact Or.inr ⟨hused, rfl⟩

end Loop

/-- A file was rewritten in its blocks, and no other block of a file has changed. -/
structure Rewritten (s : FsState) (ino : UInt64) (r r' : Inode) (s' : FsState) : Prop where
  openFileTab : s'.openFileTab = s.openFileTab
  inode : s'.inode = Function.update s.inode ino (some r')
  fields : r' = { r with size := r'.size }
  fileOk : FileOk s' r' (maxFileBlks + 1)
  numBlks : s'.numBlks = s.numBlks
  next : s.sb.nextVbid.toNat ≤ s'.sb.nextVbid.toNat
  owned : ∀ b, Owned s' r' b → Owned s r b
  disk : ∀ b < s.sb.nextVbid.toNat, s.dataStart ≤ b → ¬Owned s r b → s'.disk b = s.disk b

variable {content : List UInt8}

lemma storedAt_eq {off : ℕ} {buf : List UInt8} (hbytes : HasBytes s r content) {p : ℕ}
    (hp : p < max content.length (off + buf.length)) :
    storedAt (byteAt s r) r.size.toNat off buf p = (splice (padTo 0 off content) off buf).getD p 0 := by
  rw [storedAt, List.getD_eq_getElem?_getD, List.getD_eq_getElem?_getD,
    getElem?_splice _ _ _ (by simp), getElem?_padTo, hbytes.length]
  split_ifs with hin hlt hgap hgap
  · rfl
  · omega
  · rw [hbytes.bytes p hlt, List.getD_eq_getElem?_getD]
  · rfl
  · omega

lemma FileOk.withSize (h : FileOk s r m) {n : UInt64} (hlimit : n.toNat ≤ maxFileSize)
    (hsize : n.toNat ≤ m*blkSz) : FileOk s { r with size := n } m :=
  ⟨⟨h.placed.injective, h.placed.given, h.placed.indirect, h.placed.apart, h.placed.next⟩, h.device,
    hlimit, hsize, h.ready, h.readable⟩

lemma Owned.dataStart_le {b : ℕ} (h : Owned s r b) : s.dataStart ≤ b := by
  rcases h with ⟨k, hk, rfl⟩ | ⟨hused, rfl⟩
  · exact hk
  · exact hused

lemma Owned.lt_next {b : ℕ} (h : Owned s r b) (hp : Placed s r) : b < s.sb.nextVbid.toNat := by
  rcases h with ⟨k, hk, rfl⟩ | ⟨hused, rfl⟩
  · exact hp.given k hk
  · exact hp.indirect hused

/-- The size is recorded in the inode table, if it has changed. -/
lemma finishWrite_inode (buf : List UInt8) {st : WriteLoop} (hstored : s.inode ino = some r)
    (hnumber : r.iNo = ino) (hino : st.ino = r) (hall : st.wbuf = [])
    (hgrown : st.usedNewBlocks = true → r.size.toNat < st.currFileOff)
    (hlt : st.currFileOff < 2^64) :
    ∃ s' r', finishWrite r buf.length (st, false) s = (.ok (UInt64.ofNat buf.length), s') ∧
      r'.size.toNat = max r.size.toNat st.currFileOff ∧ r' = { r with size := r'.size } ∧
      s' = { s with disk := s'.disk } ∧ s'.inode = Function.update s.inode ino (some r') ∧
      ∀ b, s.dataStart ≤ b → s'.disk b = s.disk b := by
  have hwritten : writtenBytes buf.length st.wbuf.length = UInt64.ofNat buf.length := by
    rw [hall, List.length_nil, writtenBytes]
    exact sub_zero _
  rw [finishWrite, if_neg (by simp), hwritten, hino]
  by_cases hgrow : r.size.toNat < st.currFileOff
  · obtain ⟨hilt, c, hc, -⟩ := inode_eq_some.mp hstored
    have hge := dataStart_ge s
    have hloc : itabBlkLoc ino < s.dataStart := by
      rw [numInodes_eq] at hilt
      rw [itabBlkLoc_eq]
      omega
    let r' : Inode := { r with size := UInt64.ofNat st.currFileOff }
    have hwrite : writeInode r' s =
        (.ok (), s.setBlk (itabBlkLoc ino) (r'.serialize c (itabBlkOff ino))) := by
      rw [writeInode, show r'.iNo = ino from hnumber, writeInodeAt,
        Prog.reads_bind_of_ok (f := fun s => readBlk s (itabBlkLoc ino)) hc]
      exact writeBlk_of_usable (readBlk_eq_ok.mp hc).1
    refine ⟨s.setBlk (itabBlkLoc ino) (r'.serialize c (itabBlkOff ino)), r', ?_, ?_, rfl, rfl, ?_, ?_⟩
    · rw [if_pos (Or.inr hgrow), Prog.bind_of_ok hwrite]
      rfl
    · show (UInt64.ofNat st.currFileOff).toNat = _
      rw [UInt64.toNat_ofNat', Nat.mod_eq_of_lt hlt]
      omega
    · exact congrArg View.inode (view_setBlk_itab hilt hc _)
    · intro b hb
      exact Function.update_of_ne (by omega) ..
  · refine ⟨s, r, ?_, by omega, rfl, rfl, ?_, fun _ _ => rfl⟩
    · rw [if_neg (fun h => hgrow (h.elim hgrown id))]
      rfl
    · rw [← hstored, Function.update_eq_self]

lemma bfsWrite_rewritten {uid : UInt32} {buf : List UInt8} {off : ℕ} (hopen : OpenFile s fh ino r)
    (hok : FileOk s r (maxFileBlks + 1)) (hbytes : HasBytes s r content) (haccess : ¬r.denies uid)
    (hfits : off + buf.length ≤ maxFileSize) :
    ∃ s' r', bfsWrite uid fh buf off s = (.ok (UInt64.ofNat buf.length), s') ∧
      Rewritten s ino r r' s' ∧ HasBytes s' r' (splice (padTo 0 off content) off buf) := by
  have hmax : maxFileSize < 2^64 := by decide
  have hsum := min_add_length_holeBuf r buf off
  have hacc := accessOpen_eq uid hopen "Error during bfs_write get inode id\n"
  rw [if_neg haccess] at hacc
  have hend := writeLoop_holeBuf hok buf off
  rw [bfsWrite_of_access rfl hacc (by omega)]
  rcases hloop : writeLoop (holeBuf r buf off).length ⟨holeBuf r buf off, min off r.size.toNat,
    min off r.size.toNat / blkSz, none, false, false, r⟩ s with ⟨x, t⟩
  rw [hloop] at hend
  cases hend with
  | failed hw hmore ht hm => exact absurd (hm.trans hw.limit) (Nat.not_succ_le_self _)
  | full hw hmore ht =>
    have hcurr := currFileOff_full hok.limit hw hmore
    have hhigh := hw.high
    have hpos := List.length_pos_of_ne_nil hmore
    omega
  | @done st _ k hw hall =>
    have hcurr : st.currFileOff = off + buf.length := by
      have hhigh := hw.high
      rw [hall, List.length_nil] at hhigh
      omega
    have hino := hw.ino_eq hok
    have hstored : t.inode ino = some r := by
      rw [hw.inode]
      exact hopen.stored
    obtain ⟨s', r', hfinish, hsize, hfields, hrest, hinode, hdisk⟩ := finishWrite_inode buf
      hstored hopen.number hino hall hw.grown (by omega)
    rw [hcurr] at hsize
    have hlimit := hok.limit
    have hsame : FileOk t r' (maxFileBlks + 1) := by
      rw [hfields]
      apply (hw.fileOk hok).withSize
      · omega
      · have hmore : maxFileSize ≤ (maxFileBlks + 1)*blkSz := Nat.mul_le_mul_right _ (Nat.le_succ _)
        omega
    have hfile : ∀ b, Owned t r' b ↔ Owned t r b := by
      rw [hfields]
      exact fun _ => Iff.rfl
    have happart : Apart t r' s' := by
      rw [hrest]
      exact ⟨rfl, le_rfl, fun b hb => hdisk b hb.dataStart_le⟩
    rw [Prog.bind_of_ok hloop]
    refine ⟨s', r', hfinish, ⟨?_, ?_, hfields, happart.fileOk hsame, ?_, ?_, ?_, ?_⟩, ?_, ?_⟩
    · rw [hrest]
      exact hw.openFileTab
    · rw [hinode, hw.inode]
    · rw [happart.numBlks, hw.numBlks]
    · exact hw.next.trans happart.next
    · intro b hb
      exact hw.owned_of_owned hok ((hfile b).mp ((happart.owned_iff b).mp hb))
    · intro b hlt hge hnot
      rw [hdisk b (by rw [hw.dataStart]; exact hge), hw.disk b hlt hnot]
    · rw [hsize, length_splice _ _ _ (by simp), length_padTo, hbytes.length]
      omega
    · intro p hp
      rw [length_splice _ _ _ (by simp), length_padTo] at hp
      have hlt : p < max r.size.toNat (off + buf.length) := by
        rw [hbytes.length]
        omega
      have hbyte : byteAt t r' p = byteAt t st.ino p := by
        rw [hfields, hino]
        rfl
      rw [happart.byteAt_eq, hbyte, byteAt_eq_storedAt hw hcurr hlt, storedAt_eq hbytes (by omega)]

end Writing

section Runs

/-- A file as the users of its handles see it: whom it refuses, and its bytes. -/
structure ByteFile where
  denied : UInt32 → Bool
  bytes : List UInt8

inductive FileIo where
  | read (size off : ℕ)
  | write (buf : List UInt8) (off : ℕ)
  deriving DecidableEq

inductive IoResult where
  | bytes (bs : List UInt8)
  | written (n : UInt64)
  deriving DecidableEq

structure FileCall where
  uid : UInt32
  fh : UInt64
  io : FileIo
  deriving DecidableEq

def FileCall.run (c : FileCall) : FsM IoResult :=
  match c.io with
  | .read size off => do
    let bs ← Prog.reads (bfsRead · c.uid c.fh size off)
    pure (.bytes bs)
  | .write buf off => do
    let n ← bfsWrite c.uid c.fh buf off
    pure (.written n)

/-- The results of calls one after the other, refused ones among them, and the state behind them. -/
def runFileCalls : List FileCall → FsState → List (Except FsErr IoResult) × FsState
  | [], s => ([], s)
  | c :: cs, s =>
    let rest := runFileCalls cs (c.run s).2
    ((c.run s).1 :: rest.1, rest.2)

/-- A read returns a range of the bytes. A write copies its buffer over a range, with zeros between the
old end of the file and the offset. -/
def ByteFile.apply (f : ByteFile) : FileIo → IoResult × ByteFile
  | .read size off => (.bytes (slice f.bytes off size), f)
  | .write buf off =>
    (.written (UInt64.ofNat buf.length), { f with bytes := splice (padTo 0 off f.bytes) off buf })

/-- The same call on byte arrays; `inoOf` says which file a handle is open for. -/
def FileCall.spec (inoOf : UInt64 → UInt64) (c : FileCall) (files : UInt64 → ByteFile) :
    Except FsErr IoResult × (UInt64 → ByteFile) :=
  if (files (inoOf c.fh)).denied c.uid then (.error (.accessDenied "Permission denied\n"), files)
  else
    let res := (files (inoOf c.fh)).apply c.io
    (.ok res.1, Function.update files (inoOf c.fh) res.2)

def specFileCalls (inoOf : UInt64 → UInt64) :
    List FileCall → (UInt64 → ByteFile) → List (Except FsErr IoResult) × (UInt64 → ByteFile)
  | [], files => ([], files)
  | c :: cs, files =>
    let rest := specFileCalls inoOf cs (c.spec inoOf files).2
    ((c.spec inoOf files).1 :: rest.1, rest.2)

/-- The volume holds the files of some open handles; each file has all its blocks and shares none. -/
structure HoldsFiles (s : FsState) (H : Set UInt64) (inoOf : UInt64 → UInt64)
    (files : UInt64 → ByteFile) : Prop where
  file : ∀ fh ∈ H, ∃ r, OpenFile s fh (inoOf fh) r ∧ FileOk s r (maxFileBlks + 1) ∧
    r.denies = (files (inoOf fh)).denied ∧ HasBytes s r (files (inoOf fh)).bytes
  apart : ∀ fh ∈ H, ∀ fh' ∈ H, inoOf fh ≠ inoOf fh' → ∀ r r', s.inode (inoOf fh) = some r →
    s.inode (inoOf fh') = some r' → ∀ b, Owned s r b → ¬Owned s r' b

/-- A call through one of the handles that stays below the size limit. -/
def FileCall.Within (H : Set UInt64) (c : FileCall) : Prop :=
  c.fh ∈ H ∧ match c.io with
    | .read _ _ => True
    | .write buf off => off + buf.length ≤ maxFileSize

variable {s s' : FsState} {H : Set UInt64} {inoOf : UInt64 → UInt64} {files : UInt64 → ByteFile}

lemma HoldsFiles.rewrite (h : HoldsFiles s H inoOf files) {fh : UInt64} (hfh : fh ∈ H) {r r' : Inode}
    (hopen : OpenFile s fh (inoOf fh) r) (hrw : Rewritten s (inoOf fh) r r' s') {f : ByteFile}
    (hdenied : r.denies = f.denied) (hbytes : HasBytes s' r' f.bytes) :
    HoldsFiles s' H inoOf (Function.update files (inoOf fh) f) := by
  -- the blocks of the other files were not written
  have hother : ∀ fh' ∈ H, inoOf fh' ≠ inoOf fh → ∀ r₂, s.inode (inoOf fh') = some r₂ →
      Apart s r₂ s' := by
    intro fh' hfh' hne r₂ hr₂
    obtain ⟨r₃, hopen₃, hok₃, -⟩ := h.file fh' hfh'
    obtain rfl : r₃ = r₂ := Option.some.inj (hopen₃.stored.symm.trans hr₂)
    exact ⟨hrw.numBlks, hrw.next, fun b hb => hrw.disk b (hb.lt_next hok₃.placed) hb.dataStart_le
      (h.apart fh' hfh' fh hfh hne r₃ r hr₂ hopen.stored b hb)⟩
  have hold : ∀ fh' ∈ H, ∀ r₂, s'.inode (inoOf fh') = some r₂ →
      ∃ r₁, s.inode (inoOf fh') = some r₁ ∧ ∀ b, Owned s' r₂ b → Owned s r₁ b := by
    intro fh' hfh' r₂ hr₂
    rw [hrw.inode, Function.update_apply] at hr₂
    split_ifs at hr₂ with heq
    · cases hr₂
      rw [heq]
      exact ⟨r, hopen.stored, hrw.owned⟩
    · exact ⟨r₂, hr₂, fun b => ((hother fh' hfh' heq r₂ hr₂).owned_iff b).mp⟩
  constructor
  · intro fh' hfh'
    obtain ⟨r₂, hopen₂, hok₂, hdenied₂, hbytes₂⟩ := h.file fh' hfh'
    have hhandle : s'.openFileTab.lookup fh' = some (inoOf fh') := by
      rw [hrw.openFileTab]
      exact hopen₂.handle
    by_cases heq : inoOf fh' = inoOf fh
    · rw [heq] at hhandle ⊢
      rw [Function.update_self]
      refine ⟨r', ⟨hhandle, hopen.valid, ?_, ?_⟩, hrw.fileOk, ?_, hbytes⟩
      · rw [hrw.inode, Function.update_self]
      · rw [hrw.fields]
        exact hopen.number
      · rw [← hdenied, hrw.fields]
        rfl
    · have happart := hother fh' hfh' heq r₂ hopen₂.stored
      rw [Function.update_of_ne heq]
      refine ⟨r₂, ⟨hhandle, hopen₂.valid, ?_, hopen₂.number⟩, happart.fileOk hok₂, hdenied₂,
        hbytes₂.length, fun p hp => ?_⟩
      · rw [hrw.inode, Function.update_of_ne heq]
        exact hopen₂.stored
      · rw [happart.byteAt_eq]
        exact hbytes₂.bytes p hp
  · intro fh₁ h₁ fh₂ h₂ hne r₁ r₂ hr₁ hr₂ b hb₁ hb₂
    obtain ⟨r₃, hr₃, hb₃⟩ := hold fh₁ h₁ r₁ hr₁
    obtain ⟨r₄, hr₄, hb₄⟩ := hold fh₂ h₂ r₂ hr₂
    exact h.apart fh₁ h₁ fh₂ h₂ hne r₃ r₄ hr₃ hr₄ b (hb₃ b hb₁) (hb₄ b hb₂)

/-- One call does what it does on byte arrays. -/
lemma FileCall.run_spec (h : HoldsFiles s H inoOf files) {c : FileCall} (hc : c.Within H) :
    (c.run s).1 = (c.spec inoOf files).1 ∧ HoldsFiles (c.run s).2 H inoOf (c.spec inoOf files).2 := by
  obtain ⟨uid, fh, io⟩ := c
  obtain ⟨hfh, hlimit⟩ := hc
  obtain ⟨r, hopen, hok, hdenied, hbytes⟩ := h.file fh hfh
  have hacc := accessOpen_eq uid hopen
  rw [FileCall.spec, ← hdenied]
  by_cases haccess : r.denies uid
  · rw [if_pos haccess]
    simp only [haccess, if_true] at hacc
    cases io with
    | read size off =>
      have hrun : bfsRead s uid fh size off = .error (.accessDenied "Permission denied\n") := by
        rw [bfsRead, hacc, Fallible.error_bind]
      rw [FileCall.run]
      dsimp only
      rw [Prog.reads_bind_of_error (f := fun s => bfsRead s uid fh size off) hrun]
      exact ⟨rfl, h⟩
    | write buf off =>
      have hrun : bfsWrite uid fh buf off s = (.error (.accessDenied "Permission denied\n"), s) := by
        rw [bfsWrite, Prog.reads_bind_of_error (f := fun s => accessOpen s uid fh _) (hacc _)]
      rw [FileCall.run]
      dsimp only
      rw [Prog.bind_of_error hrun]
      exact ⟨rfl, h⟩
  · rw [if_neg haccess]
    simp only [haccess] at hacc
    cases io with
    | read size off =>
      have hrun := bfsRead_of_access hok hbytes (hacc _) size off
      rw [FileCall.run]
      dsimp only
      rw [Prog.reads_bind_of_ok (f := fun s => bfsRead s uid fh size off) hrun]
      dsimp only [ByteFile.apply]
      rw [Function.update_eq_self]
      exact ⟨rfl, h⟩
    | write buf off =>
      obtain ⟨s', r', hrun, hrw, hnew⟩ := bfsWrite_rewritten hopen hok hbytes haccess hlimit
      rw [FileCall.run]
      dsimp only
      rw [Prog.bind_of_ok hrun]
      exact ⟨rfl, h.rewrite hfh hopen hrw hdenied hnew⟩

/-- Reads and writes through open handles refine byte arrays: whatever the order of the calls, the
users and the handles, every call returns what it returns on the arrays, and no file is changed by a
write to another one. -/
theorem file_calls_refine (h : HoldsFiles s H inoOf files) (calls : List FileCall)
    (hcalls : ∀ c ∈ calls, c.Within H) :
    (runFileCalls calls s).1 = (specFileCalls inoOf calls files).1 ∧
      HoldsFiles (runFileCalls calls s).2 H inoOf (specFileCalls inoOf calls files).2 := by
  induction calls generalizing s files with
  | nil => exact ⟨rfl, h⟩
  | cons c cs ih =>
    obtain ⟨hres, hnext⟩ := FileCall.run_spec h (hcalls c (List.mem_cons_self ..))
    obtain ⟨hrest, hlast⟩ := ih hnext fun c' hc' => hcalls c' (List.mem_cons_of_mem _ hc')
    refine ⟨?_, hlast⟩
    rw [runFileCalls, specFileCalls]
    dsimp only
    rw [hres, hrest]

/-- An empty file with all its blocks, behind one handle. -/
lemma OpenFile.held {fh ino : UInt64} {r : Inode} (hopen : OpenFile s fh ino r)
    (hok : FileOk s r (maxFileBlks + 1)) (hsize : r.size = 0) :
    HoldsFiles s {fh} (fun _ => ino) fun _ => ⟨r.denies, []⟩ := by
  refine ⟨?_, fun _ _ _ _ hne => absurd rfl hne⟩
  rintro fh' rfl
  refine ⟨r, hopen, hok, rfl, ?_, fun p hp => absurd hp (Nat.not_lt_zero p)⟩
  rw [hsize]
  rfl

/-- Two bytes behind the end of a new file, and what is read then. -/
theorem first_file_calls : ∃ ino denied, HoldsFiles firstFile {3} (fun _ => ino) (fun _ => ⟨denied, []⟩) ∧
    (runFileCalls [⟨0, 3, .write [7, 8] 3⟩, ⟨0, 3, .read 9 1⟩] firstFile).1 =
      [.ok (.written 2), .ok (.bytes [0, 0, 7, 8])] := by
  obtain ⟨ino, r, hopen, hok, haccess, hsize⟩ := firstFile_fileOk
  refine ⟨ino, r.denies, hopen.held hok hsize, ?_⟩
  rw [(file_calls_refine (hopen.held hok hsize) _ ?_).1]
  · simp [specFileCalls, FileCall.spec, ByteFile.apply, haccess, splice, padTo, slice]
  · intro c hc
    fin_cases hc
    · exact ⟨rfl, by decide⟩
    · exact ⟨rfl, trivial⟩

end Runs

end Bfs.Native
