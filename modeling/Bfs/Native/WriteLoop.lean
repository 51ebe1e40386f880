import Bfs.Native.FileBytes

/-! The loop of `bfs_write` on the bytes of a file: which block a round takes, what it adds to the
file, and what a round that fails leaves. -/
namespace Bfs.Native
open ByteSeq Bfs.Fs

section Touched

/-- What a round of the loop may have changed before it writes the bytes of its block: blocks that were
not given out, counters, and one entry of the indirect block that was not in use. -/
structure Touched (s : FsState) (r : Inode) (k : ℕ) (s' : FsState) : Prop where
  numBlks : s'.numBlks = s.numBlks
  openFileTab : s'.openFileTab = s.openFileTab
  nextFd : s'.nextFd = s.nextFd
  inode : s'.inode = s.inode
  bit : s'.bit = s.bit
  inodesFree : s'.sb.noInodesFree = s.sb.noInodesFree
  disk : ∀ b < s.sb.nextVbid.toNat, (s.dataStart ≤ r.indirect.toNat → b ≠ r.indirect.toNat) →
    s'.disk b = s.disk b
  present : ∀ b, (s.disk b).isSome → (s'.disk b).isSome
  entries : ∀ j ≠ k, fileBlk s' r j = fileBlk s r j
  same : Mapped s r k → s' = s

variable {s s' : FsState} {r : Inode} {k : ℕ}

namespace Touched

lemma refl : Touched s r k s :=
  ⟨rfl, rfl, rfl, rfl, rfl, rfl, fun _ _ _ => rfl, fun _ h => h, fun _ _ => rfl, fun _ => rfl⟩

lemma dataStart (h : Touched s r k s') : s'.dataStart = s.dataStart := by
  rw [FsState.dataStart, h.numBlks, FsState.dataStart]

lemma take (h : Touched s r k s') (hk : ¬Mapped s r k) : Touched s r k s'.takeBlk :=
  ⟨h.numBlks, h.openFileTab, h.nextFd, h.inode, h.bit, h.inodesFree, h.disk, h.present, h.entries,
    fun hm => absurd hm hk⟩

lemma inode_setBlk {b : ℕ} (hb : s.Usable b) (hdata : s.dataStart ≤ b) (c : Block) :
    (s.setBlk b c).inode = s.inode := congrArg View.inode (view_setBlk_data hb hdata c)

lemma bit_setBlk {b : ℕ} (hb : s.Usable b) (hdata : s.dataStart ≤ b) (c : Block) :
    (s.setBlk b c).bit = s.bit := congrArg View.bit (view_setBlk_data hb hdata c)

lemma isSome_setBlk {a b : ℕ} {c : Block} (h : (s.disk a).isSome) : ((s.setBlk b c).disk a).isSome := by
  show (Function.update s.disk b (some c) a).isSome
  rw [Function.update_apply]
  split_ifs
  · rfl
  · exact h

lemma fresh (h : Touched s r k s') (hp : Placed s r) (hk : ¬Mapped s r k) {b : ℕ}
    (hb : s'.Usable b) (hnext : s.sb.nextVbid.toNat ≤ b) (c : Block) :
    Touched s r k (s'.setBlk b c) := by
  have hstart : s'.dataStart ≤ b := by
    rw [h.dataStart]
    exact hp.next.trans hnext
  have hib : r.indirect.toNat ≠ b := by
    by_cases hused : s.dataStart ≤ r.indirect.toNat
    · have := hp.indirect hused
      omega
    · rw [h.dataStart] at hstart
      omega
  refine ⟨h.numBlks, h.openFileTab, h.nextFd, (inode_setBlk hb hstart c).trans h.inode,
    (bit_setBlk hb hstart c).trans h.bit, h.inodesFree, ?_,
    fun a ha => isSome_setBlk (h.present a ha), ?_, fun hm => absurd hm hk⟩
  · intro a ha hne
    have hab : a ≠ b := by omega
    exact (Function.update_of_ne hab ..).trans (h.disk a ha hne)
  · intro j hj
    rw [fileBlk_setBlk hib, h.entries j hj]

lemma entry (h : Touched s r k s') (hk : ¬Mapped s r k) (hused : s.dataStart ≤ r.indirect.toNat)
    (hb : s'.Usable r.indirect.toNat) {idx : ℕ} (hidx : idx < numBlksPerIb)
    (hik : idx + numDirectBlocks = k) (v : UInt64) :
    Touched s r k (s'.setBlk r.indirect.toNat
      (IndirectBlock.serialize ((indirectOf s' r).set ⟨idx, hidx⟩ v) zeroBlk)) := by
  have hstart : s'.dataStart ≤ r.indirect.toNat := by
    rw [h.dataStart]
    exact hused
  refine ⟨h.numBlks, h.openFileTab, h.nextFd, (inode_setBlk hb hstart _).trans h.inode,
    (bit_setBlk hb hstart _).trans h.bit, h.inodesFree, ?_,
    fun a ha => isSome_setBlk (h.present a ha), ?_, fun hm => absurd hm hk⟩
  · intro a ha hne
    exact (Function.update_of_ne (hne hused) ..).trans (h.disk a ha hne)
  · intro j hj
    rw [fileBlk_setEntry hstart, if_neg (by omega), h.entries j hj]

end Touched

end Touched

section NextBlock

def WriteLoop.At (st : WriteLoop) (s : FsState) (k : ℕ) : Prop :=
  match st.ib with
  | none => st.currBlkIdx = k
  | some (ib, idx) => numDirectBlocks ≤ st.currBlkIdx ∧ idx + numDirectBlocks = k ∧
      s.dataStart ≤ st.ino.indirect.toNat ∧ ib = indirectOf s st.ino

def Ready (s : FsState) (r : Inode) (k : ℕ) : Prop :=
  (k < maxFileBlks → Mapped s r k) ∧ (numDirectBlocks ≤ k →
    s.dataStart ≤ r.indirect.toNat ∧ ∃ c, readBlk s r.indirect.toNat = .ok c)

structure IbFound (st : WriteLoop) (s : FsState) (k : ℕ) (ib : IndirectBlock) (idx : ℕ)
    (st' : WriteLoop) (s' : FsState) : Prop where
  touched : Touched s st.ino k s'
  index : idx + numDirectBlocks = k
  loaded : ib = indirectOf s' st'.ino
  used : s'.dataStart ≤ st'.ino.indirect.toNat
  placed : Placed s' st'.ino
  file : ∀ j, fileBlk s' st'.ino j = fileBlk s st.ino j
  same : st' = { st with ib := some (ib, idx) } ∧ s' = s ∨
    ¬s.dataStart ≤ st.ino.indirect.toNat ∧ s.Usable s.sb.nextVbid.toNat ∧
      st' = { st with
        usingNewBlk := true, ino := st.ino.setIBlk indirectIdx s.sb.nextVbid, ib := some (ib, idx) } ∧
      s' = s.takeBlk.setBlk s.sb.nextVbid.toNat zeroBlk

variable {s s' : FsState} {st : WriteLoop} {k : ℕ}

lemma not_mapped_of_unused {r : Inode} (h : ¬s.dataStart ≤ r.indirect.toNat)
    (hk : numDirectBlocks ≤ k) : ¬Mapped s r k :=
  fun hm => h (hm.indirect (by omega))

lemma writeIb_ok (hat : st.At s k) (hk : numDirectBlocks ≤ st.currBlkIdx) (hp : Placed s st.ino)
    (hn : s.numBlks < 2^64) {ib : IndirectBlock} {idx : ℕ} {st' : WriteLoop}
    (h : writeIb st s = (.ok (ib, idx, st'), s')) : IbFound st s k ib idx st' s' := by
  rw [writeIb] at h
  cases hib : st.ib with
  | some p =>
    obtain ⟨ib', idx'⟩ := p
    rw [WriteLoop.At, hib] at hat
    obtain ⟨-, hidx, hused, hload⟩ := hat
    simp only [hib] at h
    cases h
    exact ⟨.refl, hidx, hload, hused, hp, fun _ => rfl, Or.inl ⟨by rw [← hib], rfl⟩⟩
  | none =>
    rw [WriteLoop.At, hib] at hat
    simp only [hib] at h
    rw [Prog.gets_bind_apply] at h
    dsimp only at hat
    by_cases hunused : st.ino.indirect.toNat < s.dataStart
    · rw [if_pos hunused] at h
      obtain ⟨v, s₁, halloc, h⟩ := Prog.bind_eq_ok.mp h
      obtain ⟨hv, h⟩ := Prog.require_bind_eq_ok.mp h
      obtain ⟨-, rfl, rfl⟩ := allocBlk_eq_ok hv halloc
      obtain ⟨u, s₂, hwrite, h⟩ := Prog.bind_eq_ok.mp h
      obtain ⟨husable, rfl⟩ := writeBlk_eq_ok.mp hwrite
      cases h
      have hunused' : ¬s.dataStart ≤ st.ino.indirect.toNat := Nat.not_le.mpr hunused
      have hwrap : s.sb.nextVbid.toNat + 1 < 2^64 := by
        have hlt : s.sb.nextVbid.toNat < s.numBlks := husable.2
        omega
      have hnot : ¬Mapped s st.ino k := not_mapped_of_unused hunused' (by omega)
      refine ⟨(Touched.refl.take hnot).fresh hp hnot husable le_rfl zeroBlk, by omega, ?_, ?_,
        hp.addIndirect hwrap hunused', fileBlk_setIndirect (s := s.takeBlk) hunused' hp.next,
        Or.inr ⟨hunused', husable, rfl, rfl⟩⟩
      · rw [indirectOf, indirect_setIndirect, dataAt_setBlk_self (s := s.takeBlk) hp.next,
          deserialize_zeroBlk]
      · rw [indirect_setIndirect]
        exact hp.next
    · rw [if_neg hunused] at h
      obtain ⟨b, hb, h⟩ := Prog.reads_bind_eq_ok.mp h
      cases h
      have hused := Nat.not_lt.mp hunused
      refine ⟨.refl, by omega, ?_, hused, hp, fun _ => rfl, Or.inl ⟨rfl, rfl⟩⟩
      rw [indirectOf, dataAt_of_readBlk hused hb]

lemma writeBlk_eq_error {b : ℕ} {c : Block} {e : FsErr} (h : writeBlk b c s = (.error e, s')) :
    s' = s ∧ ¬s.Usable b := by
  by_cases hb : s.Usable b
  · rw [writeBlk_of_usable hb] at h
    cases h
  · refine ⟨?_, hb⟩
    rw [writeBlk] at h
    split_ifs at h with hmeta hn
    · exact (Prod.mk.inj h).2.symm
    · exact (Prod.mk.inj h).2.symm
    · cases h

lemma allocBlk_cases {v : Except FsErr UInt64} (h : allocBlk s = (v, s')) :
    v = .ok 0 ∧ s' = s ∨ v = .ok s.sb.nextVbid ∧ s' = s.takeBlk := by
  by_cases hfree : s.sb.noDblocksFree = 0
  · rw [allocBlk_of_full hfree] at h
    cases h
    exact Or.inl ⟨rfl, rfl⟩
  · rw [allocBlk_of_free hfree] at h
    cases h
    exact Or.inr ⟨rfl, rfl⟩

lemma allocBlk_bind_error {α : Type} {msg : FsErr} {f : UInt64 → FsM α} {e : FsErr}
    (h : (do let v ← allocBlk; Prog.require (v ≠ 0) msg; f v) s = (.error e, s')) :
    s' = s ∨ s' = s.takeBlk ∨ f s.sb.nextVbid s.takeBlk = (.error e, s') := by
  rcases Prog.bind_eq_error.mp h with halloc | ⟨v, s₁, halloc, h⟩
  · rcases allocBlk_cases halloc with ⟨hv, -⟩ | ⟨hv, -⟩
    · cases hv
    · cases hv
  · rcases allocBlk_cases halloc with ⟨hv, rfl⟩ | ⟨hv, rfl⟩
    · cases hv
      rw [Prog.require_bind_of_not (by simp)] at h
      cases h
      exact Or.inl rfl
    · cases hv
      by_cases hv : s.sb.nextVbid ≠ 0
      · rw [Prog.require_bind_of hv] at h
        exact Or.inr (Or.inr h)
      · rw [Prog.require_bind_of_not hv] at h
        cases h
        exact Or.inr (Or.inl rfl)

lemma writeIb_error (hat : st.At s k) (hk : numDirectBlocks ≤ st.currBlkIdx) (hp : Placed s st.ino)
    {e : FsErr} (h : writeIb st s = (.error e, s')) :
    Touched s st.ino k s' ∧ ¬Ready s st.ino k := by
  rw [writeIb] at h
  cases hib : st.ib with
  | some p =>
    simp only [hib] at h
    cases h
  | none =>
    rw [WriteLoop.At, hib] at hat
    simp only [hib] at h
    rw [Prog.gets_bind_apply] at h
    dsimp only at hat
    by_cases hunused : st.ino.indirect.toNat < s.dataStart
    · rw [if_pos hunused] at h
      have hnot : ¬Mapped s st.ino k := not_mapped_of_unused (Nat.not_le.mpr hunused) (by omega)
      refine ⟨?_, fun hready => Nat.not_le.mpr hunused (hready.2 (by omega)).1⟩
      rcases allocBlk_bind_error h with rfl | rfl | h
      · exact .refl
      · exact Touched.refl.take hnot
      · rcases Prog.bind_eq_error.mp h with hwrite | ⟨u, s₁, -, h⟩
        · rw [(writeBlk_eq_error hwrite).1]
          exact Touched.refl.take hnot
        · cases h
    · rw [if_neg hunused] at h
      rcases Prog.reads_bind_eq_error.mp h with ⟨hb, rfl⟩ | ⟨b, -, h⟩
      · refine ⟨.refl, ?_⟩
        intro hready
        obtain ⟨-, c, hc⟩ := hready.2 (by omega)
        rw [hc] at hb
        cases hb
      · cases h

structure BlkFound (st : WriteLoop) (s : FsState) (k : ℕ) (v : UInt64) (st' : WriteLoop)
    (s' : FsState) : Prop where
  touched : Touched s st.ino k s'
  lt : k < maxFileBlks
  loop : st'.wbuf = st.wbuf ∧ st'.currFileOff = st.currFileOff ∧
    st'.ino = { st.ino with iBlks := st'.ino.iBlks }
  next : st'.At s' (k+1)
  file : ∀ j, fileBlk s' st'.ino j = if j = k then v else fileBlk s st.ino j
  used : s.dataStart ≤ v.toNat
  indirect : st'.ino.indirect = st.ino.indirect ∨
    ¬s.dataStart ≤ st.ino.indirect.toNat ∧ s.sb.nextVbid.toNat ≤ st'.ino.indirect.toNat
  block : Mapped s st.ino k ∧ s' = s ∧ st'.ino = st.ino ∧ st'.usingNewBlk = st.usingNewBlk ∧
      st'.usedNewBlocks = st.usedNewBlocks ∨
    ¬Mapped s st.ino k ∧ s.sb.nextVbid.toNat ≤ v.toNat ∧ st'.usingNewBlk = true ∧
      st'.usedNewBlocks = true ∧ (s'.Usable v.toNat → Placed s' st'.ino)

lemma nextWriteBlk_direct (hat : st.At s k) (hk : st.currBlkIdx < numDirectBlocks)
    (hp : Placed s st.ino) (hn : s.numBlks < 2^64) {v : UInt64} {st' : WriteLoop}
    (h : nextWriteBlk st s = (.ok (some (v, st')), s')) : BlkFound st s k v st' s' := by
  have hib : st.ib = none := by
    cases hib : st.ib with
    | none => rfl
    | some p =>
      rw [WriteLoop.At, hib] at hat
      obtain ⟨hge, -⟩ := hat
      omega
  have hidx : st.currBlkIdx = k := by
    rw [WriteLoop.At, hib] at hat
    exact hat
  have hdirect : k < numDirectBlocks := by omega
  rw [nextWriteBlk, Prog.gets_bind_apply, dif_pos hk] at h
  subst hidx
  have hlt : st.currBlkIdx < maxFileBlks := by
    rw [maxFileBlks]
    omega
  have hblk : fileBlk s st.ino st.currBlkIdx = st.ino.iBlks.get ⟨st.currBlkIdx, Nat.lt_succ_of_lt hk⟩ :=
    fileBlk_direct hk
  rw [← hblk] at h
  by_cases hmapped : Mapped s st.ino st.currBlkIdx
  · rw [if_neg (Nat.not_lt.mpr hmapped)] at h
    cases h
    refine ⟨.refl, hlt, ⟨rfl, rfl, rfl⟩, ?_, ?_, hmapped, Or.inl rfl,
      Or.inl ⟨hmapped, rfl, rfl, rfl, rfl⟩⟩
    · rw [WriteLoop.At, hib]
    · intro j
      split_ifs with hj
      · rw [hj]
      · rfl
  · rw [if_pos (Nat.not_le.mp hmapped)] at h
    obtain ⟨v', s₁, halloc, h⟩ := Prog.bind_eq_ok.mp h
    obtain ⟨hv, h⟩ := Prog.require_bind_eq_ok.mp h
    obtain ⟨-, rfl, rfl⟩ := allocBlk_eq_ok hv halloc
    cases h
    have hind : (st.ino.setIBlk ⟨st.currBlkIdx, Nat.lt_succ_of_lt hk⟩ s.sb.nextVbid).indirect =
        st.ino.indirect := indirect_setDirect hk _
    refine ⟨Touched.refl.take hmapped, hlt, ⟨rfl, rfl, rfl⟩, ?_, fileBlk_setDirect (s := s.takeBlk) hk _,
      hp.next, Or.inl hind, Or.inr ⟨hmapped, le_rfl, rfl, rfl, ?_⟩⟩
    · rw [WriteLoop.At, hib]
    · intro husable
      have hlt' : s.sb.nextVbid.toNat < s.numBlks := husable.2
      exact hp.addDirect (by omega) hk

lemma WriteLoop.At.ge (hat : st.At s k) (hk : ¬st.currBlkIdx < numDirectBlocks) : numDirectBlocks ≤ k := by
  cases hib : st.ib with
  | none =>
    rw [WriteLoop.At, hib] at hat
    dsimp only at hat
    omega
  | some p =>
    rw [WriteLoop.At, hib] at hat
    obtain ⟨-, hidx, -⟩ := hat
    omega

lemma IbFound.mapped {ib : IndirectBlock} {idx : ℕ} {st₁ : WriteLoop} {s₁ : FsState}
    (h : IbFound st s k ib idx st₁ s₁) (hk : numDirectBlocks ≤ k) (hm : Mapped s st.ino k) :
    st₁ = { st with ib := some (ib, idx) } ∧ s₁ = s := by
  rcases h.same with hsame | ⟨hunused, -⟩
  · exact hsame
  · exact absurd hm (not_mapped_of_unused hunused hk)

lemma IbFound.extend {ib : IndirectBlock} {idx : ℕ} {st₁ : WriteLoop} {s₁ : FsState}
    (h : IbFound st s k ib idx st₁ s₁) (hp : Placed s st.ino) (hk : ¬Mapped s st.ino k)
    (hge : numDirectBlocks ≤ st.currBlkIdx)
    (hn : s.numBlks < 2^64) (hidx : idx < numBlksPerIb) (husable : s₁.Usable st₁.ino.indirect.toNat) :
    BlkFound st s k s₁.sb.nextVbid
      { st₁ with
        usingNewBlk := true, usedNewBlocks := true
        ib := some ((indirectOf s₁ st₁.ino).set ⟨idx, hidx⟩ s₁.sb.nextVbid, idx+1) }
      (s₁.takeBlk.setBlk st₁.ino.indirect.toNat (IndirectBlock.serialize
        ((indirectOf s₁ st₁.ino).set ⟨idx, hidx⟩ s₁.sb.nextVbid) zeroBlk)) := by
  have hindex := h.index
  have hstart := h.touched.dataStart
  have hnext := h.placed.next
  have hlt : k < maxFileBlks := by
    rw [maxFileBlks]
    omega
  have hfile : ∀ j, fileBlk (s₁.takeBlk.setBlk st₁.ino.indirect.toNat (IndirectBlock.serialize
      ((indirectOf s₁ st₁.ino).set ⟨idx, hidx⟩ s₁.sb.nextVbid) zeroBlk)) st₁.ino j =
        if j = k then s₁.sb.nextVbid else fileBlk s st.ino j := by
    intro j
    refine (fileBlk_setEntry (s := s₁.takeBlk) h.used hidx _ j).trans ?_
    rw [hindex]
    exact if_congr Iff.rfl rfl (h.file j)
  refine ⟨?_, hlt, ?_, ?_, hfile, by omega, ?_, Or.inr ⟨hk, ?_, rfl, rfl, ?_⟩⟩
  · rcases h.same with ⟨rfl, rfl⟩ | ⟨hunused, hnew, rfl, rfl⟩
    · exact (Touched.refl.take hk).entry hk h.used husable hidx hindex _
    · apply (h.touched.take hk).fresh hp hk husable
      rw [indirect_setIndirect]
  · rcases h.same with ⟨rfl, rfl⟩ | ⟨hunused, hnew, rfl, rfl⟩
    · exact ⟨rfl, rfl, rfl⟩
    · exact ⟨rfl, rfl, rfl⟩
  · have hload := indirectOf_serialize (s := s₁.takeBlk) h.used
      ((indirectOf s₁ st₁.ino).set ⟨idx, hidx⟩ s₁.sb.nextVbid)
    refine ⟨?_, by omega, h.used, hload.symm⟩
    rcases h.same with ⟨rfl, rfl⟩ | ⟨hunused, hnew, rfl, rfl⟩
    · exact hge
    · exact hge
  · rcases h.same with ⟨rfl, rfl⟩ | ⟨hunused, hnew, rfl, rfl⟩
    · exact Or.inl rfl
    · refine Or.inr ⟨hunused, ?_⟩
      rw [indirect_setIndirect]
  · rcases h.same with ⟨rfl, rfl⟩ | ⟨hunused, hnew, rfl, rfl⟩
    · exact le_rfl
    · have hlast : s.sb.nextVbid.toNat < s.numBlks := hnew.2
      show s.sb.nextVbid.toNat ≤ (s.sb.nextVbid + 1).toNat
      rw [UInt64.toNat_add, UInt64.toNat_one, Nat.mod_eq_of_lt (by omega)]
      omega
  · intro hlast
    have hlast' : s₁.sb.nextVbid.toNat < s₁.numBlks := hlast.2
    have hnum := h.touched.numBlks
    exact h.placed.addEntry (by omega) h.used hidx

lemma nextWriteBlk_entry (hat : st.At s k) (hk : ¬st.currBlkIdx < numDirectBlocks)
    (hp : Placed s st.ino) (hn : s.numBlks < 2^64) {v : UInt64} {st' : WriteLoop}
    (h : nextWriteBlk st s = (.ok (some (v, st')), s')) : BlkFound st s k v st' s' := by
  have hge := hat.ge hk
  rw [nextWriteBlk, Prog.gets_bind_apply, dif_neg hk] at h
  obtain ⟨⟨ib, idx, st₁⟩, s₁, hib, h⟩ := Prog.bind_eq_ok.mp h
  have hfound := writeIb_ok hat (Nat.not_lt.mp hk) hp hn hib
  dsimp only at h
  by_cases hidx : idx < numBlksPerIb
  · rw [dif_pos hidx] at h
    have hget : ib.get ⟨idx, hidx⟩ = fileBlk s st.ino k := by
      rw [hfound.loaded, ← fileBlk_get hfound.index hidx, hfound.file]
    have hlt : k < maxFileBlks := by
      have := hfound.index
      rw [maxFileBlks]
      omega
    rw [hget] at h
    by_cases hmapped : Mapped s st.ino k
    · rw [if_neg (Nat.not_lt.mpr hmapped)] at h
      obtain ⟨rfl, rfl⟩ := hfound.mapped hge hmapped
      cases h
      refine ⟨.refl, hlt, ⟨rfl, rfl, rfl⟩, ?_, ?_, hmapped, Or.inl rfl,
        Or.inl ⟨hmapped, rfl, rfl, rfl, rfl⟩⟩
      · exact ⟨Nat.not_lt.mp hk, by have := hfound.index; omega, hfound.used, hfound.loaded⟩
      · intro j
        split_ifs with hj
        · rw [hj]
        · rfl
    · rw [if_pos (Nat.not_le.mp hmapped)] at h
      obtain ⟨v', s₂, halloc, h⟩ := Prog.bind_eq_ok.mp h
      obtain ⟨hv, h⟩ := Prog.require_bind_eq_ok.mp h
      obtain ⟨-, rfl, rfl⟩ := allocBlk_eq_ok hv halloc
      obtain ⟨u, s₃, hwrite, h⟩ := Prog.bind_eq_ok.mp h
      obtain ⟨husable, rfl⟩ := writeBlk_eq_ok.mp hwrite
      cases h
      rw [hfound.loaded]
      exact hfound.extend hp hmapped (Nat.not_lt.mp hk) hn hidx husable
  · rw [dif_neg hidx] at h
    cases h

lemma nextWriteBlk_some (hat : st.At s k) (hp : Placed s st.ino) (hn : s.numBlks < 2^64) {v : UInt64}
    {st' : WriteLoop} (h : nextWriteBlk st s = (.ok (some (v, st')), s')) :
    BlkFound st s k v st' s' := by
  by_cases hk : st.currBlkIdx < numDirectBlocks
  · exact nextWriteBlk_direct hat hk hp hn h
  · exact nextWriteBlk_entry hat hk hp hn h

lemma nextWriteBlk_none (hat : st.At s k) (hp : Placed s st.ino) (hn : s.numBlks < 2^64)
    (h : nextWriteBlk st s = (.ok none, s')) : Touched s st.ino k s' ∧ maxFileBlks ≤ k := by
  rw [nextWriteBlk, Prog.gets_bind_apply] at h
  by_cases hk : st.currBlkIdx < numDirectBlocks
  · rw [dif_pos hk] at h
    split_ifs at h
    · obtain ⟨v, s₁, halloc, h⟩ := Prog.bind_eq_ok.mp h
      obtain ⟨hv, h⟩ := Prog.require_bind_eq_ok.mp h
      cases h
    · cases h
  · rw [dif_neg hk] at h
    obtain ⟨⟨ib, idx, st₁⟩, s₁, hib, h⟩ := Prog.bind_eq_ok.mp h
    have hfound := writeIb_ok hat (Nat.not_lt.mp hk) hp hn hib
    dsimp only at h
    split_ifs at h with hidx
    · obtain ⟨v, s₂, halloc, h⟩ := Prog.bind_eq_ok.mp h
      obtain ⟨hv, h⟩ := Prog.require_bind_eq_ok.mp h
      obtain ⟨u, s₃, hwrite, h⟩ := Prog.bind_eq_ok.mp h
      cases h
    · cases h
    · cases h
      have hindex := hfound.index
      refine ⟨hfound.touched, ?_⟩
      rw [maxFileBlks]
      omega

lemma nextWriteBlk_error (hat : st.At s k) (hp : Placed s st.ino) (hn : s.numBlks < 2^64) {e : FsErr}
    (h : nextWriteBlk st s = (.error e, s')) : Touched s st.ino k s' ∧ ¬Ready s st.ino k := by
  rw [nextWriteBlk, Prog.gets_bind_apply] at h
  by_cases hk : st.currBlkIdx < numDirectBlocks
  · have hidx : st.currBlkIdx = k := by
      cases hib : st.ib with
      | none =>
        rw [WriteLoop.At, hib] at hat
        exact hat
      | some p =>
        rw [WriteLoop.At, hib] at hat
        obtain ⟨hge, -⟩ := hat
        omega
    rw [dif_pos hk] at h
    split_ifs at h with hunused
    · have hnot : ¬Mapped s st.ino k := by
        subst hidx
        rw [Mapped, fileBlk_direct hk]
        exact Nat.not_le.mpr hunused
      refine ⟨?_, fun hready => hnot (hready.1 (by rw [maxFileBlks]; omega))⟩
      rcases allocBlk_bind_error h with rfl | rfl | h
      · exact .refl
      · exact Touched.refl.take hnot
      · cases h
    · cases h
  · have hge := hat.ge hk
    rw [dif_neg hk] at h
    rcases Prog.bind_eq_error.mp h with hib | ⟨⟨ib, idx, st₁⟩, s₁, hib, h⟩
    · exact writeIb_error hat (Nat.not_lt.mp hk) hp hib
    · have hfound := writeIb_ok hat (Nat.not_lt.mp hk) hp hn hib
      dsimp only at h
      split_ifs at h with hidx hunused
      · have hnot : ¬Mapped s st.ino k := by
          rw [Mapped, ← hfound.file, fileBlk_get hfound.index hidx, ← hfound.loaded]
          exact Nat.not_le.mpr hunused
        have hindex := hfound.index
        refine ⟨?_, fun hready => hnot (hready.1 (by rw [maxFileBlks]; omega))⟩
        rcases allocBlk_bind_error h with rfl | rfl | h
        · exact hfound.touched
        · exact hfound.touched.take hnot
        · rcases Prog.bind_eq_error.mp h with hwrite | ⟨u, s₂, -, h⟩
          · rw [(writeBlk_eq_error hwrite).1]
            exact hfound.touched.take hnot
          · cases h
      · cases h
      · cases h

lemma BlkFound.file_self {v : UInt64} {st' : WriteLoop} (h : BlkFound st s k v st' s') :
    fileBlk s' st'.ino k = v := by rw [h.file, if_pos rfl]

lemma BlkFound.mapped_self {v : UInt64} {st' : WriteLoop} (h : BlkFound st s k v st' s') :
    Mapped s' st'.ino k := by
  rw [Mapped, h.file_self, h.touched.dataStart]
  exact h.used

lemma BlkFound.data {v : UInt64} {st' : WriteLoop} (h : BlkFound st s k v st' s') (hp : Placed s st.ino)
    {j : ℕ} (hj : j ≠ k) : blkData s' st'.ino j = blkData s st.ino j := by
  have hfile : fileBlk s' st'.ino j = fileBlk s st.ino j := by rw [h.file, if_neg hj]
  have hstart := h.touched.dataStart
  by_cases hm : Mapped s st.ino j
  · have hdisk : s'.disk (fileBlk s st.ino j).toNat = s.disk (fileBlk s st.ino j).toNat := by
      apply h.touched.disk _ (hp.given j hm)
      intro _ heq
      exact hp.ne_indirect hm heq.symm
    rw [blkData, hfile, FsState.dataAt, hdisk, hstart]
    rfl
  · have hm' : ¬Mapped s' st'.ino j := by
      rw [Mapped, hfile, hstart]
      exact hm
    rw [blkData_of_not_mapped hm, blkData_of_not_mapped hm']

end NextBlock

section Invariant

def Owned (s : FsState) (r : Inode) (b : ℕ) : Prop :=
  (∃ k, Mapped s r k ∧ (fileBlk s r k).toNat = b) ∨ s.dataStart ≤ r.indirect.toNat ∧ r.indirect.toNat = b

/-- A file whose first `m` blocks, up to its size at least, are in use and on the device. -/
structure FileOk (s : FsState) (r : Inode) (m : ℕ) : Prop where
  placed : Placed s r
  device : s.numBlks < 2^64
  limit : r.size.toNat ≤ maxFileSize
  size : r.size.toNat ≤ m*blkSz
  ready : ∀ k < m, Ready s r k
  readable : ∀ k < m, k < maxFileBlks → ∃ c, readBlk s (fileBlk s r k).toNat = .ok c

/-- The loop in front of block `k`: a part of the buffer is written, and nothing else changed. -/
structure Written (s₀ : FsState) (r₀ : Inode) (start : ℕ) (w₀ : List UInt8) (st : WriteLoop)
    (s : FsState) (k : ℕ) : Prop where
  placed : Placed s st.ino
  position : st.At s k
  clean : st.usingNewBlk = false
  numBlks : s.numBlks = s₀.numBlks
  openFileTab : s.openFileTab = s₀.openFileTab
  nextFd : s.nextFd = s₀.nextFd
  inode : s.inode = s₀.inode
  bit : s.bit = s₀.bit
  inodesFree : s.sb.noInodesFree = s₀.sb.noInodesFree
  disk : ∀ b < s₀.sb.nextVbid.toNat, ¬Owned s₀ r₀ b → s.disk b = s₀.disk b
  present : ∀ b, (s₀.disk b).isSome → (s.disk b).isSome
  next : s₀.sb.nextVbid.toNat ≤ s.sb.nextVbid.toNat
  owned : ∀ b, Owned s st.ino b → Owned s₀ r₀ b ∨ s₀.sb.nextVbid.toNat ≤ b
  fields : st.ino = { r₀ with iBlks := st.ino.iBlks }
  old : ∀ j, Mapped s₀ r₀ j → fileBlk s st.ino j = fileBlk s₀ r₀ j
  indirect : s₀.dataStart ≤ r₀.indirect.toNat → st.ino.indirect = r₀.indirect
  low : start ≤ st.currFileOff
  rest : st.wbuf = w₀.drop (st.currFileOff - start)
  high : st.currFileOff + st.wbuf.length = start + w₀.length
  block : st.wbuf ≠ [] → st.currFileOff / blkSz = k
  bound : st.currFileOff ≤ max start (k*blkSz)
  limit : k ≤ maxFileBlks
  bytes : ∀ p, byteAt s st.ino p =
    if start ≤ p ∧ p < st.currFileOff then w₀.getD (p-start) 0 else byteAt s₀ r₀ p
  unchanged : st.usedNewBlocks = false → st.ino = r₀
  grown : st.usedNewBlocks = true → r₀.size.toNat < st.currFileOff

variable {s₀ s s' : FsState} {r₀ : Inode} {start k m : ℕ} {w₀ : List UInt8} {st st' : WriteLoop}

lemma getD_write (b : Block) {pos : ℕ} {src : List UInt8} (h : pos + src.length ≤ blkSz) (i : ℕ) :
    (b.write pos src).toList.getD i 0 =
      if pos ≤ i ∧ i < pos + src.length then src.getD (i-pos) 0 else b.toList.getD i 0 := by
  have hlen := b.length_toList
  rw [List.getD_eq_getElem?_getD, b.toList_write h, getElem?_splice _ _ _ (by omega)]
  split_ifs
  · rw [List.getD_eq_getElem?_getD]
  · rw [List.getD_eq_getElem?_getD]

namespace Written

lemma dataStart (h : Written s₀ r₀ start w₀ st s k) : s.dataStart = s₀.dataStart := by
  rw [FsState.dataStart, h.numBlks, FsState.dataStart]

lemma mapped (h : Written s₀ r₀ start w₀ st s k) {j : ℕ} (hj : Mapped s₀ r₀ j) : Mapped s st.ino j := by
  rw [Mapped, h.old j hj, h.dataStart]
  exact hj

lemma placed_found (h : Written s₀ r₀ start w₀ st s k) {v : UInt64} (hf : BlkFound st s k v st' s')
    (hv : s'.Usable v.toNat) : Placed s' st'.ino := by
  rcases hf.block with ⟨-, rfl, hino, -⟩ | ⟨-, -, -, -, hplaced⟩
  · rw [hino]
    exact h.placed
  · exact hplaced hv

lemma ne_indirect_found (h : Written s₀ r₀ start w₀ st s k) {v : UInt64}
    (hf : BlkFound st s k v st' s') (hv : s'.Usable v.toNat) :
    st'.ino.indirect.toNat ≠ v.toNat := by
  have hne := (h.placed_found hf hv).ne_indirect hf.mapped_self
  rw [hf.file_self] at hne
  exact hne

lemma bytes_step (h : Written s₀ r₀ start w₀ st s k) (hne : st.wbuf ≠ []) {v : UInt64}
    (hf : BlkFound st s k v st' s') (hv : s'.Usable v.toNat) {b : Block}
    (hb : blkData s st.ino k = b ∨ st.currFileOff % blkSz = 0 ∧ blkSz ≤ st.wbuf.length) (p : ℕ) :
    byteAt (s'.setBlk v.toNat (b.write (st.currFileOff % blkSz)
      (st.wbuf.take (min st.wbuf.length (blkSz - st.currFileOff % blkSz))))) st'.ino p =
      if start ≤ p ∧ p < st.currFileOff + min st.wbuf.length (blkSz - st.currFileOff % blkSz) then
        w₀.getD (p-start) 0 else byteAt s₀ r₀ p := by
  obtain ⟨-, -, hdata⟩ := (h.placed_found hf hv).write hf.mapped_self (b.write (st.currFileOff % blkSz)
      (st.wbuf.take (min st.wbuf.length (blkSz - st.currFileOff % blkSz))))
  rw [hf.file_self] at hdata
  have hold := h.bytes p
  have hblk := h.block hne
  have hlow := h.low
  have hrest := h.rest
  have hsz : blkSz = 4096 := rfl
  have hoff : st.currFileOff = 4096*k + st.currFileOff % blkSz := by
    rw [← hblk]
    exact (Nat.div_add_mod _ _).symm
  have hpos : st.currFileOff % blkSz < 4096 := Nat.mod_lt _ (by decide)
  have hp : p = 4096*(p/blkSz) + p % blkSz := (Nat.div_add_mod _ _).symm
  have hmod : p % blkSz < 4096 := Nat.mod_lt _ (by decide)
  rw [byteAt, hdata]
  rw [byteAt] at hold
  generalize st.currFileOff % blkSz = pos at *
  by_cases hpk : p / blkSz = k
  · have hlen : (st.wbuf.take (min st.wbuf.length (blkSz - pos))).length =
        min st.wbuf.length (blkSz - pos) := by
      rw [List.length_take]
      omega
    rw [if_pos hpk, getD_write b (by omega), hlen]
    by_cases hin : pos ≤ p % blkSz ∧ p % blkSz < pos + min st.wbuf.length (blkSz - pos)
    · -- the byte comes from the buffer
      rw [if_pos hin, if_pos (by omega), List.getD_eq_getElem?_getD, List.getElem?_take,
        if_pos (by omega), hrest, List.getElem?_drop, List.getD_eq_getElem?_getD,
        show st.currFileOff - start + (p % blkSz - pos) = p - start by omega]
    · rw [if_neg hin]
      rcases hb with hb | ⟨hzero, hfull⟩
      · rw [← hb, ← hpk, hold]
        exact if_congr (by omega) rfl rfl
      · omega
  · rw [if_neg hpk, hf.data h.placed hpk, hold]
    exact if_congr (by omega) rfl rfl

lemma owned_step (h : Written s₀ r₀ start w₀ st s k) {v : UInt64} (hf : BlkFound st s k v st' s')
    (hv : s'.Usable v.toNat) {c : Block} {b : ℕ} (hb : Owned (s'.setBlk v.toNat c) st'.ino b) :
    Owned s₀ r₀ b ∨ s₀.sb.nextVbid.toNat ≤ b := by
  have hnext := h.next
  have hstart := hf.touched.dataStart
  have hib := h.ne_indirect_found hf hv
  rcases hb with ⟨j, hj, rfl⟩ | ⟨hused, rfl⟩
  · rw [Mapped, fileBlk_setBlk hib, hf.file, dataStart_setBlk, hstart] at hj
    rw [fileBlk_setBlk hib, hf.file]
    split_ifs at hj ⊢ with hjk
    · rcases hf.block with ⟨hm, rfl, hino, -⟩ | ⟨-, hge, -⟩
      · apply h.owned
        refine Or.inl ⟨k, hm, ?_⟩
        rw [← hf.file_self, hino]
      · exact Or.inr (hnext.trans hge)
    · exact h.owned _ (Or.inl ⟨j, hj, rfl⟩)
  · rcases hf.indirect with heq | ⟨-, hge⟩
    · rw [dataStart_setBlk, hstart, heq] at hused
      rw [heq]
      exact h.owned _ (Or.inr ⟨hused, rfl⟩)
    · exact Or.inr (hnext.trans hge)

lemma disk_step (h : Written s₀ r₀ start w₀ st s k) {v : UInt64} (hf : BlkFound st s k v st' s')
    (hv : s'.Usable v.toNat) {c : Block} {b : ℕ} (hb : b < s₀.sb.nextVbid.toNat)
    (hout : ¬Owned s₀ r₀ b) : (s'.setBlk v.toNat c).disk b = s₀.disk b := by
  have hne : b ≠ v.toNat := by
    intro heq
    have hib := h.ne_indirect_found hf hv
    have howned : Owned (s'.setBlk v.toNat c) st'.ino b := by
      refine Or.inl ⟨k, ?_, ?_⟩
      · rw [Mapped, fileBlk_setBlk hib]
        exact hf.mapped_self
      · rw [fileBlk_setBlk hib, hf.file_self, heq]
    rcases h.owned_step hf hv howned with hin | hge
    · exact hout hin
    · omega
  have htouched : s'.disk b = s.disk b := by
    apply hf.touched.disk b (lt_of_lt_of_le hb h.next)
    intro hused heq
    rcases h.owned b (Or.inr ⟨hused, heq.symm⟩) with hin | hge
    · exact hout hin
    · omega
  exact (Function.update_of_ne hne ..).trans (htouched.trans (h.disk b hb hout))

lemma size_le (h : Written s₀ r₀ start w₀ st s k) (hok : FileOk s₀ r₀ m) (hk : ¬Mapped s st.ino k)
    (hlt : k < maxFileBlks) : m ≤ k := by
  by_contra hm
  exact hk (h.mapped ((hok.ready k (Nat.not_le.mp hm)).1 hlt))

lemma step (h : Written s₀ r₀ start w₀ st s k) (hok : FileOk s₀ r₀ m) (hne : st.wbuf ≠ []) {v : UInt64}
    (hf : BlkFound st s k v st' s') (hv : s'.Usable v.toNat) {b : Block}
    (hb : blkData s st.ino k = b ∨ st.currFileOff % blkSz = 0 ∧ blkSz ≤ st.wbuf.length) :
    Written s₀ r₀ start w₀
      { st' with
        wbuf := st.wbuf.drop (min st.wbuf.length (blkSz - st.currFileOff % blkSz))
        currFileOff := st.currFileOff + min st.wbuf.length (blkSz - st.currFileOff % blkSz)
        usingNewBlk := false }
      (s'.setBlk v.toNat (b.write (st.currFileOff % blkSz)
        (st.wbuf.take (min st.wbuf.length (blkSz - st.currFileOff % blkSz))))) (k+1) := by
  have hib := h.ne_indirect_found hf hv
  have hstart : s'.dataStart ≤ v.toNat := by
    rw [hf.touched.dataStart]
    exact hf.used
  have hblk := h.block hne
  have hlen : 0 < st.wbuf.length := List.length_pos_of_ne_nil hne
  have hpos : st.currFileOff % blkSz < 4096 := Nat.mod_lt _ (by decide)
  have hoff : st.currFileOff = 4096*k + st.currFileOff % blkSz := by
    rw [← hblk]
    exact (Nat.div_add_mod _ _).symm
  have hsz : blkSz = 4096 := rfl
  have hlow := h.low
  have hhigh := h.high
  constructor
  case bytes => exact h.bytes_step hne hf hv hb
  case owned =>
    intro a ha
    exact h.owned_step hf hv ha
  case disk =>
    intro a ha hout
    exact h.disk_step hf hv ha hout
  case placed =>
    have hplaced := ((h.placed_found hf hv).write hf.mapped_self (b.write (st.currFileOff % blkSz)
      (st.wbuf.take (min st.wbuf.length (blkSz - st.currFileOff % blkSz))))).1
    rw [hf.file_self] at hplaced
    exact hplaced
  case position =>
    have hat := hf.next
    rw [WriteLoop.At] at hat ⊢
    dsimp only
    cases hloop : st'.ib with
    | none =>
      rw [hloop] at hat
      exact hat
    | some q =>
      rw [hloop] at hat
      obtain ⟨hge, hidx, hused, hload⟩ := hat
      exact ⟨hge, hidx, hused, by rw [indirectOf_setBlk hib]; exact hload⟩
  case clean => rfl
  case numBlks => exact hf.touched.numBlks.trans h.numBlks
  case openFileTab => exact hf.touched.openFileTab.trans h.openFileTab
  case nextFd => exact hf.touched.nextFd.trans h.nextFd
  case inode => exact (Touched.inode_setBlk hv hstart _).trans (hf.touched.inode.trans h.inode)
  case bit => exact (Touched.bit_setBlk hv hstart _).trans (hf.touched.bit.trans h.bit)
  case inodesFree => exact hf.touched.inodesFree.trans h.inodesFree
  case present =>
    intro a ha
    exact Touched.isSome_setBlk (hf.touched.present a (h.present a ha))
  case next =>
    show s₀.sb.nextVbid.toNat ≤ s'.sb.nextVbid.toNat
    have hnext := h.next
    rcases hf.block with ⟨-, rfl, -⟩ | ⟨-, hge, -, -, hplaced⟩
    · exact hnext
    · have hgiven := (hplaced hv).given k hf.mapped_self
      rw [hf.file_self] at hgiven
      omega
  case fields =>
    have hfields := h.fields
    have hloop := hf.loop.2.2
    rw [hfields] at hloop
    exact hloop
  case old =>
    intro j hj
    rw [fileBlk_setBlk hib, hf.file]
    split_ifs with hjk
    · subst hjk
      rcases hf.block with ⟨-, rfl, hino, -⟩ | ⟨hnot, -⟩
      · rw [← hf.file_self, hino]
        exact h.old j hj
      · exact absurd (h.mapped hj) hnot
    · exact h.old j hj
  case indirect =>
    intro hused
    have heq := h.indirect hused
    rcases hf.indirect with hsame | ⟨hnot, -⟩
    · exact hsame.trans heq
    · rw [heq, h.dataStart] at hnot
      exact absurd hused hnot
  case low => exact hlow.trans (Nat.le_add_right _ _)
  case rest =>
    dsimp only
    rw [h.rest, List.drop_drop]
    congr 1
    rw [← h.rest]
    omega
  case high =>
    dsimp only
    rw [List.length_drop]
    omega
  case block =>
    intro hmore
    have hmore' : min st.wbuf.length (blkSz - st.currFileOff % blkSz) < st.wbuf.length := by
      by_contra hall
      exact hmore (List.drop_eq_nil_of_le (Nat.not_lt.mp hall))
    have hend : st.currFileOff + min st.wbuf.length (blkSz - st.currFileOff % blkSz) =
        blkSz*(k+1) := by
      rw [hsz]
      omega
    dsimp only
    rw [hend]
    exact Nat.mul_div_cancel_left _ (by decide)
  case bound =>
    apply le_max_of_le_right
    dsimp only
    rw [hsz]
    omega
  case limit => exact hf.lt
  case unchanged =>
    intro hused
    rcases hf.block with ⟨-, -, hino, -, hsame⟩ | ⟨-, -, -, hnew, -⟩
    · exact hino.trans (h.unchanged (hsame.symm.trans hused))
    · exact absurd (hnew.symm.trans hused) (by decide)
  case grown =>
    intro hused
    dsimp only
    rcases hf.block with ⟨-, -, -, -, hsame⟩ | ⟨hnot, -⟩
    · have hgrown := h.grown (hsame.symm.trans hused)
      omega
    · have hm := h.size_le hok hnot hf.lt
      have hsize : r₀.size.toNat ≤ m*4096 := hok.size
      omega

lemma readBlk_ok (h : Written s₀ r₀ start w₀ st s k) {b : ℕ} (hb : ∃ c, readBlk s₀ b = .ok c) :
    ∃ c, readBlk s b = .ok c := by
  obtain ⟨c, hc⟩ := hb
  obtain ⟨husable, hdisk⟩ := readBlk_eq_ok.mp hc
  obtain ⟨c', hc'⟩ := Option.isSome_iff_exists.mp (h.present b (by rw [hdisk]; rfl))
  refine ⟨c', readBlk_eq_ok.mpr ⟨?_, hc'⟩⟩
  rw [FsState.Usable, FsState.cfg, h.numBlks]
  exact husable

lemma ready (h : Written s₀ r₀ start w₀ st s k) (hok : FileOk s₀ r₀ m) {j : ℕ} (hj : j < m) :
    Ready s st.ino j := by
  obtain ⟨hm, hib⟩ := hok.ready j hj
  refine ⟨fun hlt => h.mapped (hm hlt), ?_⟩
  intro hge
  obtain ⟨hused, hread⟩ := hib hge
  rw [h.indirect hused, h.dataStart]
  exact ⟨hused, h.readBlk_ok hread⟩

lemma readable (h : Written s₀ r₀ start w₀ st s k) (hok : FileOk s₀ r₀ m) {j : ℕ} (hj : j < m)
    (hlt : j < maxFileBlks) : ∃ c, readBlk s (fileBlk s st.ino j).toNat = .ok c := by
  rw [h.old j ((hok.ready j hj).1 hlt)]
  exact h.readBlk_ok (hok.readable j hj hlt)

end Written

/-- How the loop ends: everything is written, the file has its maximal size, or a round behind the
first `m` blocks failed. -/
inductive WriteEnd (s₀ : FsState) (r₀ : Inode) (m start : ℕ) (w₀ : List UInt8) :
    Except FsErr (WriteLoop × Bool) → FsState → Prop
  | done {st : WriteLoop} {s : FsState} {k : ℕ} (h : Written s₀ r₀ start w₀ st s k)
      (hall : st.wbuf = []) : WriteEnd s₀ r₀ m start w₀ (.ok (st, false)) s
  | full {st : WriteLoop} {s s' : FsState} (h : Written s₀ r₀ start w₀ st s maxFileBlks)
      (hmore : st.wbuf ≠ []) (htouched : Touched s st.ino maxFileBlks s') :
      WriteEnd s₀ r₀ m start w₀ (.ok (st, true)) s'
  | failed {st : WriteLoop} {s s' : FsState} {k : ℕ} {e : FsErr} (h : Written s₀ r₀ start w₀ st s k)
      (hmore : st.wbuf ≠ []) (htouched : Touched s st.ino k s') (hm : m ≤ k) :
      WriteEnd s₀ r₀ m start w₀ (.error e) s'

def roundRead (newBlk : Bool) (len : ℕ) (v : UInt64) : FsM Block :=
  if newBlk = false ∧ len < blkSz then Prog.reads (readBlk · v.toNat) else pure zeroBlk

lemma roundRead_bind {α : Type} (newBlk : Bool) (len : ℕ) (v : UInt64) (f : Block → FsM α) :
    (if newBlk = false ∧ len < blkSz then Prog.reads (readBlk · v.toNat) >>= f else pure zeroBlk >>= f) =
      roundRead newBlk len v >>= f := by
  rw [roundRead]
  split_ifs
  · rfl
  · rfl

lemma Written.found_mapped (h : Written s₀ r₀ start w₀ st s k) {v : UInt64}
    (hf : BlkFound st s k v st' s') (hclean : st'.usingNewBlk = false) :
    Mapped s st.ino k ∧ s' = s ∧ fileBlk s st.ino k = v := by
  rcases hf.block with ⟨hm, rfl, hino, -⟩ | ⟨-, -, hnew, -⟩
  · refine ⟨hm, rfl, ?_⟩
    rw [← hino, hf.file_self]
  · rw [hnew] at hclean
    cases hclean

lemma Written.roundRead_ok (h : Written s₀ r₀ start w₀ st s k) {v : UInt64}
    (hf : BlkFound st s k v st' s') {b : Block} {s'' : FsState}
    (hb : roundRead st'.usingNewBlk (min st.wbuf.length (blkSz - st.currFileOff % blkSz)) v s' =
      (.ok b, s'')) :
    s'' = s' ∧ (blkData s st.ino k = b ∨ st.currFileOff % blkSz = 0 ∧ blkSz ≤ st.wbuf.length) := by
  have hpos : 0 < blkSz := by decide
  rw [roundRead] at hb
  split_ifs at hb with hread
  · obtain ⟨hm, rfl, hv⟩ := h.found_mapped hf hread.1
    obtain ⟨hb, rfl⟩ := Prog.reads_eq_ok.mp hb
    refine ⟨rfl, Or.inl ?_⟩
    rw [Mapped, hv] at hm
    rw [blkData, hv, dataAt_of_readBlk hm hb]
  · cases hb
    refine ⟨rfl, ?_⟩
    by_cases hm : Mapped s st.ino k
    · have hclean : st'.usingNewBlk = false := by
        rcases hf.block with ⟨-, -, -, hsame, -⟩ | ⟨hnot, -⟩
        · rw [hsame, h.clean]
        · exact absurd hm hnot
      have hfull : ¬min st.wbuf.length (blkSz - st.currFileOff % blkSz) < blkSz :=
        fun hlt => hread ⟨hclean, hlt⟩
      refine Or.inr ?_
      omega
    · exact Or.inl (blkData_of_not_mapped hm)

lemma Written.roundRead_error (h : Written s₀ r₀ start w₀ st s k) (hok : FileOk s₀ r₀ m) {v : UInt64}
    (hf : BlkFound st s k v st' s') {len : ℕ} {e : FsErr} {s'' : FsState}
    (he : roundRead st'.usingNewBlk len v s' = (.error e, s'')) :
    s'' = s' ∧ m ≤ k := by
  rw [roundRead] at he
  split_ifs at he with hread
  · obtain ⟨-, rfl, hv⟩ := h.found_mapped hf hread.1
    rw [Prog.reads_apply, Prod.mk.injEq] at he
    refine ⟨he.2.symm, ?_⟩
    by_contra hlt
    obtain ⟨c, hc⟩ := h.readable hok (Nat.not_le.mp hlt) hf.lt
    rw [hv] at hc
    rw [hc] at he
    cases he.1
  · cases he

lemma Written.block_usable (h : Written s₀ r₀ start w₀ st s k) (hok : FileOk s₀ r₀ m) {v : UInt64}
    (hf : BlkFound st s k v st' s') (hv : ¬s'.Usable v.toNat) : m ≤ k := by
  rcases hf.block with ⟨hm, rfl, hino, -⟩ | ⟨hnot, -⟩
  · by_contra hlt
    obtain ⟨c, hc⟩ := h.readable hok (Nat.not_le.mp hlt) hf.lt
    rw [← hino, hf.file_self] at hc
    exact hv (readBlk_eq_ok.mp hc).1
  · exact h.size_le hok hnot hf.lt

theorem writeLoop_end (hok : FileOk s₀ r₀ m) {fuel : ℕ} (h : Written s₀ r₀ start w₀ st s k)
    (hfuel : st.wbuf.length ≤ fuel) :
    WriteEnd s₀ r₀ m start w₀ (writeLoop fuel st s).1 (writeLoop fuel st s).2 := by
  induction fuel generalizing st s k with
  | zero => exact .done h (List.length_eq_zero_iff.mp (Nat.le_zero.mp hfuel))
  | succ fuel ih =>
    have hdevice : s.numBlks < 2^64 := by
      rw [h.numBlks]
      exact hok.device
    rw [writeLoop]
    by_cases hmore : st.wbuf = []
    · rw [if_pos hmore]
      exact .done h hmore
    · rw [if_neg hmore]
      rcases hnext : nextWriteBlk st s with ⟨e | q, s'⟩
      · obtain ⟨htouched, hready⟩ := nextWriteBlk_error h.position h.placed hdevice hnext
        rw [Prog.bind_of_error hnext]
        apply WriteEnd.failed h hmore htouched
        by_contra hlt
        exact hready (h.ready hok (Nat.not_le.mp hlt))
      · rw [Prog.bind_of_ok hnext]
        cases q with
        | none =>
          obtain ⟨htouched, hge⟩ := nextWriteBlk_none h.position h.placed hdevice hnext
          obtain rfl : k = maxFileBlks := le_antisymm h.limit hge
          exact .full h hmore htouched
        | some q =>
          obtain ⟨v, st'⟩ := q
          have hf := nextWriteBlk_some h.position h.placed hdevice hnext
          obtain ⟨hwbuf, hoff, -⟩ := hf.loop
          dsimp only
          rw [hwbuf, hoff, roundRead_bind]
          rcases hb : roundRead st'.usingNewBlk (min st.wbuf.length (blkSz - st.currFileOff % blkSz)) v
            s' with ⟨e | b, s''⟩
          · obtain ⟨rfl, hsize⟩ := h.roundRead_error hok hf hb
            rw [Prog.bind_of_error hb]
            exact .failed h hmore hf.touched hsize
          · obtain ⟨rfl, hdata⟩ := h.roundRead_ok hf hb
            rw [Prog.bind_of_ok hb]
            by_cases hv : s''.Usable v.toNat
            · rw [Prog.bind_of_ok (writeBlk_of_usable hv)]
              apply ih (h.step hok hmore hf hv hdata)
              have hpos := List.length_pos_of_ne_nil hmore
              have hlt : st.currFileOff % blkSz < blkSz := Nat.mod_lt _ (by decide)
              dsimp only
              rw [List.length_drop]
              omega
            · rcases hw : writeBlk v.toNat (b.write (st.currFileOff % blkSz)
                (st.wbuf.take (min st.wbuf.length (blkSz - st.currFileOff % blkSz)))) s'' with ⟨e | u, t⟩
              · obtain ⟨rfl, -⟩ := writeBlk_eq_error hw
                rw [Prog.bind_of_error hw]
                exact .failed h hmore hf.touched (h.block_usable hok hf hv)
              · exact absurd (writeBlk_eq_ok.mp hw).1 hv

lemma Written.init (hok : FileOk s₀ r₀ m) (hstart : start ≤ maxFileSize) :
    Written s₀ r₀ start w₀ ⟨w₀, start, start / blkSz, none, false, false, r₀⟩ s₀ (start / blkSz) := by
  refine ⟨hok.placed, rfl, rfl, rfl, rfl, rfl, rfl, rfl, rfl, fun _ _ _ => rfl, fun _ h => h, le_rfl,
    fun _ h => Or.inl h, rfl, fun _ _ => rfl, fun _ => rfl, le_rfl, ?_, rfl, fun _ => rfl,
    le_max_left _ _, ?_, ?_, fun _ => rfl, fun h => ?_⟩
  · dsimp only
    rw [Nat.sub_self, List.drop_zero]
  · exact Nat.div_le_of_le_mul (by rw [Nat.mul_comm]; exact hstart)
  · intro p
    dsimp only
    rw [if_neg (by omega)]
  · cases h

end Invariant

end Bfs.Native
