import Bfs.Native.Effects

/-! The bytes of a file. The direct blocks of an inode and the entries of its indirect block are one
sequence of blocks, and a block that is not in use stands for zeros. -/
namespace Bfs.Native
open ByteSeq LittleEndian Bfs.Fs

def maxFileBlks : ℕ := numDirectBlocks + numBlksPerIb
def maxFileSize : ℕ := maxFileBlks * blkSz

lemma numDirectBlocks_eq : numDirectBlocks = 12 := rfl
lemma numBlksPerIb_eq : numBlksPerIb = 512 := by decide
lemma maxFileBlks_eq : maxFileBlks = 524 := by decide

section Layout

variable (s : FsState) (r : Inode)

def FsState.dataAt (v : UInt64) : Block :=
  if s.dataStart ≤ v.toNat then (s.disk v.toNat).getD zeroBlk else zeroBlk

def indirectOf : IndirectBlock := IndirectBlock.deserialize (s.dataAt r.indirect)

def fileBlk (k : ℕ) : UInt64 :=
  if h : k < numDirectBlocks then r.iBlks.get ⟨k, Nat.lt_succ_of_lt h⟩
  else (indirectOf s r).toList.getD (k - numDirectBlocks) 0

def Mapped (k : ℕ) : Prop := s.dataStart ≤ (fileBlk s r k).toNat

instance (k : ℕ) : Decidable (Mapped s r k) := inferInstanceAs (Decidable (_ ≤ _))

def blkData (k : ℕ) : Block := s.dataAt (fileBlk s r k)

def byteAt (p : ℕ) : UInt8 := (blkData s r (p / blkSz)).toList.getD (p % blkSz) 0

end Layout

section Numbers

variable {s s' : FsState} {r r' : Inode}

lemma dataStart_pos (s : FsState) : 0 < s.dataStart := by
  have hge := dataStart_ge s
  omega

@[simp] lemma dataStart_setBlk (b : ℕ) (c : Block) : (s.setBlk b c).dataStart = s.dataStart := rfl
@[simp] lemma dataStart_takeBlk : s.takeBlk.dataStart = s.dataStart := rfl
@[simp] lemma dataAt_takeBlk (v : UInt64) : s.takeBlk.dataAt v = s.dataAt v := rfl

lemma dataAt_of_unused {v : UInt64} (h : ¬s.dataStart ≤ v.toNat) : s.dataAt v = zeroBlk := if_neg h

lemma dataAt_setBlk_of_ne {b : ℕ} {v : UInt64} (h : v.toNat ≠ b) (c : Block) :
    (s.setBlk b c).dataAt v = s.dataAt v := by
  have hdisk : (s.setBlk b c).disk v.toNat = s.disk v.toNat := Function.update_of_ne h ..
  rw [FsState.dataAt, FsState.dataAt, dataStart_setBlk, hdisk]

lemma dataAt_setBlk_self {v : UInt64} (h : s.dataStart ≤ v.toNat) (c : Block) :
    (s.setBlk v.toNat c).dataAt v = c := by
  have hdisk : (s.setBlk v.toNat c).disk v.toNat = some c := Function.update_self ..
  rw [FsState.dataAt, dataStart_setBlk, if_pos h, hdisk, Option.getD_some]

lemma dataAt_of_readBlk {v : UInt64} {c : Block} (hv : s.dataStart ≤ v.toNat)
    (h : readBlk s v.toNat = .ok c) : s.dataAt v = c := by
  rw [FsState.dataAt, if_pos hv, (readBlk_eq_ok.mp h).2, Option.getD_some]

lemma deserialize_zeroBlk : IndirectBlock.deserialize zeroBlk = Buf.fill 0 numBlksPerIb := by
  apply Buf.ext
  exact ofWords_zeros numBlksPerIb blkSz

lemma indirectOf_of_unused (h : ¬s.dataStart ≤ r.indirect.toNat) :
    indirectOf s r = Buf.fill 0 numBlksPerIb := by
  rw [indirectOf, dataAt_of_unused h, deserialize_zeroBlk]

lemma fileBlk_direct {k : ℕ} (h : k < numDirectBlocks) :
    fileBlk s r k = r.iBlks.get ⟨k, Nat.lt_succ_of_lt h⟩ := dif_pos h

lemma fileBlk_indirect {k : ℕ} (h : ¬k < numDirectBlocks) :
    fileBlk s r k = (indirectOf s r).toList.getD (k - numDirectBlocks) 0 := dif_neg h

lemma fileBlk_get {k idx : ℕ} (hk : idx + numDirectBlocks = k) (h : idx < numBlksPerIb) :
    fileBlk s r k = (indirectOf s r).get ⟨idx, h⟩ := by
  have hget := (indirectOf s r).getElem?_toList ⟨idx, h⟩
  rw [fileBlk_indirect (by omega), show k - numDirectBlocks = idx by omega, List.getD_eq_getElem?_getD]
  dsimp only at hget
  rw [hget, Option.getD_some]

lemma not_mapped_zero {k : ℕ} (h : fileBlk s r k = 0) : ¬Mapped s r k := by
  have hpos := dataStart_pos s
  rw [Mapped, h, UInt64.toNat_zero]
  omega

lemma Mapped.lt {k : ℕ} (h : Mapped s r k) : k < maxFileBlks := by
  by_contra hk
  apply not_mapped_zero _ h
  have hlen := (indirectOf s r).length_toList
  rw [maxFileBlks] at hk
  rw [fileBlk_indirect (by omega), List.getD_eq_default _ _ (by omega)]

lemma Mapped.indirect {k : ℕ} (h : Mapped s r k) (hk : ¬k < numDirectBlocks) :
    s.dataStart ≤ r.indirect.toNat := by
  by_contra hunused
  apply not_mapped_zero _ h
  have hlt : k - numDirectBlocks < numBlksPerIb := by
    have := h.lt
    rw [maxFileBlks] at this
    omega
  rw [fileBlk_indirect hk, indirectOf_of_unused hunused, Buf.toList_fill, List.getD_replicate _ hlt]

end Numbers

section Writes

variable {s : FsState} {r : Inode}

lemma indirectOf_setBlk {b : ℕ} (hb : r.indirect.toNat ≠ b) (c : Block) :
    indirectOf (s.setBlk b c) r = indirectOf s r := by
  rw [indirectOf, indirectOf, dataAt_setBlk_of_ne hb]

lemma fileBlk_setBlk {b : ℕ} (hb : r.indirect.toNat ≠ b) (c : Block) (k : ℕ) :
    fileBlk (s.setBlk b c) r k = fileBlk s r k := by
  rw [fileBlk, fileBlk, indirectOf_setBlk hb]

lemma blkData_setBlk_of_ne {b k : ℕ} (hb : r.indirect.toNat ≠ b) (hk : (fileBlk s r k).toNat ≠ b)
    (c : Block) : blkData (s.setBlk b c) r k = blkData s r k := by
  rw [blkData, blkData, fileBlk_setBlk hb, dataAt_setBlk_of_ne hk]

lemma blkData_setBlk_self {k : ℕ} (hib : r.indirect.toNat ≠ (fileBlk s r k).toNat) (hk : Mapped s r k)
    (c : Block) : blkData (s.setBlk (fileBlk s r k).toNat c) r k = c := by
  rw [blkData, fileBlk_setBlk hib, dataAt_setBlk_self hk]

lemma indirect_setDirect {k : ℕ} (hk : k < numDirectBlocks) (v : UInt64) :
    (r.setIBlk ⟨k, Nat.lt_succ_of_lt hk⟩ v).indirect = r.indirect := by
  rw [Inode.indirect, Inode.setIBlk, Buf.get_set, if_neg]
  · rfl
  · intro h
    have hidx := congrArg Fin.val h
    simp only [indirectIdx] at hidx
    omega

lemma fileBlk_setDirect {k : ℕ} (hk : k < numDirectBlocks) (v : UInt64) (j : ℕ) :
    fileBlk s (r.setIBlk ⟨k, Nat.lt_succ_of_lt hk⟩ v) j = if j = k then v else fileBlk s r j := by
  by_cases hj : j < numDirectBlocks
  · rw [fileBlk_direct hj, fileBlk_direct hj, Inode.setIBlk, Buf.get_set]
    exact if_congr (Fin.ext_iff.trans eq_comm) rfl rfl
  · rw [fileBlk_indirect hj, fileBlk_indirect hj, indirectOf, indirect_setDirect hk, if_neg (by omega),
      indirectOf]

lemma indirect_setIndirect (v : UInt64) : (r.setIBlk indirectIdx v).indirect = v := by
  rw [Inode.indirect, Inode.setIBlk, Buf.get_set, if_pos rfl]

lemma fileBlk_setIndirect {v : UInt64} (hunused : ¬s.dataStart ≤ r.indirect.toNat)
    (hv : s.dataStart ≤ v.toNat) (j : ℕ) :
    fileBlk (s.setBlk v.toNat zeroBlk) (r.setIBlk indirectIdx v) j = fileBlk s r j := by
  by_cases hj : j < numDirectBlocks
  · rw [fileBlk_direct hj, fileBlk_direct hj, Inode.setIBlk, Buf.get_set, if_neg]
    intro h
    have := congrArg Fin.val h
    simp only [indirectIdx] at this
    omega
  · rw [fileBlk_indirect hj, fileBlk_indirect hj, indirectOf_of_unused hunused, indirectOf,
      indirect_setIndirect, dataAt_setBlk_self hv, deserialize_zeroBlk]

lemma indirectOf_serialize (hib : s.dataStart ≤ r.indirect.toNat) (ib : IndirectBlock) :
    indirectOf (s.setBlk r.indirect.toNat (IndirectBlock.serialize ib zeroBlk)) r = ib := by
  rw [indirectOf, dataAt_setBlk_self hib, IndirectBlock.deserialize_serialize]

lemma fileBlk_setEntry (hib : s.dataStart ≤ r.indirect.toNat) {idx : ℕ} (h : idx < numBlksPerIb)
    (v : UInt64) (j : ℕ) :
    fileBlk (s.setBlk r.indirect.toNat
      (IndirectBlock.serialize ((indirectOf s r).set ⟨idx, h⟩ v) zeroBlk)) r j =
        if j = idx + numDirectBlocks then v else fileBlk s r j := by
  by_cases hj : j < numDirectBlocks
  · rw [fileBlk_direct hj, fileBlk_direct hj, if_neg (by omega)]
  · have hlen := (indirectOf s r).length_toList
    rw [fileBlk_indirect hj, fileBlk_indirect hj, indirectOf_serialize hib, Buf.toList_set,
      List.getD_eq_getElem?_getD, List.getElem?_set, List.getD_eq_getElem?_getD]
    dsimp only
    by_cases hidx : idx = j - numDirectBlocks
    · rw [if_pos hidx, if_pos (by omega), if_pos (by omega), Option.getD_some]
    · rw [if_neg hidx, if_neg (by omega)]

end Writes

section Placed

structure Placed (s : FsState) (r : Inode) : Prop where
  injective : ∀ j k, Mapped s r j → fileBlk s r j = fileBlk s r k → j = k
  given : ∀ k, Mapped s r k → (fileBlk s r k).toNat < s.sb.nextVbid.toNat
  indirect : s.dataStart ≤ r.indirect.toNat → r.indirect.toNat < s.sb.nextVbid.toNat
  apart : ∀ k, Mapped s r k → fileBlk s r k ≠ r.indirect
  next : s.dataStart ≤ s.sb.nextVbid.toNat

variable {s s' : FsState} {r r' : Inode} {k : ℕ}

lemma blkData_of_not_mapped (h : ¬Mapped s r k) : blkData s r k = zeroBlk := dataAt_of_unused h

namespace Placed

lemma ne_indirect (h : Placed s r) (hk : Mapped s r k) :
    r.indirect.toNat ≠ (fileBlk s r k).toNat := by
  intro heq
  exact h.apart k hk (UInt64.toNat_inj.mp heq.symm)

lemma ne_next (h : Placed s r) (hk : Mapped s r k) :
    (fileBlk s r k).toNat ≠ s.sb.nextVbid.toNat := (h.given k hk).ne

lemma indirect_ne_next (h : Placed s r) : r.indirect.toNat ≠ s.sb.nextVbid.toNat := by
  have hnext := h.next
  by_cases hib : s.dataStart ≤ r.indirect.toNat
  · exact (h.indirect hib).ne
  · omega

lemma write (h : Placed s r) (hk : Mapped s r k) (c : Block) :
    Placed (s.setBlk (fileBlk s r k).toNat c) r ∧
      (∀ j, fileBlk (s.setBlk (fileBlk s r k).toNat c) r j = fileBlk s r j) ∧
      ∀ j, blkData (s.setBlk (fileBlk s r k).toNat c) r j = if j = k then c else blkData s r j := by
  have hib := h.ne_indirect hk
  have hfile : ∀ j, fileBlk (s.setBlk (fileBlk s r k).toNat c) r j = fileBlk s r j :=
    fileBlk_setBlk hib c
  have hmapped : ∀ j, Mapped (s.setBlk (fileBlk s r k).toNat c) r j ↔ Mapped s r j := by
    intro j
    rw [Mapped, hfile]
    rfl
  refine ⟨⟨?_, ?_, h.indirect, ?_, h.next⟩, hfile, ?_⟩
  · intro i j hi heq
    rw [hfile, hfile] at heq
    exact h.injective i j ((hmapped i).mp hi) heq
  · intro j hj
    rw [hfile]
    exact h.given j ((hmapped j).mp hj)
  · intro j hj
    rw [hfile]
    exact h.apart j ((hmapped j).mp hj)
  · intro j
    split_ifs with hjk
    · rw [hjk]
      exact blkData_setBlk_self hib hk c
    · by_cases hj : Mapped s r j
      · apply blkData_setBlk_of_ne hib
        intro heq
        exact hjk (h.injective j k hj (UInt64.toNat_inj.mp heq))
      · rw [blkData_of_not_mapped hj, blkData_of_not_mapped (fun h' => hj ((hmapped j).mp h'))]

lemma extend (h : Placed s r) (hwrap : s.sb.nextVbid.toNat + 1 < 2^64)
    (hfile : ∀ j, fileBlk s' r' j = if j = k then s.sb.nextVbid else fileBlk s r j)
    (hib : r'.indirect = r.indirect) (hstart : s'.dataStart = s.dataStart)
    (hnext : s'.sb.nextVbid = s.sb.nextVbid + 1) : Placed s' r' := by
  have hto : s'.sb.nextVbid.toNat = s.sb.nextVbid.toNat + 1 := by
    rw [hnext, UInt64.toNat_add, UInt64.toNat_one, Nat.mod_eq_of_lt hwrap]
  have hold : ∀ {j}, j ≠ k → Mapped s' r' j → fileBlk s' r' j = fileBlk s r j ∧ Mapped s r j := by
    intro j hj hmapped
    have heq : fileBlk s' r' j = fileBlk s r j := by rw [hfile, if_neg hj]
    rw [Mapped, heq, hstart] at hmapped
    exact ⟨heq, hmapped⟩
  have hnew : fileBlk s' r' k = s.sb.nextVbid := by rw [hfile, if_pos rfl]
  have hne : ∀ {j}, j ≠ k → Mapped s' r' j → fileBlk s' r' j ≠ s.sb.nextVbid := by
    intro j hj hmapped heq
    obtain ⟨hsame, hm⟩ := hold hj hmapped
    exact h.ne_next hm (by rw [← hsame, heq])
  constructor
  · intro i j hi heq
    by_cases hik : i = k
    · by_contra hij
      have hj : j ≠ k := fun hj => hij (hik.trans hj.symm)
      rw [hik, hnew] at heq
      refine hne hj ?_ heq.symm
      rw [Mapped, ← heq, hstart]
      exact h.next
    · by_cases hjk : j = k
      · rw [hjk, hnew] at heq
        exact absurd heq (hne hik hi)
      · obtain ⟨hsame, hm⟩ := hold hik hi
        rw [hsame, hfile, if_neg hjk] at heq
        exact h.injective i j hm heq
  · intro j hj
    by_cases hjk : j = k
    · rw [hjk, hnew, hto]
      omega
    · obtain ⟨hsame, hm⟩ := hold hjk hj
      have := h.given j hm
      rw [hsame, hto]
      omega
  · intro hused
    rw [hib, hstart] at hused
    have := h.indirect hused
    rw [hib, hto]
    omega
  · intro j hj
    rw [hib]
    by_cases hjk : j = k
    · rw [hjk, hnew]
      intro heq
      exact h.indirect_ne_next (by rw [heq])
    · obtain ⟨hsame, hm⟩ := hold hjk hj
      rw [hsame]
      exact h.apart j hm
  · have := h.next
    rw [hstart, hto]
    omega

lemma addDirect (h : Placed s r) (hwrap : s.sb.nextVbid.toNat + 1 < 2^64) (hk : k < numDirectBlocks) :
    Placed s.takeBlk (r.setIBlk ⟨k, Nat.lt_succ_of_lt hk⟩ s.sb.nextVbid) := by
  exact h.extend hwrap (fileBlk_setDirect (s := s.takeBlk) hk _) (indirect_setDirect hk _) rfl rfl

lemma addEntry (h : Placed s r) (hwrap : s.sb.nextVbid.toNat + 1 < 2^64)
    (hib : s.dataStart ≤ r.indirect.toNat) {idx : ℕ} (hidx : idx < numBlksPerIb) :
    Placed (s.takeBlk.setBlk r.indirect.toNat
      (IndirectBlock.serialize ((indirectOf s r).set ⟨idx, hidx⟩ s.sb.nextVbid) zeroBlk)) r :=
  h.extend hwrap (k := idx + numDirectBlocks) (fileBlk_setEntry (s := s.takeBlk) hib hidx _) rfl rfl rfl

lemma addIndirect (h : Placed s r) (hwrap : s.sb.nextVbid.toNat + 1 < 2^64)
    (hunused : ¬s.dataStart ≤ r.indirect.toNat) :
    Placed (s.takeBlk.setBlk s.sb.nextVbid.toNat zeroBlk) (r.setIBlk indirectIdx s.sb.nextVbid) := by
  have hto : (s.sb.nextVbid + 1).toNat = s.sb.nextVbid.toNat + 1 := by
    rw [UInt64.toNat_add, UInt64.toNat_one, Nat.mod_eq_of_lt hwrap]
  have hfile : ∀ j, fileBlk (s.takeBlk.setBlk s.sb.nextVbid.toNat zeroBlk)
      (r.setIBlk indirectIdx s.sb.nextVbid) j = fileBlk s r j :=
    fileBlk_setIndirect (s := s.takeBlk) hunused h.next
  have hmapped : ∀ {j}, Mapped (s.takeBlk.setBlk s.sb.nextVbid.toNat zeroBlk)
      (r.setIBlk indirectIdx s.sb.nextVbid) j → Mapped s r j := by
    intro j hj
    rw [Mapped, hfile] at hj
    exact hj
  constructor
  · intro i j hi heq
    rw [hfile, hfile] at heq
    exact h.injective i j (hmapped hi) heq
  · intro j hj
    have := h.given j (hmapped hj)
    show _ < (s.sb.nextVbid + 1).toNat
    rw [hfile, hto]
    omega
  · intro _
    show _ < (s.sb.nextVbid + 1).toNat
    rw [indirect_setIndirect, hto]
    omega
  · intro j hj heq
    rw [hfile, indirect_setIndirect] at heq
    exact h.ne_next (hmapped hj) (by rw [heq])
  · have := h.next
    show s.dataStart ≤ (s.sb.nextVbid + 1).toNat
    rw [hto]
    omega

end Placed

end Placed

end Bfs.Native
