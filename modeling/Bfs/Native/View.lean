import Bfs.Lib.Fallible
import Bfs.Native.FileIo

/-! The volume as its parts: the inode table, the inode bitmap and the data blocks. Each function that
writes a block changes one part, at one place. -/
namespace Bfs.Native
open ByteSeq Bfs.Fs

@[ext] structure View where
  numBlks : ℕ
  inode : UInt64 → Option Inode
  bit : ℕ → Option Bool
  blk : ℕ → Option Block
  sb : SuperBlock
  openFileTab : List (UInt64 × UInt64)
  nextFd : UInt32

namespace FsState

variable (s : FsState)

def inode (i : UInt64) : Option Inode :=
  if i.toNat < numInodes then
    (readBlk s (itabBlkLoc i)).toOption.map (Inode.deserialize · (itabBlkOff i))
  else none

def bit (k : ℕ) : Option Bool :=
  if k < numIbitmapBlocks*blkSzBits then
    (readBlk s (ibmRelStartBlkNum + k/blkSzBits)).toOption.map (testBit (k % blkSzBits))
  else none

def blk (b : ℕ) : Option Block := if s.dataStart ≤ b then (readBlk s b).toOption else none

def view : View := ⟨s.numBlks, s.inode, s.bit, s.blk, s.sb, s.openFileTab, s.nextFd⟩

end FsState

namespace View

def setInode (v : View) (i : UInt64) (r : Inode) : View :=
  { v with inode := Function.update v.inode i (some r) }

def setBlk (v : View) (b : ℕ) (c : Block) : View :=
  { v with blk := Function.update v.blk b (some c) }

end View

section Regions

lemma numIbitmapBlocks_eq : numIbitmapBlocks = 4 := by decide
lemma blkSzBits_eq : blkSzBits = 32768 := rfl
lemma ibmRelStartBlkNum_eq : ibmRelStartBlkNum = 2 := rfl
lemma itabRelStartBlkNum_eq : itabRelStartBlkNum = 6 := by decide
lemma numInodes_eq : numInodes = 100000 := rfl

lemma itabBlkLoc_eq (i : UInt64) : itabBlkLoc i = 6 + i.toNat/16 := by
  rw [itabBlkLoc, itabRelStartBlkNum_eq, numInodesPerBlock_eq]

lemma dataStart_ge (s : FsState) : 6257 ≤ s.dataStart := by
  rw [FsState.dataStart, dataRelStartBlkNum_eq]
  omega

def FsState.Usable (s : FsState) (b : ℕ) : Prop := s.cfg.isMeta b = false ∧ b < s.numBlks

lemma isMeta_eq_false {s : FsState} {b : ℕ} (h : b < 6256 ∨ s.dataStart ≤ b) :
    s.cfg.isMeta b = false := by
  have hstart : s.cfg.isMeta b = (decide (6256 ≤ b) && decide (b < s.dataStart)) := by
    rw [BlkCfg.isMeta, metadataRelStartBlkNum_eq]
    rfl
  rw [hstart]
  rcases h with h | h
  · simp [Nat.not_le.mpr h]
  · simp [Nat.not_lt.mpr h]

end Regions

section Read

variable {s : FsState} {b : ℕ} {c : Block}

lemma readBlk_eq_ok : readBlk s b = .ok c ↔ s.Usable b ∧ s.disk b = some c := by
  rw [readBlk, FsState.Usable]
  cases hmeta : s.cfg.isMeta b with
  | true => simp
  | false =>
    by_cases hn : s.numBlks ≤ b
    · simp [hn, Nat.not_lt.mpr hn]
    · cases hd : s.disk b with
      | none => simp [hn]
      | some x => simp [hn, Nat.not_le.mp hn]

lemma toOption_eq_some {ε α : Type*} {x : Except ε α} {a : α} : x.toOption = some a ↔ x = .ok a := by
  cases x <;> simp [Except.toOption]

lemma inode_eq_some {i : UInt64} {r : Inode} : s.inode i = some r ↔ i.toNat < numInodes ∧
    ∃ c, readBlk s (itabBlkLoc i) = .ok c ∧ Inode.deserialize c (itabBlkOff i) = r := by
  rw [FsState.inode]
  by_cases hi : i.toNat < numInodes
  · rw [if_pos hi, Option.map_eq_some_iff]
    simp [hi, toOption_eq_some]
  · simp [hi]

lemma bit_eq_some {k : ℕ} {x : Bool} : s.bit k = some x ↔ k < numIbitmapBlocks*blkSzBits ∧
    ∃ c, readBlk s (ibmRelStartBlkNum + k/blkSzBits) = .ok c ∧ testBit (k % blkSzBits) c = x := by
  rw [FsState.bit]
  by_cases hk : k < numIbitmapBlocks*blkSzBits
  · rw [if_pos hk, Option.map_eq_some_iff]
    simp [hk, toOption_eq_some]
  · simp [hk]

/-- `read_inode` of a stored inode. -/
lemma readInode_of_inode {i : UInt64} {r : Inode} (h : s.inode i = some r) (hr : r.iNo ≠ 0) :
    readInode s i = .ok r := by
  obtain ⟨-, c, hc, rfl⟩ := inode_eq_some.mp h
  rw [readInode, hc, Fallible.ok_bind, if_neg hr]

end Read

section Write

variable {s : FsState} {b : ℕ} {c : Block}

lemma readBlk_setBlk (hb : s.Usable b) (c : Block) (a : ℕ) :
    readBlk (s.setBlk b c) a = if a = b then .ok c else readBlk s a := by
  split_ifs with hab
  · subst hab
    exact readBlk_eq_ok.mpr ⟨hb, Function.update_self ..⟩
  · have hdisk : (s.setBlk b c).disk a = s.disk a := Function.update_of_ne hab ..
    rw [readBlk, readBlk, hdisk]
    rfl

lemma view_setBlk_data (hb : s.Usable b) (hdata : s.dataStart ≤ b) (c : Block) :
    (s.setBlk b c).view = s.view.setBlk b c := by
  have hge := dataStart_ge s
  apply View.ext
  · rfl
  · funext i
    by_cases hi : i.toNat < numInodes
    · have hne : itabBlkLoc i ≠ b := by
        rw [itabBlkLoc_eq]
        rw [numInodes_eq] at hi
        omega
      simp only [FsState.view, View.setBlk, FsState.inode, readBlk_setBlk hb, if_neg hne]
    · simp only [FsState.view, View.setBlk, FsState.inode, if_neg hi]
  · funext k
    by_cases hk : k < numIbitmapBlocks*blkSzBits
    · have hne : ibmRelStartBlkNum + k/blkSzBits ≠ b := by
        rw [ibmRelStartBlkNum_eq, blkSzBits_eq]
        rw [numIbitmapBlocks_eq, blkSzBits_eq] at hk
        omega
      simp only [FsState.view, View.setBlk, FsState.bit, readBlk_setBlk hb, if_neg hne]
    · simp only [FsState.view, View.setBlk, FsState.bit, if_neg hk]
  · funext a
    have hstart : (s.setBlk b c).dataStart = s.dataStart := rfl
    simp only [FsState.view, View.setBlk, FsState.blk, hstart, readBlk_setBlk hb,
      Function.update_apply]
    split_ifs with ha hab hab
    · rfl
    · rfl
    · omega
    · rfl
  · rfl
  · rfl
  · rfl

lemma view_setBlk_itab {i : UInt64} (hi : i.toNat < numInodes)
    (hc : readBlk s (itabBlkLoc i) = .ok c) (r : Inode) :
    (s.setBlk (itabBlkLoc i) (r.serialize c (itabBlkOff i))).view = s.view.setInode i r := by
  have hge := dataStart_ge s
  have hb := (readBlk_eq_ok.mp hc).1
  have hloc := itabBlkLoc_eq i
  have hnum := numInodes_eq
  apply View.ext
  · rfl
  · funext j
    simp only [FsState.view, View.setInode, FsState.inode, readBlk_setBlk hb,
      Function.update_apply]
    by_cases hj : j.toNat < numInodes
    · rw [if_pos hj, if_pos hj]
      by_cases hblk : itabBlkLoc j = itabBlkLoc i
      · rw [if_pos hblk, hblk, hc]
        simp only [Except.toOption, Option.map_some, Inode.deserialize_serialize_at]
        by_cases hoff : itabBlkOff j = itabBlkOff i
        · rw [if_pos hoff, if_pos (eq_of_itab_eq hblk hoff)]
        · rw [if_neg hoff, if_neg (fun h => hoff (by rw [h]))]
      · rw [if_neg hblk, if_neg (fun h => hblk (by rw [h]))]
    · rw [if_neg hj, if_neg hj, if_neg (fun h => hj (by rw [h]; exact hi))]
  · funext k
    by_cases hk : k < numIbitmapBlocks*blkSzBits
    · have hne : ibmRelStartBlkNum + k/blkSzBits ≠ itabBlkLoc i := by
        rw [ibmRelStartBlkNum_eq, blkSzBits_eq]
        rw [numIbitmapBlocks_eq, blkSzBits_eq] at hk
        omega
      simp only [FsState.view, View.setInode, FsState.bit, readBlk_setBlk hb, if_neg hne]
    · simp only [FsState.view, View.setInode, FsState.bit, if_neg hk]
  · funext a
    have hstart : ∀ c, (s.setBlk (itabBlkLoc i) c).dataStart = s.dataStart := fun _ => rfl
    by_cases ha : s.dataStart ≤ a
    · have hne : a ≠ itabBlkLoc i := by omega
      simp only [FsState.view, View.setInode, FsState.blk, hstart, readBlk_setBlk hb, if_neg hne]
    · simp only [FsState.view, View.setInode, FsState.blk, hstart, if_neg ha]
  · rfl
  · rfl
  · rfl

end Write

end Bfs.Native
