import Bfs.Native.View

/-! What the functions on blocks, inodes and handles do to the parts of the volume when they
succeed. -/
namespace Bfs.Native
open ByteSeq Bfs.Fs

variable {s s' : FsState} {u : Unit}

section Blocks

variable {b : ℕ} {c : Block}

lemma writeBlk_of_usable (hb : s.Usable b) : writeBlk b c s = (.ok (), s.setBlk b c) := by
  rw [writeBlk, hb.1, if_neg (by simp), if_neg (Nat.not_le.mpr hb.2)]

lemma writeBlk_eq_ok : writeBlk b c s = (.ok u, s') ↔ s.Usable b ∧ s' = s.setBlk b c := by
  constructor
  · intro h
    rw [writeBlk] at h
    split_ifs at h with hmeta hn
    · cases h
    · cases h
    · cases h
      exact ⟨⟨by simpa using hmeta, Nat.not_le.mp hn⟩, rfl⟩
  · rintro ⟨hb, rfl⟩
    exact writeBlk_of_usable hb

def FsState.addFree (s : FsState) (k : ℕ) : FsState :=
  { s with sb := { s.sb with noDblocksFree := s.sb.noDblocksFree + k } }

def FsState.takeBlk (s : FsState) : FsState :=
  { s with sb := { s.sb with
    noDblocksFree := s.sb.noDblocksFree - 1, nextVbid := s.sb.nextVbid + 1 } }

lemma allocBlk_of_free (h : s.sb.noDblocksFree ≠ 0) : allocBlk s = (.ok s.sb.nextVbid, s.takeBlk) := by
  rw [allocBlk, if_neg h]
  rfl

lemma allocBlk_of_full (h : s.sb.noDblocksFree = 0) : allocBlk s = (.ok 0, s) := by
  rw [allocBlk, if_pos h]

lemma allocBlk_eq_ok {b : UInt64} (hb : b ≠ 0) (h : allocBlk s = (.ok b, s')) :
    s.sb.noDblocksFree ≠ 0 ∧ b = s.sb.nextVbid ∧ s' = s.takeBlk := by
  by_cases hfree : s.sb.noDblocksFree = 0
  · rw [allocBlk_of_full hfree] at h
    cases h
    exact absurd rfl hb
  · rw [allocBlk_of_free hfree] at h
    cases h
    exact ⟨hfree, rfl, rfl⟩

lemma deallocBlk_eq_ok {b : UInt64} (h : deallocBlk b s = (.ok true, s')) :
    s.dataStart < b.toNat ∧ s.sb.noDblocksFree ≠ s.sb.noDblocks ∧ s' = s.addFree 1 := by
  rw [deallocBlk] at h
  split_ifs at h with hcond
  · cases h
  · rw [not_or, Nat.not_le] at hcond
    rw [Prod.mk.injEq] at h
    exact ⟨hcond.1, hcond.2, h.2.symm⟩

@[simp] lemma dataStart_addFree (k : ℕ) : (s.addFree k).dataStart = s.dataStart := rfl
@[simp] lemma addFree_zero : s.addFree 0 = s := rfl
@[simp] lemma addFree_addFree (k m : ℕ) : (s.addFree k).addFree m = s.addFree (k+m) := by
  simp only [FsState.addFree, Nat.add_assoc]

lemma deallocBlks_eq_ok {msg : String} {bs : List UInt64} {all : Bool}
    (h : deallocBlks msg bs s = (.ok all, s')) :
    s' = s.addFree (bs.takeWhile fun b => decide (s.dataStart < b.toNat)).length ∧
      all = bs.all fun b => decide (s.dataStart < b.toNat) := by
  induction bs generalizing s with
  | nil =>
    cases h
    simp
  | cons b bs ih =>
    rw [deallocBlks, Prog.gets_bind_apply] at h
    by_cases hb : b.toNat ≤ s.dataStart
    · rw [if_pos hb] at h
      cases h
      simp [Nat.not_lt.mpr hb]
    · rw [if_neg hb] at h
      obtain ⟨ok, t, hdealloc, h⟩ := Prog.bind_eq_ok.mp h
      obtain ⟨rfl, h⟩ := Prog.require_bind_eq_ok.mp h
      obtain ⟨hlt, -, rfl⟩ := deallocBlk_eq_ok hdealloc
      obtain ⟨rfl, rfl⟩ := ih h
      simp only [List.takeWhile_cons, List.all_cons, hlt, decide_true, if_true, List.length_cons,
        addFree_addFree, Bool.true_and, Nat.add_comm 1]
      exact ⟨rfl, rfl⟩

lemma deleteInodeIblks_eq_ok {r : Inode} (h : deleteInodeIblks r s = (.ok u, s')) :
    ∃ k, s' = s.addFree k := by
  obtain ⟨all, t, hdirect, h⟩ := Prog.bind_eq_ok.mp h
  obtain ⟨rfl, -⟩ := deallocBlks_eq_ok hdirect
  split_ifs at h
  · rw [deleteIndirect, Prog.gets_bind_apply] at h
    split_ifs at h
    · cases h
      exact ⟨_, rfl⟩
    · obtain ⟨b, -, h⟩ := Prog.reads_bind_eq_ok.mp h
      obtain ⟨all', t', hindirect, h⟩ := Prog.bind_eq_ok.mp h
      obtain ⟨rfl, -⟩ := deallocBlks_eq_ok hindirect
      split_ifs at h
      · obtain ⟨ok, t'', hlast, h⟩ := Prog.bind_eq_ok.mp h
        obtain ⟨rfl, rfl⟩ := Prog.require_eq_ok.mp h
        obtain ⟨-, -, rfl⟩ := deallocBlk_eq_ok hlast
        simp only [addFree_addFree]
        exact ⟨_, rfl⟩
      · cases h
        simp only [addFree_addFree]
        exact ⟨_, rfl⟩
  · cases h
    exact ⟨_, rfl⟩

end Blocks

section Views

@[simp] lemma view_inode : s.view.inode = s.inode := rfl

end Views

section Inodes

variable {i : UInt64} {r : Inode}

lemma writeInodeAt_eq_ok (hi : i.toNat < numInodes) (h : writeInodeAt i r s = (.ok u, s')) :
    s'.view = s.view.setInode i r ∧ (s.inode i).isSome := by
  obtain ⟨c, hc, h⟩ := Prog.reads_bind_eq_ok.mp h
  obtain ⟨-, rfl⟩ := writeBlk_eq_ok.mp h
  refine ⟨view_setBlk_itab hi hc r, ?_⟩
  rw [Option.isSome_iff_exists]
  exact ⟨_, inode_eq_some.mpr ⟨hi, c, hc, rfl⟩⟩

lemma exists_writeInodeAt (hi : (s.inode i).isSome) (r : Inode) :
    ∃ s', writeInodeAt i r s = (.ok (), s') := by
  obtain ⟨r₀, hr₀⟩ := Option.isSome_iff_exists.mp hi
  obtain ⟨-, c, hc, -⟩ := inode_eq_some.mp hr₀
  refine ⟨s.setBlk (itabBlkLoc i) (r.serialize c (itabBlkOff i)), ?_⟩
  rw [writeInodeAt, Prog.reads_bind_of_ok (f := fun s => readBlk s (itabBlkLoc i)) hc]
  exact writeBlk_of_usable (readBlk_eq_ok.mp hc).1

end Inodes

end Bfs.Native
