import Bfs.Native.Created

/-! The block allocator of the superblock over runs of `alloc_blk` and `dealloc_blk`. -/
namespace Bfs.Native
open ByteSeq Bfs.Fs

inductive BlkCall
  | alloc
  | dealloc (b : UInt64)
  deriving DecidableEq

/-- What `alloc_blk` should return while the blocks in `used` are referred to: another data block
behind the first, and 0 only if there is none. -/
def AllocRight (s : FsState) (used : Set ℕ) (b : UInt64) : Prop :=
  (b ≠ 0 → s.dataStart < b.toNat ∧ b.toNat < s.numBlks ∧ b.toNat ∉ used) ∧
    (b = 0 → ∀ k, s.dataStart < k → k < s.numBlks → k ∈ used)

def AllocsRight : FsState → Set ℕ → List BlkCall → Prop
  | _, _, [] => True
  | s, used, .alloc::cs => ∀ b s', allocBlk s = (.ok b, s') →
    AllocRight s used b ∧ AllocsRight s' (insert b.toNat used) cs
  | s, used, .dealloc b::cs => AllocsRight (deallocBlk b s).2 (used \ {b.toNat}) cs

structure FsState.Overcounted (s : FsState) (used : Set ℕ) : Prop where
  start : s.dataStart < s.sb.nextVbid.toNat
  next : s.sb.nextVbid.toNat ≤ s.numBlks
  size : s.numBlks < 2^64
  free : s.numBlks < s.sb.nextVbid.toNat + s.sb.noDblocksFree
  fresh : ∀ k ∈ used, k < s.sb.nextVbid.toNat

variable {s : FsState} {used : Set ℕ}

lemma FsState.Overcounted.dealloc (h : s.Overcounted used) (b : UInt64) :
    (deallocBlk b s).2.Overcounted (used \ {b.toNat}) ∧
      (deallocBlk b s).2.numBlks = s.numBlks ∧ (deallocBlk b s).2.sb.nextVbid = s.sb.nextVbid := by
  have hfresh : ∀ k ∈ used \ {b.toNat}, k < s.sb.nextVbid.toNat := fun k hk => h.fresh k hk.1
  rw [deallocBlk]
  split_ifs
  · exact ⟨⟨h.start, h.next, h.size, h.free, hfresh⟩, rfl, rfl⟩
  · exact ⟨⟨h.start, h.next, h.size, Nat.lt_succ_of_lt h.free, hfresh⟩, rfl, rfl⟩

lemma FsState.Overcounted.take (h : s.Overcounted used) (hlt : s.sb.nextVbid.toNat < s.numBlks) :
    s.takeBlk.sb.nextVbid.toNat = s.sb.nextVbid.toNat + 1 ∧
      s.takeBlk.Overcounted (insert s.sb.nextVbid.toNat used) := by
  have hnext : s.takeBlk.sb.nextVbid.toNat = s.sb.nextVbid.toNat + 1 := by
    have hsize := h.size
    show (s.sb.nextVbid + 1).toNat = _
    rw [UInt64.toNat_add, UInt64.toNat_one, Nat.mod_eq_of_lt (by omega)]
  have hfree : s.takeBlk.sb.noDblocksFree = s.sb.noDblocksFree - 1 := rfl
  refine ⟨hnext, ?_, ?_, h.size, ?_, ?_⟩
  · rw [hnext]
    exact Nat.lt_succ_of_lt h.start
  · rw [hnext]
    exact hlt
  · have hold := h.free
    rw [hnext, hfree]
    show s.numBlks < _
    omega
  · rw [hnext]
    rintro k (rfl | hk)
    · exact Nat.lt_succ_self _
    · exact Nat.lt_succ_of_lt (h.fresh k hk)

lemma allocsRight_alloc (hfree : s.sb.noDblocksFree ≠ 0) (cs : List BlkCall) :
    AllocsRight s used (.alloc::cs) ↔ AllocRight s used s.sb.nextVbid ∧
      AllocsRight s.takeBlk (insert s.sb.nextVbid.toNat used) cs := by
  rw [AllocsRight, allocBlk_of_free hfree]
  constructor
  · intro h
    exact h _ _ rfl
  · rintro h b s' ⟨⟩
    exact h

lemma FsState.Overcounted.allocsRight_iff (h : s.Overcounted used) (cs : List BlkCall) :
    AllocsRight s used cs ↔ s.sb.nextVbid.toNat + cs.count .alloc ≤ s.numBlks := by
  induction cs generalizing s used with
  | nil => simpa [AllocsRight] using h.next
  | cons c cs ih =>
    cases c with
    | dealloc b =>
      obtain ⟨hs, hnum, hnext⟩ := h.dealloc b
      rw [AllocsRight, ih hs, hnum, hnext, List.count_cons_of_ne BlkCall.noConfusion]
    | alloc =>
      have hnext := h.next
      have hfree := h.free
      have hright : AllocRight s used s.sb.nextVbid ↔ s.sb.nextVbid.toNat < s.numBlks := by
        have hne : s.sb.nextVbid ≠ 0 := by
          intro hzero
          have hstart := h.start
          rw [hzero] at hstart
          cases hstart
        have hunused : s.sb.nextVbid.toNat ∉ used := fun hmem => (h.fresh _ hmem).false
        simp [AllocRight, hne, h.start, hunused]
      rw [allocsRight_alloc (by omega), hright, List.count_cons_self]
      constructor
      · rintro ⟨hlt, hrest⟩
        obtain ⟨htaken, hs⟩ := h.take hlt
        have hcount : s.takeBlk.sb.nextVbid.toNat + _ ≤ s.numBlks := (ih hs).mp hrest
        omega
      · intro hcount
        have hlt : s.sb.nextVbid.toNat < s.numBlks := by omega
        obtain ⟨htaken, hs⟩ := h.take hlt
        refine ⟨hlt, (ih hs).mpr ?_⟩
        show s.takeBlk.sb.nextVbid.toNat + _ ≤ s.numBlks
        omega

lemma formatted_overcounted (noise : ℕ → Block) {n : ℕ} (hn : dataRelStartBlkNum n < n)
    (hsize : n < 2^64) :
    (formatted noise n).sb.nextVbid.toNat = dataRelStartBlkNum n + 1 ∧
      (formatted noise n).Overcounted {dataRelStartBlkNum n} := by
  have hnext := toNat_nextVbid_formatted noise (show dataRelStartBlkNum n + 1 < 2^64 by omega)
  have hfree : (formatted noise n).sb.noDblocksFree = n - dataRelStartBlkNum n := by
    have hstart : metadataRelStartBlkNum = 1 + 1 + numIbitmapBlocks + numItabBlocks := by decide
    show n - numIbitmapBlocks - numItabBlocks - numMetaBlocks n - 1 - 1 = _
    rw [dataRelStartBlkNum, hstart]
    omega
  refine ⟨hnext, ?_, ?_, hsize, ?_, ?_⟩
  · rw [hnext]
    exact Nat.lt_succ_self _
  · rw [hnext]
    exact hn
  · rw [hnext, hfree]
    show n < _
    omega
  · rintro k rfl
    rw [hnext]
    exact Nat.lt_succ_self _

/-- From formatting on, the allocations are right if and only if there are fewer of them than data
blocks, whatever is given back. -/
theorem allocs_right_iff (noise : ℕ → Block) {n : ℕ} (hn : dataRelStartBlkNum n < n)
    (hsize : n < 2^64) (cs : List BlkCall) :
    AllocsRight (formatted noise n) {dataRelStartBlkNum n} cs ↔
      cs.count .alloc < n - dataRelStartBlkNum n := by
  obtain ⟨hnext, hover⟩ := formatted_overcounted noise hn hsize
  rw [hover.allocsRight_iff cs, hnext]
  show _ ≤ n ↔ _
  omega

/-- Two blocks are taken on a volume of 8192 blocks, and the first one is given back in between. -/
theorem two_allocs_right :
    AllocsRight (formatted (fun _ => zeroBlk) 8192) {6313} [.alloc, .dealloc 6314, .alloc] :=
  (allocs_right_iff (n := 8192) (fun _ => zeroBlk) (by decide) (by decide)
    [.alloc, .dealloc 6314, .alloc]).mpr (by decide)

/-- The allocation with the number of the data blocks gets a block behind the end of the volume. -/
theorem last_alloc_wrong :
    ¬AllocsRight (formatted (fun _ => zeroBlk) 8192) {6313} (List.replicate 1879 .alloc) := by
  obtain ⟨hnext, hover⟩ := formatted_overcounted (n := 8192) (fun _ => zeroBlk) (by decide) (by decide)
  rw [show (6313 : ℕ) = dataRelStartBlkNum 8192 by decide, hover.allocsRight_iff, hnext,
    List.count_replicate_self]
  decide

end Bfs.Native
