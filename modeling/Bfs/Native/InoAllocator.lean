import Bfs.Native.Effects

/-! The inode bitmap over runs of `alloc_ino` and `dealloc_ino`. -/
namespace Bfs.Native
open ByteSeq Bfs.Fs

variable {s s' : FsState}

inductive InoCall
  | alloc
  | dealloc (r : Inode)

/-- What `alloc_ino` returns, if it does not fail. -/
def handedOut (s : FsState) : Set ℕ := {n | ∃ i, (allocIno s).1 = .ok i ∧ i ≠ 0 ∧ i.toNat = n}

/-- No number is handed out while it is in use. The run ends with a release that fails, which may have
cleared the bit of its number. -/
def InosRight : FsState → Set ℕ → List InoCall → Prop
  | _, _, [] => True
  | s, used, .alloc::cs =>
    Disjoint used (handedOut s) ∧ InosRight (allocIno s).2 (used ∪ handedOut s) cs
  | s, used, .dealloc r::cs =>
    ∀ s', deallocIno r s = (.ok (), s') → InosRight s' (used \ {r.iNo.toNat}) cs

section Bits

variable {m k : ℕ} {c c' : Block}

lemma firstClear_eq_some (h : firstClear c = some k) : k < blkSzBits ∧ testBit k c = false := by
  unfold firstClear at h
  obtain ⟨hbit, hk, -⟩ := List.find?_range_eq_some.mp h
  exact ⟨List.mem_range.mp hk, by simpa using hbit⟩

lemma findFreeIno_eq_some {start n : ℕ} {ibm : List Block} (hread : List.Forall₂
      (fun b c => readBlk s (ibmRelStartBlkNum + b) = .ok c) (List.range' start n) ibm)
    (h : findFreeIno ibm start = some (m, k, c)) :
    m < start + n ∧ readBlk s (ibmRelStartBlkNum + m) = .ok c ∧ k < blkSzBits ∧ testBit k c = false := by
  induction n generalizing start ibm with
  | zero =>
    cases hread
    cases h
  | succ n ih =>
    obtain _ | ⟨hb, hrest⟩ := hread
    rw [findFreeIno] at h
    split at h
    · rename_i hfind
      cases h
      exact ⟨by omega, hb, firstClear_eq_some hfind⟩
    · obtain ⟨hm, hfound⟩ := ih hrest h
      exact ⟨by omega, hfound⟩

lemma bit_setBlk (hc : readBlk s (ibmRelStartBlkNum + m) = .ok c) {n : ℕ} {x y : Bool}
    (hn : s.bit n = some x) (hother : n / blkSzBits ≠ m → x = y)
    (hsame : n / blkSzBits = m → testBit (n % blkSzBits) c = x → testBit (n % blkSzBits) c' = y) :
    (s.setBlk (ibmRelStartBlkNum + m) c').bit n = some y := by
  obtain ⟨hlt, b, hb, hbit⟩ := bit_eq_some.mp hn
  refine bit_eq_some.mpr ⟨hlt, ?_⟩
  rw [readBlk_setBlk (readBlk_eq_ok.mp hc).1]
  by_cases hm : n / blkSzBits = m
  · rw [hm, hc] at hb
    cases hb
    exact ⟨c', if_pos (by rw [hm]), hsame hm hbit⟩
  · exact ⟨b, by rw [if_neg (by omega), hb], hbit.trans (hother hm)⟩

lemma testBit_clearBit {nr : ℕ} (hnr : nr < blkSzBits) (b : Block) (hk : nr ≠ k) :
    testBit k (clearBit nr b) = testBit k b := by
  have hbits : blkSzBits = blkSz*8 := rfl
  rw [testBit_eq, testBit_eq, clearBit, getD_write_byte b (by omega)]
  split_ifs with hbyte
  · have hne : nr%8 ≠ k%8 := by omega
    simp [byteBit, toBitVec_bitMask, hbyte, hne.symm, Nat.mod_lt]
  · rfl

lemma bit_position (hm : m < numIbitmapBlocks) (hk : k < blkSzBits) :
    m*blkSzBits + k < numIbitmapBlocks*blkSzBits ∧ (m*blkSzBits + k) / blkSzBits = m ∧
      (m*blkSzBits + k) % blkSzBits = k ∧ (UInt64.ofNat (m*blkSzBits + k)).toNat = m*blkSzBits + k := by
  rw [numIbitmapBlocks_eq, blkSzBits_eq] at *
  rw [UInt64.toNat_ofNat']
  omega

end Bits

/-- `alloc_ino` hands out nothing, or it marks a number that was not marked. -/
lemma allocIno_cases (s : FsState) : (allocIno s).2 = s ∧ (∀ i, (allocIno s).1 = .ok i → i = 0) ∨
    ∃ i, (allocIno s).1 = .ok i ∧ s.bit i.toNat = some false ∧ (allocIno s).2.bit i.toNat = some true ∧
      ∀ n, s.bit n = some true → (allocIno s).2.bit n = some true := by
  rw [allocIno, Prog.gets_bind_apply]
  split_ifs
  · exact .inl ⟨rfl, fun i hi => by cases hi; rfl⟩
  · cases hibm : readIbm s with
    | error e =>
      rw [Prog.reads_bind_of_error hibm]
      exact .inl ⟨rfl, nofun⟩
    | ok ibm =>
      rw [Prog.reads_bind_of_ok hibm]
      rcases hfind : findFreeIno ibm 0 with _ | ⟨m, k, c⟩
      · exact .inl ⟨rfl, nofun⟩
      · rw [readIbm, List.range_eq_range', Fallible.mapM_eq_ok_iff] at hibm
        obtain ⟨hm, hc, hk, hclear⟩ := findFreeIno_eq_some hibm hfind
        rw [Nat.zero_add] at hm
        obtain ⟨hlt, hdiv, hmod, hto⟩ := bit_position hm hk
        have hbit : s.bit (m*blkSzBits + k) = some false :=
          bit_eq_some.mpr ⟨hlt, c, by rw [hdiv, hc], by rw [hmod, hclear]⟩
        dsimp only
        rw [Prog.bind_of_ok (writeBlk_of_usable (readBlk_eq_ok.mp hc).1)]
        refine .inr ⟨_, rfl, by rw [hto, hbit], ?_, fun n hn => ?_⟩
        · rw [hto]
          refine bit_setBlk hc hbit (fun hne => absurd hdiv hne) fun _ _ => ?_
          rw [hmod, testBit_setBit hk, decide_eq_true rfl, Bool.or_true]
        · refine bit_setBlk hc hn (fun _ => rfl) fun _ h => ?_
          rw [testBit_setBit hk, h, Bool.true_or]

lemma deallocIno_bit {r : Inode} (h : deallocIno r s = (.ok (), s')) {n : ℕ} (hn : s.bit n = some true)
    (hne : n ≠ r.iNo.toNat) : s'.bit n = some true := by
  obtain ⟨-, h⟩ := Prog.require_bind_eq_ok.mp h
  rw [Prog.gets_bind_apply] at h
  obtain ⟨c, hc, h⟩ := Prog.reads_bind_eq_ok.mp h
  obtain ⟨hfirst, h⟩ := Prog.require_bind_eq_ok.mp h
  rw [Prog.bind_of_ok (writeBlk_of_usable (readBlk_eq_ok.mp hc).1)] at h
  obtain ⟨_, t, hfree, h⟩ := Prog.bind_eq_ok.mp h
  obtain ⟨j, rfl⟩ := deleteInodeIblks_eq_ok hfree
  obtain ⟨_, t', hwrite, h⟩ := Prog.bind_eq_ok.mp h
  cases h
  rw [blkSzBits_eq] at hfirst
  obtain ⟨hview, -⟩ := writeInodeAt_eq_ok (by rw [numInodes_eq]; omega) hwrite
  refine (congrFun (congrArg View.bit hview) n).trans (bit_setBlk hc hn (fun _ => rfl) fun hdiv hbit => ?_)
  rw [testBit_clearBit (Nat.mod_lt _ (by decide)) c, hbit]
  rw [blkSzBits_eq] at *
  omega

lemma inosRight_of_marked {used : Set ℕ} (h : ∀ n ∈ used, s.bit n = some true) (cs : List InoCall) :
    InosRight s used cs := by
  induction cs generalizing s used with
  | nil => trivial
  | cons c cs ih =>
    cases c with
    | dealloc r => exact fun s' hrun => ih fun n hn => deallocIno_bit hrun (h n hn.1) hn.2
    | alloc =>
      obtain ⟨hsame, hnone⟩ | ⟨i, hi, hclear, hset, hkeep⟩ := allocIno_cases s
      · have hempty : handedOut s = ∅ :=
          Set.eq_empty_of_forall_notMem fun n ⟨i, hi, hne, _⟩ => hne (hnone i hi)
        rw [InosRight, hempty, hsame, Set.union_empty]
        exact ⟨Set.disjoint_empty _, ih h⟩
      · have hout : ∀ n ∈ handedOut s, i.toNat = n := by
          rintro n ⟨j, hj, -, rfl⟩
          rw [hi, Except.ok.injEq] at hj
          rw [hj]
        refine ⟨Set.disjoint_left.mpr fun n hn hmem => ?_, ih ?_⟩
        · have hbit := h n hn
          rw [← hout n hmem, hclear] at hbit
          cases hbit
        · rintro n (hn | hn)
          · exact hkeep n (h n hn)
          · rw [← hout n hn, hset]

/-- Over every run of allocations and releases no inode number is handed out that was marked at the
start, or handed out before and not released. -/
theorem inos_right (s : FsState) (cs : List InoCall) : InosRight s {n | s.bit n = some true} cs :=
  inosRight_of_marked (fun _ hn => hn) cs

end Bfs.Native
