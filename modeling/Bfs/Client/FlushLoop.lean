import Bfs.Client.FlushSync
import Bfs.Client.LocalFiles

/-! When the staging loop of a flush ends. The loop runs while a byte of the file is left or a
chunk is dirty, but its position stops at the end of the file. So it ends exactly when no dirty
chunk begins behind that end, which writes preserve and truncation does not. -/
namespace Bfs.Client
open ByteSeq

section LocalOps

/-- What may happen to an open handle between two flushes. `wb` is the number of bytes that the
local `pwrite` reports. -/
inductive LocalOp
  | write (offset : ℕ) (buf : List UInt8) (wb : ℕ)
  | truncate (length : ℕ)

/-- The buffered branch of `bfs_write_helper`, with a local write that may be short, and the
local part of `bfs_truncate`. The chunks are marked for the size of the call. -/
def LocalOp.apply (st : WbState) : LocalOp → WbState
  | .write offset buf wb =>
    let marked := markChunks offset buf.length st.dirtyChunks st.totalDirtyChunks
    ⟨pwrite 0 st.cache offset (buf.take wb), marked.1, marked.2⟩
  | .truncate length => { st with cache := resize length st.cache }

def localOps (st : WbState) (ops : List LocalOp) : WbState := ops.foldl LocalOp.apply st

lemma apply_write_of_full (st : WbState) (offset : ℕ) (buf : List UInt8) :
    LocalOp.apply st (.write offset buf buf.length) = (bufferedWrite st offset buf).1 := by
  simp only [LocalOp.apply, List.take_length, bufferedWrite]

def LocalOp.marks : LocalOp → Finset ℕ
  | .write offset buf _ => marked offset buf.length
  | .truncate _ => ∅

def LocalOp.sizeAfter (n : ℕ) : LocalOp → ℕ
  | .write offset buf wb =>
    if min wb buf.length = 0 then n else max n (offset + min wb buf.length)
  | .truncate length => length

lemma apply_dirtyChunks (st : WbState) (op : LocalOp) :
    (LocalOp.apply st op).dirtyChunks = st.dirtyChunks ∪ op.marks := by
  cases op with
  | write offset buf wb => exact markChunks_fst _ _ _ _
  | truncate length => exact (Finset.union_empty _).symm

lemma length_apply (st : WbState) (op : LocalOp) :
    (LocalOp.apply st op).cache.length = op.sizeAfter st.cache.length := by
  cases op with
  | write offset buf wb =>
    have hnil : buf.take wb = [] ↔ min wb buf.length = 0 := by
      rw [← List.length_take, List.length_eq_zero_iff]
    simp only [LocalOp.apply, LocalOp.sizeAfter, length_pwrite, hnil, List.length_take]
  | truncate length =>
    simp only [LocalOp.apply, LocalOp.sizeAfter, resize, List.length_take, length_padTo]
    omega

def dirtyAfterOps (dirty : Finset ℕ) (ops : List LocalOp) : Finset ℕ :=
  ops.foldl (fun dirty op => dirty ∪ op.marks) dirty

def sizeAfterOps (n : ℕ) (ops : List LocalOp) : ℕ := ops.foldl LocalOp.sizeAfter n

lemma localOps_dirtyChunks (st : WbState) (ops : List LocalOp) :
    (localOps st ops).dirtyChunks = dirtyAfterOps st.dirtyChunks ops := by
  induction ops generalizing st with
  | nil => rfl
  | cons op ops ih =>
    rw [localOps, List.foldl_cons, ← localOps, ih, apply_dirtyChunks]
    rfl

lemma length_localOps (st : WbState) (ops : List LocalOp) :
    (localOps st ops).cache.length = sizeAfterOps st.cache.length ops := by
  induction ops generalizing st with
  | nil => rfl
  | cons op ops ih =>
    rw [localOps, List.foldl_cons, ← localOps, ih, length_apply]
    rfl

end LocalOps

section Ends

lemma stageStep_at_end (e : FlushEnv) (s : Staging) (j : ℕ)
    (hpos : s.totalBytesWritten = e.totalSize) (hj : j*chunkSize = e.totalSize)
    (hdirty : j ∈ s.dirtyChunks) :
    (stageStep e.toStageEnv s).2 = false ∧
      (stageStep e.toStageEnv s).1.totalBytesWritten = e.totalSize ∧
      (stageStep e.toStageEnv s).1.dirtyChunks = s.dirtyChunks.erase j := by
  have hchunk : e.totalSize / chunkSize = j := by
    rw [← hj, Nat.mul_div_cancel _ chunkSize_pos]
  simp only [stageStep, e.flush_on, e.not_forced, Bool.true_or, Bool.false_and, if_true,
    Bool.false_eq_true, if_false, hpos, e.from_start, Nat.zero_add, hchunk, if_pos hdirty,
    Nat.sub_self, Nat.min_zero, Nat.add_zero, and_self]

lemma stageLoop_done (e : StageEnv) (fuel : ℕ) (s : Staging)
    (hpos : s.totalBytesWritten = e.totalSize) (hempty : s.dirtyChunks = ∅) :
    stageLoop e (fuel+1) s = some s := by
  simp [stageLoop, hempty, hpos]

lemma stageLoop_dirty_next (e : StageEnv) (fuel : ℕ) (s : Staging)
    (hguard : s.dirtyChunks.Nonempty) (hstep : (stageStep e s).2 = false) :
    stageLoop e (fuel+1) s = stageLoop e fuel (stageStep e s).1 := by
  simp only [stageLoop, if_pos (Or.inr hguard), hstep, Bool.false_eq_true, if_false]

lemma stageLoop_empties_past_end (e : FlushEnv) (fuel j : ℕ) (s : Staging)
    (hj : e.totalSize ≤ j*chunkSize)
    (hpos : s.totalBytesWritten = min (j*chunkSize) e.totalSize)
    (hd : ∀ d ∈ s.dirtyChunks, j ≤ d ∧ d*chunkSize ≤ e.totalSize) :
    ∃ s', stageLoop e.toStageEnv (fuel+2) s = some s' ∧ s'.dirtyChunks = ∅ := by
  have hend : s.totalBytesWritten = e.totalSize := by omega
  by_cases hempty : s.dirtyChunks = ∅
  · exact ⟨s, stageLoop_done e.toStageEnv (fuel+1) s hend hempty, hempty⟩
  · have hne := Finset.nonempty_iff_ne_empty.mpr hempty
    have honly : ∀ d ∈ s.dirtyChunks, d = j ∧ j*chunkSize = e.totalSize := by
      intro d hmem
      obtain ⟨hle, hin⟩ := hd d hmem
      have hmul := Nat.mul_le_mul_right chunkSize hle
      exact ⟨Nat.eq_of_mul_eq_mul_right chunkSize_pos (by omega), by omega⟩
    obtain ⟨d, hmem⟩ := hne
    obtain ⟨rfl, hat⟩ := honly d hmem
    obtain ⟨hgo, hend', hrest⟩ := stageStep_at_end e s d hend hat hmem
    have hempty' : (stageStep e.toStageEnv s).1.dirtyChunks = ∅ := by
      rw [hrest, Finset.erase_eq_empty_iff]
      exact Or.inr (Finset.eq_singleton_iff_unique_mem.mpr ⟨hmem, fun x hx => (honly x hx).1⟩)
    refine ⟨_, ?_, hempty'⟩
    rw [stageLoop_dirty_next _ _ _ ⟨d, hmem⟩ hgo]
    exact stageLoop_done e.toStageEnv fuel _ hend' hempty'

lemma stageLoop_empties (e : FlushEnv) (r j : ℕ) (s : Staging)
    (hr : e.totalSize ≤ (j+r)*chunkSize)
    (hpos : s.totalBytesWritten = min (j*chunkSize) e.totalSize)
    (hd : ∀ d ∈ s.dirtyChunks, j ≤ d ∧ d*chunkSize ≤ e.totalSize) :
    ∃ s', stageLoop e.toStageEnv (r+2) s = some s' ∧ s'.dirtyChunks = ∅ := by
  -- Induction on the chunks of the file that are left.
  induction r generalizing j s with
  | zero =>
    rw [Nat.add_zero] at hr
    exact stageLoop_empties_past_end e 0 j s hr hpos hd
  | succ r ih =>
    rw [show j+(r+1) = j+1+r by omega] at hr
    by_cases hj : j*chunkSize < e.totalSize
    · have hpos' : s.totalBytesWritten = j*chunkSize := by omega
      have hguard : s.totalBytesWritten < e.totalSize := by omega
      by_cases hmem : j ∈ s.dirtyChunks
      · rw [stageLoop_next _ _ _ _ hguard (stageStep_dirty e s j hpos' hj hmem)]
        refine ih (j+1) (stageDirty e s j) hr rfl ?_
        intro d hd'
        obtain ⟨hne, hd'⟩ := Finset.mem_erase.mp hd'
        obtain ⟨hle, hin⟩ := hd d hd'
        exact ⟨by omega, hin⟩
      · rw [stageLoop_next _ _ _ _ hguard (stageStep_clean e s j hpos' hj hmem)]
        refine ih (j+1) _ hr rfl ?_
        intro d hd'
        obtain ⟨hle, hin⟩ := hd d hd'
        have hne : d ≠ j := fun h => hmem (h ▸ hd')
        exact ⟨by omega, hin⟩
    · exact stageLoop_empties_past_end e (r+1) j s (by omega) hpos hd

def Stuck (e : FlushEnv) (d : ℕ) (s : Staging) : Prop :=
  s.totalBytesWritten ≤ e.totalSize ∧ d ∈ s.dirtyChunks

lemma Stuck.step {e : FlushEnv} {d : ℕ} {s : Staging} (hd : e.totalSize < d*chunkSize)
    (h : Stuck e d s) :
    (stageStep e.toStageEnv s).2 = false ∧ Stuck e d (stageStep e.toStageEnv s).1 := by
  obtain ⟨hpos, hmem⟩ := h
  have hne : d ≠ s.totalBytesWritten / chunkSize := by
    intro heq
    have hle := Nat.div_mul_le_self s.totalBytesWritten chunkSize
    rw [← heq] at hle
    omega
  simp only [stageStep, e.flush_on, e.not_forced, Bool.true_or, Bool.false_and, if_true,
    Bool.false_eq_true, if_false, e.from_start, Nat.zero_add]
  split_ifs
  · exact ⟨rfl, by dsimp only; omega, Finset.mem_erase.mpr ⟨hne, hmem⟩⟩
  · exact ⟨rfl, by dsimp only; omega, hmem⟩

lemma Stuck.stageLoop_eq_none {e : FlushEnv} {d : ℕ} {s : Staging}
    (hd : e.totalSize < d*chunkSize) (h : Stuck e d s) (fuel : ℕ) :
    stageLoop e.toStageEnv fuel s = none := by
  induction fuel generalizing s with
  | zero => rfl
  | succ fuel ih =>
    obtain ⟨hgo, hnext⟩ := h.step hd
    rw [stageLoop_dirty_next _ _ _ ⟨d, h.2⟩ hgo]
    exact ih hnext

end Ends

section Flush

variable {σ : Type*} (send : σ → WriteOp → σ × Option ℕ)

lemma SyncCall.run_dirtyChunks (call : SyncCall) (fuel : ℕ) (st : WbState) (sv : σ) :
    (call.run fuel send st sv).map (fun r => r.1.dirtyChunks) =
      (stageLoop (flushEnv st).toStageEnv fuel (flushStart st)).map Staging.dirtyChunks := by
  have hhelper : call.run fuel send st sv =
      bfsWriteHelper fuel send ⟨[], 0, false, true, false⟩ st sv := by
    cases call <;> rfl
  rw [hhelper, bfsWriteHelper, if_neg (by simp), Option.map_map]
  rfl

def SyncCall.Drains (call : SyncCall) (st : WbState) (sv : σ) : Prop :=
  ∃ fuel r, call.run fuel send st sv = some r ∧ r.1.dirtyChunks = ∅

lemma SyncCall.drains_of_inside (call : SyncCall) (st : WbState) (sv : σ)
    (h : ∀ d ∈ st.dirtyChunks, d*chunkSize ≤ st.cache.length) : call.Drains send st sv := by
  obtain ⟨s, hrun, hs⟩ := stageLoop_empties (flushEnv st) st.cache.length 0 (flushStart st)
    (by
      rw [Nat.zero_add]
      exact Nat.le_mul_of_pos_right _ chunkSize_pos)
    (by simp [flushStart]) (fun d hd => ⟨Nat.zero_le _, h d hd⟩)
  have hret := call.run_dirtyChunks send (st.cache.length + 2) st sv
  rw [hrun, Option.map_some, hs] at hret
  obtain ⟨r, hr, hdirty⟩ := Option.map_eq_some_iff.mp hret
  exact ⟨st.cache.length + 2, r, hr, hdirty⟩

lemma SyncCall.run_eq_none (call : SyncCall) (st : WbState) (sv : σ) (d : ℕ)
    (hd : d ∈ st.dirtyChunks) (hout : st.cache.length < d*chunkSize) (fuel : ℕ) :
    call.run fuel send st sv = none := by
  have hstuck : Stuck (flushEnv st) d (flushStart st) := ⟨Nat.zero_le _, hd⟩
  have hret := call.run_dirtyChunks send fuel st sv
  rw [hstuck.stageLoop_eq_none hout, Option.map_none] at hret
  exact Option.map_eq_none_iff.mp hret

/-- After any writes and truncations, with any offsets, sizes and lengths, a flush or fsync ends
its staging loop and empties the dirty set exactly when every chunk marked so far begins at or
before the end of the local file. -/
theorem sync_drains_iff (call : SyncCall) (st : WbState) (ops : List LocalOp) (sv : σ) :
    call.Drains send (localOps st ops) sv ↔
      ∀ d ∈ dirtyAfterOps st.dirtyChunks ops,
        d*chunkSize ≤ sizeAfterOps st.cache.length ops := by
  rw [← localOps_dirtyChunks, ← length_localOps]
  constructor
  · rintro ⟨fuel, r, hrun, -⟩ d hd
    by_contra hout
    rw [call.run_eq_none send (localOps st ops) sv d hd (by omega) fuel] at hrun
    exact absurd hrun (by simp)
  · intro h
    exact call.drains_of_inside send (localOps st ops) sv h

/-- One byte at the start of the second chunk of an empty file, then a truncation to nothing:
the flush that follows does not return, however long it runs. -/
theorem truncated_flush_never_ends :
    let st := localOps emptyFile.toWbState [.write chunkSize [1] 1, .truncate 0]
    ∀ fuel, bfsFlush fuel plainServer st [] = none := by
  intro st fuel
  refine SyncCall.flush.run_eq_none plainServer st [] 1 ?_ ?_ fuel
  · rw [localOps_dirtyChunks]
    simp only [dirtyAfterOps, emptyFile, List.foldl_cons, List.foldl_nil, LocalOp.marks, marked,
      List.length_singleton]
    decide
  · rw [length_localOps]
    decide

end Flush

end Bfs.Client
