import Bfs.Client.BufferedWrite

/-! The staging loop of a flush. It visits the chunks of the cache file in order and ends with every
dirty chunk at its own position of the staging buffer. -/
namespace Bfs.Client
open ByteSeq

section Staging

structure FlushEnv extends StageEnv where
  flush_on : flush = true
  not_forced : forceFlush = false
  from_start : offset = 0
  whole_file : totalSize = cache.length

lemma div_chunk_eq_iff {i j : ℕ} :
    i / chunkSize = j ↔ j*chunkSize ≤ i ∧ i < (j+1)*chunkSize := by
  rw [Nat.div_eq_iff chunkSize_pos, Nat.add_mul, one_mul]
  have hpos := chunkSize_pos
  omega

lemma min_succ_mul (j n : ℕ) (h : j*chunkSize < n) :
    j*chunkSize + min chunkSize (n - j*chunkSize) = min ((j+1)*chunkSize) n := by
  rw [Nat.add_mul, one_mul]
  omega

lemma stageStep_clean (e : FlushEnv) (s : Staging) (j : ℕ)
    (hpos : s.totalBytesWritten = j*chunkSize) (hj : j*chunkSize < e.totalSize)
    (hclean : j ∉ s.dirtyChunks) :
    stageStep e.toStageEnv s =
      ({ s with totalBytesWritten := min ((j+1)*chunkSize) e.totalSize }, false) := by
  have hchunk : j*chunkSize / chunkSize = j := Nat.mul_div_cancel _ chunkSize_pos
  simp only [stageStep, e.flush_on, Bool.true_or, if_true, hpos, e.from_start, Nat.zero_add,
    hchunk, if_neg hclean, min_succ_mul j _ hj]

def stageDirty (e : FlushEnv) (s : Staging) (j : ℕ) : Staging where
  totalBytesWritten := min ((j+1)*chunkSize) e.totalSize
  dirtyChunks := s.dirtyChunks.erase j
  dirtyChunksLocal := s.dirtyChunksLocal ++ [j]
  writeBuf := splice s.writeBuf (j*chunkSize)
    (slice e.cache (j*chunkSize) (min chunkSize (e.totalSize - j*chunkSize)))
  totalDirtyChunks := s.totalDirtyChunks - 1

lemma stageStep_dirty (e : FlushEnv) (s : Staging) (j : ℕ)
    (hpos : s.totalBytesWritten = j*chunkSize) (hj : j*chunkSize < e.totalSize)
    (hdirty : j ∈ s.dirtyChunks) :
    stageStep e.toStageEnv s = (stageDirty e s j, false) := by
  have hchunk : j*chunkSize / chunkSize = j := Nat.mul_div_cancel _ chunkSize_pos
  simp only [stageStep, e.flush_on, e.not_forced, Bool.true_or, Bool.false_and, if_true,
    Bool.false_eq_true, if_false, hpos, e.from_start, Nat.zero_add, hchunk, if_pos hdirty,
    min_succ_mul j _ hj, stageDirty]

lemma getElem?_splice_chunk (cache buf : List UInt8) (j i : ℕ)
    (hlen : buf.length = cache.length) (hj : j*chunkSize ≤ cache.length) :
    (splice buf (j*chunkSize)
        (slice cache (j*chunkSize) (min chunkSize (cache.length - j*chunkSize))))[i]? =
      if i / chunkSize = j then cache[i]? else buf[i]? := by
  rw [getElem?_splice _ _ _ (by omega), length_slice, getElem?_slice]
  simp only [div_chunk_eq_iff, Nat.add_mul, one_mul]
  by_cases hin : j*chunkSize ≤ i ∧ i < j*chunkSize + chunkSize
  · rw [if_pos hin]
    by_cases hlt : i < cache.length
    · rw [if_pos (by omega), if_pos (by omega)]
      congr 1
      omega
    · rw [if_neg (by omega), List.getElem?_eq_none (by omega), List.getElem?_eq_none (by omega)]
  · rw [if_neg hin, if_neg (by omega)]

lemma getElem?_stageDirty (e : FlushEnv) (s : Staging) (j i : ℕ)
    (hlen : s.writeBuf.length = e.totalSize) (hj : j*chunkSize < e.totalSize) :
    (stageDirty e s j).writeBuf[i]? =
      if i / chunkSize = j then e.cache[i]? else s.writeBuf[i]? := by
  have hsize := e.whole_file
  rw [stageDirty, hsize]
  exact getElem?_splice_chunk e.cache s.writeBuf j i (hlen.trans hsize) (by omega)

lemma length_stageDirty (e : FlushEnv) (s : Staging) (j : ℕ)
    (hlen : s.writeBuf.length = e.totalSize) (hj : j*chunkSize < e.totalSize) :
    (stageDirty e s j).writeBuf.length = e.totalSize := by
  rw [stageDirty, length_splice_inside, hlen]
  rw [length_slice, hlen]
  omega

structure StagedFrom (e : FlushEnv) (s s' : Staging) : Prop where
  none_dirty : s'.dirtyChunks = ∅
  in_order : s'.dirtyChunksLocal = s.dirtyChunksLocal ++ s.dirtyChunks.sort
  in_place : ∀ i, s'.writeBuf[i]? =
    if i / chunkSize ∈ s.dirtyChunks then e.cache[i]? else s.writeBuf[i]?

lemma StagedFrom.refl (e : FlushEnv) (s : Staging) (h : s.dirtyChunks = ∅) :
    StagedFrom e s s where
  none_dirty := h
  in_order := by simp [h]
  in_place := by simp [h]

lemma StagedFrom.of_dirty (e : FlushEnv) (s s' : Staging) (j : ℕ)
    (hlen : s.writeBuf.length = e.totalSize) (hj : j*chunkSize < e.totalSize)
    (hdirty : j ∈ s.dirtyChunks) (hmin : ∀ d ∈ s.dirtyChunks, j ≤ d)
    (h : StagedFrom e (stageDirty e s j) s') : StagedFrom e s s' where
  none_dirty := h.none_dirty
  in_order := by
    have hsort : s.dirtyChunks.sort = j :: (s.dirtyChunks.erase j).sort := by
      conv_lhs => rw [← Finset.insert_erase hdirty]
      refine Finset.sort_insert _ ?_ (Finset.notMem_erase j _)
      intro b hb
      exact hmin b (Finset.mem_of_mem_erase hb)
    rw [h.in_order, hsort]
    simp [stageDirty]
  in_place := by
    intro i
    rw [h.in_place i, getElem?_stageDirty e s j i hlen hj]
    by_cases hi : i / chunkSize = j
    · simp [hi, hdirty]
    · simp [stageDirty, hi]

lemma stageLoop_past_end (e : FlushEnv) (fuel j : ℕ) (s : Staging)
    (hj : e.totalSize ≤ j*chunkSize)
    (hpos : s.totalBytesWritten = min (j*chunkSize) e.totalSize)
    (hd : ∀ d ∈ s.dirtyChunks, j ≤ d ∧ d*chunkSize < e.totalSize) :
    ∃ s', stageLoop e.toStageEnv (fuel+1) s = some s' ∧ StagedFrom e s s' := by
  have hempty : s.dirtyChunks = ∅ := by
    apply Finset.eq_empty_of_forall_notMem
    intro d hmem
    obtain ⟨hle, hlt⟩ := hd d hmem
    have hmul := Nat.mul_le_mul_right chunkSize hle
    omega
  refine ⟨s, ?_, StagedFrom.refl e s hempty⟩
  simp only [stageLoop, hempty, Finset.not_nonempty_empty, or_false]
  rw [if_neg (by omega)]

lemma stageLoop_next (e : StageEnv) (fuel : ℕ) (s next : Staging)
    (hguard : s.totalBytesWritten < e.totalSize) (hstep : stageStep e s = (next, false)) :
    stageLoop e (fuel+1) s = stageLoop e fuel next := by
  simp only [stageLoop, if_pos (Or.inl hguard), hstep, Bool.false_eq_true, if_false]

theorem stageLoop_flush (e : FlushEnv) (r j : ℕ) (s : Staging)
    (hr : e.totalSize ≤ (j+r)*chunkSize)
    (hpos : s.totalBytesWritten = min (j*chunkSize) e.totalSize)
    (hlen : s.writeBuf.length = e.totalSize)
    (hd : ∀ d ∈ s.dirtyChunks, j ≤ d ∧ d*chunkSize < e.totalSize) :
    ∃ s', stageLoop e.toStageEnv (r+1) s = some s' ∧ StagedFrom e s s' := by
  -- Induction on the chunks of the file that are left.
  induction r generalizing j s with
  | zero =>
    rw [Nat.add_zero] at hr
    exact stageLoop_past_end e 0 j s hr hpos hd
  | succ r ih =>
    rw [show j+(r+1) = j+1+r by omega] at hr
    by_cases hj : j*chunkSize < e.totalSize
    · have hpos' : s.totalBytesWritten = j*chunkSize := by omega
      have hguard : s.totalBytesWritten < e.totalSize := by omega
      by_cases hmem : j ∈ s.dirtyChunks
      · rw [stageLoop_next _ _ _ _ hguard (stageStep_dirty e s j hpos' hj hmem)]
        obtain ⟨s', hrun, hs'⟩ := ih (j+1) (stageDirty e s j) hr (by simp only [stageDirty])
          (length_stageDirty e s j hlen hj) (by
            intro d hd'
            obtain ⟨hne, hd'⟩ := Finset.mem_erase.mp hd'
            obtain ⟨hle, hlt⟩ := hd d hd'
            exact ⟨by omega, hlt⟩)
        exact ⟨s', hrun, hs'.of_dirty e s s' j hlen hj hmem fun d hd' => (hd d hd').1⟩
      · rw [stageLoop_next _ _ _ _ hguard (stageStep_clean e s j hpos' hj hmem)]
        obtain ⟨s', hrun, hs'⟩ := ih (j+1)
          { s with totalBytesWritten := min ((j+1)*chunkSize) e.totalSize } hr rfl hlen (by
            intro d hd'
            obtain ⟨hle, hlt⟩ := hd d hd'
            have hne : d ≠ j := fun h => hmem (h ▸ hd')
            exact ⟨by omega, hlt⟩)
        exact ⟨s', hrun, ⟨hs'.none_dirty, hs'.in_order, hs'.in_place⟩⟩
    · exact stageLoop_past_end e (r+1) j s (by omega) hpos hd

lemma stageLoop_mono (e : StageEnv) (fuel k : ℕ) (s s' : Staging)
    (h : stageLoop e fuel s = some s') : stageLoop e (fuel+k) s = some s' := by
  induction fuel generalizing s with
  | zero => exact absurd h (by simp [stageLoop])
  | succ fuel ih =>
    rw [show fuel+1+k = fuel+k+1 by omega]
    simp only [stageLoop] at h ⊢
    split_ifs at h ⊢
    · exact h
    · exact ih _ h
    · exact h

lemma stageLoop_unique (e : StageEnv) (fuel fuel' : ℕ) (s a b : Staging)
    (ha : stageLoop e fuel s = some a) (hb : stageLoop e fuel' s = some b) : a = b := by
  have hab := stageLoop_mono e fuel fuel' s a ha
  rw [Nat.add_comm, stageLoop_mono e fuel' fuel s b hb] at hab
  exact (Option.some.inj hab).symm

end Staging

end Bfs.Client
