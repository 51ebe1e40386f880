import Bfs.Client.WriteBack

/-! Sequences of buffered writes: which chunks they mark dirty and which bytes of the cache file
they change. Every marked chunk begins inside the file. -/
namespace Bfs.Client
open ByteSeq

structure OpenFile extends WbState where
  dirty_inside : ∀ d ∈ dirtyChunks, d*chunkSize < cache.length

section Marking

/-- The chunks that a buffered write of `size` bytes marks. -/
def marked (offset size : ℕ) : Finset ℕ :=
  (List.range' (offset / chunkSize)
    (size / chunkSize + (if size % chunkSize ≠ 0 then 1 else 0))).toFinset

lemma foldl_mark (l : List ℕ) (acc : Finset ℕ × ℕ) :
    (l.foldl (fun acc i => if i ∈ acc.1 then acc else (insert i acc.1, acc.2 + 1)) acc).1 =
      acc.1 ∪ l.toFinset := by
  induction l generalizing acc with
  | nil => simp
  | cons i l ih =>
    simp only [List.foldl_cons, ih, List.toFinset_cons]
    split_ifs with h
    · rw [Finset.union_insert, Finset.insert_eq_self.mpr (Finset.mem_union_left _ h)]
    · rw [Finset.union_insert, Finset.insert_union]

@[simp] lemma markChunks_fst (offset size : ℕ) (dirty : Finset ℕ) (total : ℕ) :
    (markChunks offset size dirty total).1 = dirty ∪ marked offset size :=
  foldl_mark _ _

lemma mem_marked {offset size d : ℕ} (h : d ∈ marked offset size) :
    0 < size ∧ offset / chunkSize ≤ d ∧ d*chunkSize < offset + size := by
  simp only [marked, List.mem_toFinset, List.mem_range'_1] at h
  obtain ⟨hlo, hhi⟩ := h
  have hoff := Nat.div_add_mod offset chunkSize
  have hsize := Nat.div_add_mod size chunkSize
  rw [Nat.mul_comm] at hoff hsize
  have hpos := chunkSize_pos
  -- The last marked chunk starts before the last byte of the write.
  split_ifs at hhi with hmod
  · have hd := Nat.mul_le_mul_right chunkSize (show d ≤ offset / chunkSize + size / chunkSize by omega)
    rw [Nat.add_mul] at hd
    exact ⟨by omega, hlo, by omega⟩
  · have hd := Nat.mul_le_mul_right chunkSize
      (show d+1 ≤ offset / chunkSize + size / chunkSize by omega)
    rw [Nat.add_mul, Nat.add_mul, one_mul] at hd
    have hle := Nat.mul_le_mul_right chunkSize hlo
    exact ⟨by omega, hlo, by omega⟩

lemma exists_byte_of_marked {offset size d : ℕ} (h : d ∈ marked offset size) :
    ∃ i, offset ≤ i ∧ i < offset + size ∧ i / chunkSize = d := by
  obtain ⟨hsize, hlo, hhi⟩ := mem_marked h
  have hpos := chunkSize_pos
  rcases le_total offset (d*chunkSize) with hle | hle
  · exact ⟨d*chunkSize, hle, hhi, Nat.mul_div_cancel _ hpos⟩
  · refine ⟨offset, le_rfl, by omega, ?_⟩
    exact le_antisymm hlo ((Nat.le_div_iff_mul_le hpos).mpr hle)

end Marking

section Writes

structure BufWrite where
  offset : ℕ
  buf : List UInt8

def bufferedWrites (st : WbState) (ws : List BufWrite) : WbState :=
  ws.foldl (fun st w => (bufferedWrite st w.offset w.buf).1) st

@[simp] lemma bufferedWrites_nil (st : WbState) : bufferedWrites st [] = st := rfl

@[simp] lemma bufferedWrites_cons (st : WbState) (w : BufWrite) (ws : List BufWrite) :
    bufferedWrites st (w::ws) = bufferedWrites (bufferedWrite st w.offset w.buf).1 ws := rfl

@[simp] lemma bufferedWrite_cache (st : WbState) (offset : ℕ) (buf : List UInt8) :
    (bufferedWrite st offset buf).1.cache = pwrite 0 st.cache offset buf := rfl

@[simp] lemma bufferedWrite_dirtyChunks (st : WbState) (offset : ℕ) (buf : List UInt8) :
    (bufferedWrite st offset buf).1.dirtyChunks =
      st.dirtyChunks ∪ marked offset buf.length := markChunks_fst _ _ _ _

def dirtyAfter (dirty : Finset ℕ) (ws : List BufWrite) : Finset ℕ :=
  ws.foldl (fun dirty w => dirty ∪ marked w.offset w.buf.length) dirty

lemma bufferedWrites_dirtyChunks (st : WbState) (ws : List BufWrite) :
    (bufferedWrites st ws).dirtyChunks = dirtyAfter st.dirtyChunks ws := by
  induction ws generalizing st with
  | nil => rfl
  | cons w ws ih => rw [bufferedWrites_cons, ih, bufferedWrite_dirtyChunks]; rfl

lemma mem_dirtyAfter {dirty : Finset ℕ} {ws : List BufWrite} {d : ℕ} :
    d ∈ dirtyAfter dirty ws ↔ d ∈ dirty ∨ ∃ w ∈ ws, d ∈ marked w.offset w.buf.length := by
  induction ws generalizing dirty with
  | nil => simp [dirtyAfter]
  | cons w ws ih =>
    have hstep : dirtyAfter dirty (w::ws) =
        dirtyAfter (dirty ∪ marked w.offset w.buf.length) ws := rfl
    rw [hstep, ih, Finset.mem_union, List.exists_mem_cons_iff, or_assoc]

lemma bufferedWrite_dirty_inside (st : WbState) (offset : ℕ) (buf : List UInt8)
    (h : ∀ d ∈ st.dirtyChunks, d*chunkSize < st.cache.length) :
    ∀ d ∈ (bufferedWrite st offset buf).1.dirtyChunks,
      d*chunkSize < (bufferedWrite st offset buf).1.cache.length := by
  intro d hd
  rw [bufferedWrite_cache, length_pwrite]
  rw [bufferedWrite_dirtyChunks, Finset.mem_union] at hd
  rcases hd with hd | hd
  · have hold := h d hd
    split_ifs
    · exact hold
    · omega
  · obtain ⟨hsize, -, hnew⟩ := mem_marked hd
    split_ifs with hnil
    · simp [hnil] at hsize
    · omega

lemma bufferedWrites_dirty_inside (st : WbState) (ws : List BufWrite)
    (h : ∀ d ∈ st.dirtyChunks, d*chunkSize < st.cache.length) :
    ∀ d ∈ (bufferedWrites st ws).dirtyChunks,
      d*chunkSize < (bufferedWrites st ws).cache.length := by
  induction ws generalizing st with
  | nil => exact h
  | cons w ws ih => exact ih _ (bufferedWrite_dirty_inside st w.offset w.buf h)

lemma length_le_bufferedWrites (st : WbState) (ws : List BufWrite) :
    st.cache.length ≤ (bufferedWrites st ws).cache.length := by
  induction ws generalizing st with
  | nil => exact le_rfl
  | cons w ws ih =>
    rw [bufferedWrites_cons]
    exact (length_le_length_pwrite 0 st.cache w.offset w.buf).trans (ih (bufferedWrite st _ _).1)

lemma getElem?_bufferedWrites_behind (st : WbState) (ws : List BufWrite) (i : ℕ)
    (h : ∀ w ∈ ws, w.offset + w.buf.length ≤ i ∨ w.buf = []) :
    (bufferedWrites st ws).cache[i]? = st.cache[i]? := by
  induction ws generalizing st with
  | nil => rfl
  | cons w ws ih =>
    rw [bufferedWrites_cons, ih _ (fun v hv => h v (List.mem_cons_of_mem _ hv)),
      bufferedWrite_cache]
    rcases h w List.mem_cons_self with hw | hw
    · exact getElem?_pwrite_behind 0 st.cache w.offset w.buf i hw
    · simp [pwrite, hw]

end Writes

end Bfs.Client
