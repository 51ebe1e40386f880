import Bfs.Client.Sending

/-! When a flush leaves the server with the content of the local cache file. The staging buffer
keeps every dirty chunk at its own position, while the sending loop hands out consecutive slices
of that buffer, so the two agree exactly when the dirty chunks are an initial segment. -/
namespace Bfs.Client
open ByteSeq

section Agreement

inductive SyncCall
  | flush
  | fsync

def SyncCall.run {σ : Type*} (call : SyncCall) (fuel : ℕ) (send : σ → WriteOp → σ × Option ℕ)
    (st : WbState) (sv : σ) : Option (WbState × σ × ℤ) :=
  match call with
  | .flush => bfsFlush fuel send st sv
  | .fsync => bfsFsync fuel send st sv

/-- After the writes `ws`, the call returns success and leaves the server with the content of
the local cache file, given that both were equal before. -/
def SyncedBy (call : SyncCall) (f : OpenFile) (ws : List BufWrite) : Prop :=
  ∃ fuel st file,
    call.run fuel plainServer (bufferedWrites f.toWbState ws) f.cache =
      some (st, file, bfsSuccess) ∧ file = st.cache

def flushEnv (st : WbState) : FlushEnv where
  toStageEnv := stageEnv ⟨[], 0, false, true, false⟩ st
  flush_on := rfl
  not_forced := rfl
  from_start := rfl
  whole_file := rfl

def flushStart (st : WbState) : Staging :=
  ⟨0, st.dirtyChunks, [], List.replicate st.cache.length 0, st.totalDirtyChunks⟩

lemma SyncCall.run_eq (call : SyncCall) (fuel : ℕ) (st : WbState) (file : List UInt8) :
    call.run fuel plainServer st file =
      (stageLoop (flushEnv st).toStageEnv fuel (flushStart st)).map fun s =>
        (⟨st.cache, s.dirtyChunks, s.totalDirtyChunks⟩,
          applyOps file (sendOps st.cache.length s.writeBuf s.dirtyChunksLocal 0), bfsSuccess) := by
  have hhelper : call.run fuel plainServer st file =
      bfsWriteHelper fuel plainServer ⟨[], 0, false, true, false⟩ st file := by
    cases call <;> rfl
  rw [hhelper, bfsWriteHelper, if_neg (by simp)]
  apply congrArg (fun f => Option.map f (stageLoop (flushEnv st).toStageEnv fuel (flushStart st)))
  funext s
  obtain ⟨t, hsend⟩ := sendDirty_plainServer st.cache.length s.writeBuf s.dirtyChunksLocal 0 file
  simp [stageEnv, hsend]

lemma SyncCall.run_value (call : SyncCall) (st : WbState) (file : List UInt8)
    (hd : ∀ d ∈ st.dirtyChunks, d*chunkSize < st.cache.length) :
    ∃ buf st', st'.cache = st.cache ∧
      (∀ i, buf[i]? = if i / chunkSize ∈ st.dirtyChunks then st.cache[i]?
        else (List.replicate st.cache.length (0 : UInt8))[i]?) ∧
      (∃ fuel, (call.run fuel plainServer st file).isSome) ∧
      ∀ fuel r, call.run fuel plainServer st file = some r →
        r = (st', applyOps file (sendOps st.cache.length buf st.dirtyChunks.sort 0), bfsSuccess) := by
  obtain ⟨s, hrun, hs⟩ := stageLoop_flush (flushEnv st) st.cache.length 0 (flushStart st)
    (by
      rw [Nat.zero_add]
      exact Nat.le_mul_of_pos_right _ chunkSize_pos)
    (by simp [flushStart]) (List.length_replicate ..)
    (fun d hmem => ⟨Nat.zero_le _, hd d hmem⟩)
  have hlocal : s.dirtyChunksLocal = st.dirtyChunks.sort := hs.in_order
  refine ⟨s.writeBuf, ⟨st.cache, s.dirtyChunks, s.totalDirtyChunks⟩, rfl, hs.in_place,
    ⟨st.cache.length + 1, ?_⟩, ?_⟩
  · rw [SyncCall.run_eq, hrun]
    rfl
  · intro fuel r hr
    rw [SyncCall.run_eq, Option.map_eq_some_iff] at hr
    obtain ⟨s', hs', rfl⟩ := hr
    obtain rfl := stageLoop_unique _ _ _ _ _ _ hrun hs'
    rw [hlocal]

lemma syncedBy_iff (call : SyncCall) (f : OpenFile) (ws : List BufWrite) :
    ∃ buf, (∀ i, buf[i]? =
        if i / chunkSize ∈ dirtyAfter f.dirtyChunks ws
        then (bufferedWrites f.toWbState ws).cache[i]?
        else (List.replicate (bufferedWrites f.toWbState ws).cache.length (0 : UInt8))[i]?) ∧
      (SyncedBy call f ws ↔
        applyOps f.cache (sendOps (bufferedWrites f.toWbState ws).cache.length buf
          (dirtyAfter f.dirtyChunks ws).sort 0) = (bufferedWrites f.toWbState ws).cache) := by
  obtain ⟨buf, st', hcache, hbuf, ⟨fuel, hsome⟩, hvalue⟩ :=
    call.run_value (bufferedWrites f.toWbState ws) f.cache
      (bufferedWrites_dirty_inside f.toWbState ws f.dirty_inside)
  rw [bufferedWrites_dirtyChunks] at hbuf hvalue
  refine ⟨buf, hbuf, ?_, ?_⟩
  · rintro ⟨fuel, st, file, hcall, hfile⟩
    have hresult := hvalue fuel _ hcall
    simp only [Prod.mk.injEq, and_true] at hresult
    obtain ⟨rfl, rfl⟩ := hresult
    exact hfile.trans hcache
  · intro h
    obtain ⟨r, hr⟩ := Option.isSome_iff_exists.mp hsome
    refine ⟨fuel, st', _, hr.trans (congrArg some (hvalue fuel r hr)), ?_⟩
    rw [h, hcache]

lemma sync_returns (call : SyncCall) (f : OpenFile) (ws : List BufWrite) :
    ∃ fuel st file, call.run fuel plainServer (bufferedWrites f.toWbState ws) f.cache =
      some (st, file, bfsSuccess) := by
  obtain ⟨buf, st', -, -, ⟨fuel, hsome⟩, hvalue⟩ :=
    call.run_value (bufferedWrites f.toWbState ws) f.cache
      (bufferedWrites_dirty_inside f.toWbState ws f.dirty_inside)
  obtain ⟨r, hr⟩ := Option.isSome_iff_exists.mp hsome
  exact ⟨fuel, st', _, hr.trans (congrArg some (hvalue fuel r hr))⟩

def OpenFile.SameShape (g f : OpenFile) : Prop :=
  g.cache.length = f.cache.length ∧ g.dirtyChunks = f.dirtyChunks

def BufWrite.shape (w : BufWrite) : ℕ × ℕ := (w.offset, w.buf.length)

def FlushShape (dirty : Finset ℕ) (ws : List BufWrite) : Prop :=
  (∃ m, dirtyAfter dirty ws = Finset.range m) ∧
    ∀ w ∈ ws, ∀ i, w.offset ≤ i → i < w.offset + w.buf.length →
      i / chunkSize ∈ dirtyAfter dirty ws

lemma dirtyAfter_congr {vs ws : List BufWrite}
    (h : vs.map BufWrite.shape = ws.map BufWrite.shape) (dirty : Finset ℕ) :
    dirtyAfter dirty vs = dirtyAfter dirty ws := by
  have hfold : ∀ us : List BufWrite, dirtyAfter dirty us =
      (us.map BufWrite.shape).foldl (fun dirty p => dirty ∪ marked p.1 p.2) dirty := by
    intro us
    rw [List.foldl_map]
    rfl
  rw [hfold, hfold, h]

lemma FlushShape.congr {dirty : Finset ℕ} {vs ws : List BufWrite}
    (h : vs.map BufWrite.shape = ws.map BufWrite.shape) (hws : FlushShape dirty ws) :
    FlushShape dirty vs := by
  obtain ⟨hseg, hcover⟩ := hws
  rw [FlushShape, dirtyAfter_congr h]
  refine ⟨hseg, ?_⟩
  intro v hv i hlo hhi
  have hmem : v.shape ∈ ws.map BufWrite.shape := h ▸ List.mem_map_of_mem hv
  obtain ⟨w, hw, hshape⟩ := List.mem_map.mp hmem
  obtain ⟨hoff, hlen⟩ := Prod.mk.inj hshape
  exact hcover w hw i (by omega) (by omega)

lemma syncedBy_of_shape (call : SyncCall) (f : OpenFile) (ws : List BufWrite)
    (h : FlushShape f.dirtyChunks ws) : SyncedBy call f ws := by
  obtain ⟨⟨m, hm⟩, hcover⟩ := h
  obtain ⟨buf, hbuf, hiff⟩ := syncedBy_iff call f ws
  have hinside := bufferedWrites_dirty_inside f.toWbState ws f.dirty_inside
  have hlen := length_le_bufferedWrites f.toWbState ws
  rw [bufferedWrites_dirtyChunks, hm] at hinside
  rw [hm] at hbuf hiff hcover
  rw [hiff, Finset.sort_range, List.range_eq_range']
  apply List.ext_getElem?
  intro i
  rw [getElem?_applyOps_range _ f.cache buf m 0 0 f.cache (by simp) hlen
    (fun d hd => hinside d (by simpa using hd))
    (fun i hi => by rw [hbuf i, if_pos (by simpa using hi)]) (by simp)]
  split_ifs with hi
  · rfl
  · -- A byte behind the dirty chunks is behind every write.
    refine (getElem?_bufferedWrites_behind f.toWbState ws i ?_).symm
    intro w hw
    by_cases hnil : w.buf = []
    · exact Or.inr hnil
    · left
      have hne : 0 < w.buf.length := List.length_pos_iff.mpr hnil
      have hlast := hcover w hw (w.offset + w.buf.length - 1) (by omega) (by omega)
      rw [Finset.mem_range] at hlast
      by_contra hlt
      have hmono : i / chunkSize ≤ (w.offset + w.buf.length - 1) / chunkSize :=
        Nat.div_le_div_right (by omega)
      omega

def BufWrite.fill (b : UInt8) (w : BufWrite) : BufWrite :=
  ⟨w.offset, List.replicate w.buf.length b⟩

def OpenFile.fill (b : UInt8) (f : OpenFile) : OpenFile where
  cache := List.replicate f.cache.length b
  dirtyChunks := f.dirtyChunks
  totalDirtyChunks := f.totalDirtyChunks
  dirty_inside := by
    intro d hd
    rw [List.length_replicate]
    exact f.dirty_inside d hd

lemma shape_fill (b : UInt8) (ws : List BufWrite) :
    (ws.map (BufWrite.fill b)).map BufWrite.shape = ws.map BufWrite.shape := by
  simp [BufWrite.fill, BufWrite.shape]

lemma getElem?_pwrite_fill (xs : List UInt8) (w : BufWrite) (i : ℕ)
    (h : xs[i]? = some 1 ∨ (w.offset ≤ i ∧ i < w.offset + w.buf.length)) :
    (pwrite 0 xs w.offset (w.fill 1).buf)[i]? = some 1 := by
  rw [getElem?_pwrite, BufWrite.fill, List.length_replicate]
  by_cases hin : w.offset ≤ i ∧ i < w.offset + w.buf.length
  · rw [if_pos hin, List.getElem?_replicate, if_pos (by omega)]
  · have hx : xs[i]? = some 1 := h.resolve_right hin
    have hlt := (List.getElem?_eq_some_iff.mp hx).1
    rw [if_neg hin, if_neg (by omega), hx]

lemma getElem?_bufferedWrites_fill (st : WbState) (ws : List BufWrite) (i : ℕ)
    (h : st.cache[i]? = some 1 ∨ ∃ w ∈ ws, w.offset ≤ i ∧ i < w.offset + w.buf.length) :
    (bufferedWrites st (ws.map (BufWrite.fill 1))).cache[i]? = some 1 := by
  induction ws generalizing st with
  | nil => simpa using h
  | cons w ws ih =>
    rw [List.map_cons, bufferedWrites_cons]
    apply ih
    rw [List.exists_mem_cons_iff, ← or_assoc] at h
    rcases h with h | h
    · exact Or.inl (getElem?_pwrite_fill st.cache w i h)
    · exact Or.inr h

lemma getElem?_applyOps_gap (n p d : ℕ) (post : List ℕ) (buf file : List UInt8)
    (hzero : ∀ i, i / chunkSize = p → i < n → buf[i]? = some 0) (hpd : p < d)
    (hd : d*chunkSize < n) (hpost : ∀ x ∈ post, d < x) (i : ℕ) (hi : i / chunkSize = d) :
    (applyOps file (sendOps n buf (List.range' 0 p ++ d::post) 0))[i]? = some 0 := by
  have hpos := chunkSize_pos
  have hfull : (p+1)*chunkSize ≤ n := (Nat.mul_le_mul_right _ (show p+1 ≤ d by omega)).trans hd.le
  obtain ⟨hilo, hihi⟩ := div_chunk_eq_iff.mp hi
  rw [Nat.add_mul, one_mul] at hfull hihi
  have hclean : ∀ j < chunkSize, buf[p*chunkSize + j]? = some 0 := by
    intro j hj
    refine hzero _ (div_chunk_eq_iff.mpr ⟨by omega, ?_⟩) (by omega)
    rw [Nat.add_mul, one_mul]
    omega
  have hbuflen : p*chunkSize + chunkSize ≤ buf.length := by
    have hlast := (List.getElem?_eq_some_iff.mp (hclean (chunkSize-1) (by omega))).1
    omega
  have hsent : min chunkSize (n - p*chunkSize) = chunkSize := by omega
  have hsplit := sendOps_range_append n buf p 0 (d::post) (by rw [Nat.zero_add]; omega)
  rw [Nat.zero_mul, Nat.zero_add] at hsplit
  rw [hsplit, applyOps_append, sendOps_cons, applyOps_cons, hsent]
  generalize applyOps file (sendOps n buf (List.range' 0 p) 0) = before
  have hhere : (pwrite 0 before (d*chunkSize) (slice buf (p*chunkSize) chunkSize))[i]? =
      some 0 := by
    rw [getElem?_pwrite_slice 0 before buf _ _ _ i hilo hihi hbuflen]
    exact hclean _ (by omega)
  -- The later requests are for later chunks.
  rcases getElem?_applyOps_other_chunks n buf post (p*chunkSize + chunkSize) _ i
    (by rw [hi]; exact fun hmem => absurd (hpost d hmem) (lt_irrefl d)) with hsame | hnone
  · rw [hsame, hhere]
  · rw [hhere] at hnone
    exact absurd hnone.1 (by simp)

lemma exists_one_of_dirty (f : OpenFile) (ws : List BufWrite) (d : ℕ)
    (hd : d ∈ dirtyAfter f.dirtyChunks ws) :
    ∃ i, i / chunkSize = d ∧
      (bufferedWrites (f.fill 1).toWbState (ws.map (BufWrite.fill 1))).cache[i]? = some 1 := by
  have hone := getElem?_bufferedWrites_fill (f.fill 1).toWbState ws
  rcases mem_dirtyAfter.mp hd with hold | ⟨w, hw, hmark⟩
  · refine ⟨d*chunkSize, Nat.mul_div_cancel _ chunkSize_pos, hone _ (Or.inl ?_)⟩
    rw [OpenFile.fill, List.getElem?_replicate, if_pos (f.dirty_inside d hold)]
  · obtain ⟨i, hlo, hhi, hchunk⟩ := exists_byte_of_marked hmark
    exact ⟨i, hchunk, hone i (Or.inr ⟨w, hw, hlo, hhi⟩)⟩

lemma not_syncedBy_of_gap (call : SyncCall) (f : OpenFile) (ws : List BufWrite)
    (h : ¬∃ m, dirtyAfter f.dirtyChunks ws = Finset.range m) :
    ¬SyncedBy call (f.fill 1) (ws.map (BufWrite.fill 1)) := by
  obtain ⟨buf, hbuf, hiff⟩ := syncedBy_iff call (f.fill 1) (ws.map (BufWrite.fill 1))
  have hinside := bufferedWrites_dirty_inside (f.fill 1).toWbState (ws.map (BufWrite.fill 1))
    (f.fill 1).dirty_inside
  have hone := exists_one_of_dirty f ws
  have hdirty : dirtyAfter (f.fill 1).dirtyChunks (ws.map (BufWrite.fill 1)) =
      dirtyAfter f.dirtyChunks ws := dirtyAfter_congr (shape_fill 1 ws) _
  rw [bufferedWrites_dirtyChunks, hdirty] at hinside
  rw [hdirty] at hbuf hiff
  rw [hiff]
  generalize (bufferedWrites (f.fill 1).toWbState (ws.map (BufWrite.fill 1))).cache = cache at *
  generalize dirtyAfter f.dirtyChunks ws = dirty at *
  rcases range'_or_gap dirty.sort 0 (fun x _ => Nat.zero_le x)
    (Finset.sortedLT_sort dirty).pairwise with hseg | ⟨p, d, post, hgap, hpd, hpost⟩
  · refine absurd ⟨dirty.sort.length, ?_⟩ h
    ext x
    rw [← Finset.mem_sort (· ≤ ·), hseg]
    simp
  · rw [Nat.zero_add] at hpd
    have hd : d ∈ dirty := by
      rw [← Finset.mem_sort (· ≤ ·), hgap]
      simp
    have hp : p ∉ dirty := by
      rw [← Finset.mem_sort (· ≤ ·), hgap]
      simp only [List.mem_append, List.mem_range'_1, List.mem_cons, not_or]
      exact ⟨by omega, by omega, fun hmem => absurd (hpost p hmem) (by omega)⟩
    obtain ⟨i, hi, hlocal⟩ := hone d hd
    intro heq
    have hserver := getElem?_applyOps_gap cache.length p d post buf (f.fill 1).cache (by
      intro j hj hlt
      rw [hbuf j, hj, if_neg hp, List.getElem?_replicate, if_pos hlt]) hpd (hinside d hd) hpost i hi
    rw [← hgap, heq, hlocal] at hserver
    exact absurd hserver (by simp)

lemma not_syncedBy_of_uncovered (call : SyncCall) (f : OpenFile) (ws : List BufWrite)
    (w : BufWrite) (hw : w ∈ ws) (i : ℕ) (hlo : w.offset ≤ i)
    (hhi : i < w.offset + w.buf.length) (hi : i / chunkSize ∉ dirtyAfter f.dirtyChunks ws) :
    ¬SyncedBy call (f.fill 0) (ws.map (BufWrite.fill 1)) := by
  obtain ⟨buf, hbuf, hiff⟩ := syncedBy_iff call (f.fill 0) (ws.map (BufWrite.fill 1))
  have hone := getElem?_bufferedWrites_fill (f.fill 0).toWbState ws i
    (Or.inr ⟨w, hw, hlo, hhi⟩)
  have hdirty : dirtyAfter (f.fill 0).dirtyChunks (ws.map (BufWrite.fill 1)) =
      dirtyAfter f.dirtyChunks ws := dirtyAfter_congr (shape_fill 1 ws) _
  rw [hdirty] at hiff
  rw [hiff]
  intro heq
  have hother := getElem?_applyOps_other_chunks
    (bufferedWrites (f.fill 0).toWbState (ws.map (BufWrite.fill 1))).cache.length buf
    (dirtyAfter f.dirtyChunks ws).sort 0 (f.fill 0).cache i (by rwa [Finset.mem_sort])
  rw [heq, hone, OpenFile.fill, List.getElem?_replicate] at hother
  split_ifs at hother <;> simp at hother

/-- For given sizes, offsets and dirty chunks, the write-back leaves the server with the local
content, whatever the bytes are, exactly when the marked chunks are an initial segment of the
file that covers every written byte. -/
theorem sync_after_writes_iff (call : SyncCall) (f : OpenFile) (ws : List BufWrite) :
    (∀ (g : OpenFile) (vs : List BufWrite), g.SameShape f →
      vs.map BufWrite.shape = ws.map BufWrite.shape → SyncedBy call g vs) ↔
      FlushShape f.dirtyChunks ws := by
  constructor
  · intro h
    have hfill : ∀ b : UInt8, (f.fill b).SameShape f := fun b =>
      ⟨List.length_replicate .., rfl⟩
    constructor
    · by_contra hseg
      exact not_syncedBy_of_gap call f ws hseg (h _ _ (hfill 1) (shape_fill 1 ws))
    · intro w hw i hlo hhi
      by_contra hi
      exact not_syncedBy_of_uncovered call f ws w hw i hlo hhi hi
        (h _ _ (hfill 0) (shape_fill 1 ws))
  · rintro h g vs ⟨-, hdirty⟩ hvs
    exact syncedBy_of_shape call g vs (FlushShape.congr hvs (hdirty ▸ h))

def emptyFile : OpenFile where
  cache := []
  dirtyChunks := ∅
  totalDirtyChunks := 0
  dirty_inside := by simp

/-- One byte written at the start of the second chunk of an empty file: the flush reports
success, and the server does not hold the local content. -/
theorem flush_second_chunk_differs :
    ∃ fuel st file,
      SyncCall.flush.run fuel plainServer
        (bufferedWrites emptyFile.toWbState [⟨chunkSize, [1]⟩]) emptyFile.cache =
          some (st, file, bfsSuccess) ∧ file ≠ st.cache := by
  have hdirty : dirtyAfter emptyFile.dirtyChunks [⟨chunkSize, [1]⟩] = {1} := by
    simp only [dirtyAfter, emptyFile, marked, List.foldl_cons, List.foldl_nil, List.length_singleton]
    decide
  have hseg : ¬∃ m, dirtyAfter emptyFile.dirtyChunks [⟨chunkSize, [1]⟩] = Finset.range m := by
    rintro ⟨m, hm⟩
    have h1 : 1 ∈ Finset.range m := by simp [← hm, hdirty]
    have h0 : 0 ∈ ({1} : Finset ℕ) := by
      rw [← hdirty, hm, Finset.mem_range]
      exact (Nat.zero_lt_one).trans (Finset.mem_range.mp h1)
    exact absurd h0 (by decide)
  have hnot : ¬SyncedBy .flush emptyFile [⟨chunkSize, [1]⟩] :=
    not_syncedBy_of_gap .flush emptyFile [⟨chunkSize, [1]⟩] hseg
  obtain ⟨fuel, st, file, hrun⟩ := sync_returns .flush emptyFile [⟨chunkSize, [1]⟩]
  exact ⟨fuel, st, file, hrun, fun heq => hnot ⟨fuel, st, file, hrun, heq⟩⟩

end Agreement

end Bfs.Client
