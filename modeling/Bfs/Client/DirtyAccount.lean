import Bfs.Client.FlushLoop

/-! The accounting of dirty chunks through every exit of the client calls. The counter
`total_dirty_chunks` is compared with the dirty sets of the open handles, and the chunks that
leave a dirty set with the requests that the server has acknowledged. -/
namespace Bfs.Client
open ByteSeq
open Bfs.Rpc

section Model

/-- The outcomes of the local file calls of `bfs_write_helper` and the replies to its requests,
in order. A failed `pwrite` and a connection or decryption error are `none`. -/
structure WriteIo where
  pwrite : Option ℕ
  statOk : Bool
  preadOk : ℕ → Bool
  replies : ℕ → Option ℕ

def acknowledges (op : WriteOp) : Option ℕ → Bool
  | none => false
  | some bytesWritten => !decide (bytesWritten < op.data.length)

def ackServer (replies : ℕ → Option ℕ) (sv : ℕ × List WriteOp) (op : WriteOp) :
    (ℕ × List WriteOp) × Option ℕ :=
  ((sv.1+1, if acknowledges op (replies sv.1) then sv.2 ++ [op] else sv.2), replies sv.1)

/-- The staging loop with the outcomes of its `pread` calls. A failed call ends it at once, when
the chunk has left the dirty set and is still counted. -/
def stageLoopIo (preadOk : ℕ → Bool) (e : StageEnv) : ℕ → Staging → Option (Staging × Bool)
  | 0, _ => none
  | fuel+1, s =>
    if s.totalBytesWritten < e.totalSize ∨ s.dirtyChunks.Nonempty then
      let chunk := (e.offset + s.totalBytesWritten) / chunkSize
      if (e.flush || e.forceFlush) && decide (chunk ∈ s.dirtyChunks) && !preadOk chunk then
        some
          ({ s with
              dirtyChunks := s.dirtyChunks.erase chunk
              dirtyChunksLocal := s.dirtyChunksLocal ++ [chunk] }, false)
      else
        let next := stageStep e s
        if next.2 then some (next.1, true) else stageLoopIo preadOk e fuel next.1
    else some (s, true)

def stageStart (a : WriteArgs) (st : WbState) : Staging :=
  ⟨0, st.dirtyChunks, [], List.replicate (stageEnv a st).totalSize 0, st.totalDirtyChunks⟩

/-- The sending loop after a complete staging loop. The requests that were acknowledged in full
are kept beside the state and the return value. -/
def sendStaged (io : WriteIo) (a : WriteArgs) (st : WbState) (s : Staging) :
    WbState × List WriteOp × ℤ :=
  let e := stageEnv a st
  let r :=
    if e.flush || e.forceFlush then
      sendDirty (ackServer io.replies) e.totalSize s.writeBuf s.dirtyChunksLocal 0 (0, [])
    else sendDirect (ackServer io.replies) e.offset e.totalSize s.writeBuf e.totalSize 0 (0, [])
  (⟨st.cache, s.dirtyChunks, s.totalDirtyChunks⟩, r.1.2,
    match r.2 with
    | none => bfsFailure
    | some totalBytesWritten => if a.directIo then totalBytesWritten else bfsSuccess)

/-- `bfs_write_helper` with the outcomes of its local calls. -/
def bfsWriteHelperIo (fuel : ℕ) (io : WriteIo) (a : WriteArgs) (st : WbState) :
    Option (WbState × List WriteOp × ℤ) :=
  if !a.directIo && !a.flush then
    match io.pwrite with
    | none => some (st, [], bfsFailure)
    | some wb => some (LocalOp.apply st (.write a.offset a.buf wb), [], wb)
  else if !a.directIo && !io.statOk then some (st, [], bfsFailure)
  else
    (stageLoopIo io.preadOk (stageEnv a st) fuel (stageStart a st)).map fun r =>
      if r.2 then sendStaged io a st r.1
      else (⟨st.cache, r.1.dirtyChunks, r.1.totalDirtyChunks⟩, [], bfsFailure)

lemma stageLoopIo_of_read {preadOk : ℕ → Bool} (h : ∀ d, preadOk d = true) (e : StageEnv)
    (fuel : ℕ) (s : Staging) :
    stageLoopIo preadOk e fuel s = (stageLoop e fuel s).map fun s => (s, true) := by
  induction fuel generalizing s with
  | zero => rfl
  | succ fuel ih =>
    simp only [stageLoopIo, stageLoop, h, Bool.not_true, Bool.and_false, Bool.false_eq_true,
      if_false, ih]
    split_ifs <;> rfl

theorem bfsWriteHelperIo_of_good (fuel : ℕ) (io : WriteIo) (a : WriteArgs) (st : WbState)
    (hwrite : io.pwrite = some a.buf.length) (hstat : io.statOk = true)
    (hread : ∀ d, io.preadOk d = true) :
    bfsWriteHelperIo fuel io a st =
      (bfsWriteHelper fuel (ackServer io.replies) a st (0, [])).map
        fun r => (r.1, r.2.1.2, r.2.2) := by
  rw [bfsWriteHelperIo, bfsWriteHelper]
  by_cases hmode : (!a.directIo && !a.flush) = true
  · rw [if_pos hmode, if_pos hmode, hwrite]
    simp only [Option.map_some, apply_write_of_full]
    rfl
  · rw [if_neg hmode, if_neg hmode, hstat, if_neg (by simp), stageLoopIo_of_read hread,
      Option.map_map, Option.map_map]
    rfl

/-- The steps of the client. `answer` is the handle that the server returned, `none` after an
exception, and `localOk`, `closeOk` are the outcomes of the local calls. -/
inductive ClientStep
  | create (path : Path) (answer : Option UInt64) (localOk : Bool)
  | openFile (path : Path) (answer : Option UInt64) (localOk : Bool)
  | write (fh : UInt64) (offset : ℕ) (buf : List UInt8) (io : WriteIo)
  | flush (fh : UInt64) (io : WriteIo)
  | fsync (fh : UInt64) (io : WriteIo)
  | truncate (fh : UInt64) (length : ℕ) (done : Bool)
  | background (fh : UInt64) (io : WriteIo)
  | release (fh : UInt64) (closeOk : Bool)

abbrev Acks := List (UInt64 × WriteOp)

namespace LocalCache

variable (c : LocalCache)

/-- `bfs_create` and `bfs_open` after the reply of the server. -/
def opened (path : Path) (answer : Option UInt64) (localOk trunc : Bool) : LocalCache :=
  match answer with
  | none => c
  | some fh =>
    if fh.toInt64 < startFd ∨ localOk = false then c else c.openLocal fh path trunc

/-- `bfs_write_helper` on the maps. -/
def writeHelper (fuel : ℕ) (fh : UInt64) (io : WriteIo) (a : WriteArgs) :
    Option (LocalCache × Acks × ℤ) :=
  match c.fileCache fh with
  | none => none
  | some path =>
    (bfsWriteHelperIo fuel io a (c.wbState fh path)).map fun r =>
      (c.setWbState fh path r.1, r.2.1.map fun op => (fh, op), r.2.2)

/-- The local part of `bfs_truncate`, made once the server has answered with success. -/
def truncateLocal (fh : UInt64) (length : ℕ) (done : Bool) : Option LocalCache :=
  match c.fileCache fh with
  | none => none
  | some path =>
    if done then
      some { c with files := Function.update c.files path (some (resize length (c.bytes path))) }
    else some c

/-- The local part of `bfs_release`. -/
def releaseLocal (fh : UInt64) (closeOk : Bool) : LocalCache :=
  match c.fileCache fh with
  | none => c
  | some _ => if closeOk then c.closeLocal fh else c

def flushArgs (direct force : Bool) : WriteArgs := ⟨[], 0, direct, true, force⟩

/-- One step, with the acknowledged requests. There is none for a handle that is not open, and for
a call that does not return. The background write-back takes any open handle, since it takes the
first of an unordered map. -/
def step (direct : Bool) (fuel : ℕ) : ClientStep → Option (LocalCache × Acks)
  | .create path answer localOk => some (c.opened path answer localOk true, [])
  | .openFile path answer localOk => some (c.opened path answer localOk false, [])
  | .write fh offset buf io =>
    (c.writeHelper fuel fh io ⟨buf, offset, direct, false, false⟩).map fun r => (r.1, r.2.1)
  | .flush fh io => (c.writeHelper fuel fh io (flushArgs direct false)).map fun r => (r.1, r.2.1)
  | .fsync fh io => (c.writeHelper fuel fh io (flushArgs direct false)).map fun r => (r.1, r.2.1)
  | .truncate fh length done => (c.truncateLocal fh length done).map fun c' => (c', [])
  | .background fh io =>
    if congestionThreshold ≤ c.totalDirtyChunks then
      (c.writeHelper fuel fh io (flushArgs direct true)).map fun r => (r.1, r.2.1)
    else some (c, [])
  | .release fh closeOk => some (c.releaseLocal fh closeOk, [])

end LocalCache

end Model

section Counting

lemma foldl_mark_count (l : List ℕ) (acc : Finset ℕ × ℕ) :
    (l.foldl (fun acc i => if i ∈ acc.1 then acc else (insert i acc.1, acc.2 + 1)) acc).2 +
        acc.1.card =
      acc.2 +
        (l.foldl (fun acc i => if i ∈ acc.1 then acc else (insert i acc.1, acc.2 + 1)) acc).1.card := by
  induction l generalizing acc with
  | nil => rfl
  | cons i l ih =>
    rw [List.foldl_cons]
    have hrest := ih (if i ∈ acc.1 then acc else (insert i acc.1, acc.2 + 1))
    by_cases hmem : i ∈ acc.1
    · rw [if_pos hmem] at hrest ⊢
      exact hrest
    · rw [if_neg hmem] at hrest ⊢
      rw [Finset.card_insert_of_notMem hmem] at hrest
      omega

lemma apply_count (st : WbState) (op : LocalOp) :
    (LocalOp.apply st op).totalDirtyChunks + st.dirtyChunks.card =
      st.totalDirtyChunks + (LocalOp.apply st op).dirtyChunks.card := by
  cases op with
  | write offset buf wb => exact foldl_mark_count _ (st.dirtyChunks, st.totalDirtyChunks)
  | truncate length => rfl

lemma stageStep_count (e : StageEnv) (s : Staging)
    (h : s.dirtyChunks.card ≤ s.totalDirtyChunks) :
    (stageStep e s).1.totalDirtyChunks + s.dirtyChunks.card =
        s.totalDirtyChunks + (stageStep e s).1.dirtyChunks.card ∧
      (stageStep e s).1.dirtyChunks ⊆ s.dirtyChunks := by
  have herase : ∀ d ∈ s.dirtyChunks,
      s.totalDirtyChunks - 1 + s.dirtyChunks.card =
        s.totalDirtyChunks + (s.dirtyChunks.erase d).card := by
    intro d hd
    have hcard := Finset.card_erase_add_one hd
    omega
  simp only [stageStep]
  split_ifs with hflush hmem hbreak
  · exact ⟨herase _ hmem, Finset.erase_subset _ _⟩
  · exact ⟨herase _ hmem, Finset.erase_subset _ _⟩
  · exact ⟨rfl, Finset.Subset.refl _⟩
  · exact ⟨rfl, Finset.Subset.refl _⟩

/-- A staging loop counts off what it takes, except for the chunk of a failed `pread`. -/
lemma stageLoopIo_count {preadOk : ℕ → Bool} {e : StageEnv} {fuel : ℕ} {s s' : Staging}
    {complete : Bool} (h : s.dirtyChunks.card ≤ s.totalDirtyChunks)
    (hrun : stageLoopIo preadOk e fuel s = some (s', complete)) :
    s'.totalDirtyChunks + s.dirtyChunks.card =
        s.totalDirtyChunks + s'.dirtyChunks.card + (if complete then 0 else 1) ∧
      s'.dirtyChunks ⊆ s.dirtyChunks ∧ (complete = false → s.dirtyChunks.Nonempty) := by
  induction fuel generalizing s with
  | zero => exact absurd hrun (by simp [stageLoopIo])
  | succ fuel ih =>
    simp only [stageLoopIo] at hrun
    obtain ⟨hcount, hsub⟩ := stageStep_count e s h
    split_ifs at hrun with hguard hread hbreak
    · cases hrun
      have hmem : (e.offset + s.totalBytesWritten) / chunkSize ∈ s.dirtyChunks := by
        simp only [Bool.and_eq_true, decide_eq_true_eq] at hread
        exact hread.1.2
      have hcard := Finset.card_erase_add_one hmem
      refine ⟨?_, Finset.erase_subset _ _, fun _ => ⟨_, hmem⟩⟩
      rw [if_neg (by simp)]
      dsimp only
      omega
    · cases hrun
      exact ⟨hcount, hsub, fun h => absurd h (by decide)⟩
    · obtain ⟨hcount', hsub', hread'⟩ := ih (by omega) hrun
      exact ⟨by omega, hsub'.trans hsub, fun h => (hread' h).mono hsub⟩
    · cases hrun
      exact ⟨rfl, Finset.Subset.refl _, fun h => absurd h (by decide)⟩

/-- How `bfs_write_helper` can end. -/
inductive HelperEnd (fuel : ℕ) (io : WriteIo) (a : WriteArgs) (st : WbState) :
    WbState × List WriteOp × ℤ → Prop
  | failed : HelperEnd fuel io a st (st, [], bfsFailure)
  | buffered (wb : ℕ) (hdirect : a.directIo = false) (hflush : a.flush = false) :
    HelperEnd fuel io a st (LocalOp.apply st (.write a.offset a.buf wb), [], wb)
  | unread (s : Staging) (hmode : a.directIo = true ∨ a.flush = true)
    (hstat : a.directIo = true ∨ io.statOk = true)
    (hrun : stageLoopIo io.preadOk (stageEnv a st) fuel (stageStart a st) = some (s, false)) :
    HelperEnd fuel io a st (⟨st.cache, s.dirtyChunks, s.totalDirtyChunks⟩, [], bfsFailure)
  | sent (s : Staging) (hmode : a.directIo = true ∨ a.flush = true)
    (hstat : a.directIo = true ∨ io.statOk = true)
    (hrun : stageLoopIo io.preadOk (stageEnv a st) fuel (stageStart a st) = some (s, true)) :
    HelperEnd fuel io a st (sendStaged io a st s)

/-- A call that does not lose a chunk to a failed `pread`: it is a write, it succeeds or it fails
before the staging loop. -/
def Careful (io : WriteIo) (a : WriteArgs) (ret : ℤ) : Prop :=
  a.directIo = false → a.flush = false ∨ io.statOk = false ∨ 0 ≤ ret

/-- The counter follows the dirty set, and stays behind by at most the chunk of a failed
`pread`. -/
lemma HelperEnd.count {fuel : ℕ} {io : WriteIo} {a : WriteArgs} {st : WbState}
    {r : WbState × List WriteOp × ℤ} (h : HelperEnd fuel io a st r)
    (hle : st.dirtyChunks.card ≤ st.totalDirtyChunks)
    (hdirect : a.directIo = true → st.dirtyChunks = ∅) :
    ∃ lost, r.1.totalDirtyChunks + st.dirtyChunks.card =
        st.totalDirtyChunks + r.1.dirtyChunks.card + lost ∧ (Careful io a r.2.2 → lost = 0) := by
  cases h with
  | failed => exact ⟨0, rfl, fun _ => rfl⟩
  | buffered wb hbuffered hflush => exact ⟨0, apply_count st _, fun _ => rfl⟩
  | unread s hmode hstat hrun =>
    obtain ⟨hcount, -, hne⟩ := stageLoopIo_count hle hrun
    refine ⟨1, hcount, ?_⟩
    intro hcareful
    cases hd : a.directIo with
    | true => exact absurd (hdirect hd) (hne rfl).ne_empty
    | false =>
      rw [hd] at hmode hstat
      simp only [Bool.false_eq_true, false_or] at hmode hstat
      rcases hcareful hd with hflush | hbad | hret
      · exact absurd (hmode.symm.trans hflush) (by decide)
      · exact absurd (hstat.symm.trans hbad) (by decide)
      · exact absurd hret (show ¬(0 : ℤ) ≤ bfsFailure by decide)
  | sent s hmode hstat hrun => exact ⟨0, (stageLoopIo_count hle hrun).1, fun _ => rfl⟩

end Counting

section Acknowledged

/-- The staging loop when the dirty chunks were the first `m`: those before chunk `j` have been
taken, and they are in place in the staging buffer. -/
structure StagedRange (cache : List UInt8) (m j : ℕ) (s : Staging) : Prop where
  left : s.dirtyChunks = Finset.Ico j m
  taken : s.dirtyChunksLocal = List.range (min j m)
  inside : ∀ k < min j m, k*chunkSize ≤ cache.length
  length : s.writeBuf.length = cache.length
  in_place : ∀ i, i / chunkSize < min j m → s.writeBuf[i]? = cache[i]?

structure WholeFile (e : StageEnv) : Prop where
  flush_on : e.flush = true
  from_start : e.offset = 0
  whole : e.totalSize = e.cache.length

variable {e : StageEnv} {m j : ℕ} {s : Staging}

lemma StagedRange.take (h : StagedRange e.cache m j s) (hjm : j < m)
    (hj : j*chunkSize ≤ e.cache.length) (t n : ℕ) :
    StagedRange e.cache m (j+1)
      ⟨t, s.dirtyChunks.erase j, s.dirtyChunksLocal ++ [j],
        splice s.writeBuf (j*chunkSize)
          (slice e.cache (j*chunkSize) (min chunkSize (e.cache.length - j*chunkSize))), n⟩ where
  left := by
    rw [h.left]
    ext d
    simp only [Finset.mem_erase, Finset.mem_Ico]
    omega
  taken := by
    rw [h.taken, show min (j+1) m = j+1 by omega, show min j m = j by omega, List.range_succ]
  inside := by
    intro k hk
    exact (Nat.mul_le_mul_right _ (show k ≤ j by omega)).trans hj
  length := by
    rw [length_splice_inside, h.length]
    rw [length_slice, h.length]
    omega
  in_place := by
    intro i hi
    refine (getElem?_splice_chunk e.cache s.writeBuf j i h.length hj).trans ?_
    split_ifs with hin
    · rfl
    · exact h.in_place i (by omega)

lemma StagedRange.pass (h : StagedRange e.cache m j s) (hjm : m ≤ j) (t : ℕ) :
    StagedRange e.cache m (j+1) { s with totalBytesWritten := t } where
  left := by
    rw [Finset.Ico_eq_empty_of_le (show m ≤ j+1 by omega), ← Finset.Ico_eq_empty_of_le hjm]
    exact h.left
  taken := by
    rw [show min (j+1) m = min j m by omega]
    exact h.taken
  inside := by
    rw [show min (j+1) m = min j m by omega]
    exact h.inside
  length := h.length
  in_place := by
    rw [show min (j+1) m = min j m by omega]
    exact h.in_place

lemma StagedRange.stageStep (he : WholeFile e) (h : StagedRange e.cache m j s)
    (hpos : s.totalBytesWritten = min (j*chunkSize) e.totalSize) :
    ∃ j', StagedRange e.cache m j' (stageStep e s).1 ∧
      ((stageStep e s).2 = false →
        (stageStep e s).1.totalBytesWritten = min (j'*chunkSize) e.totalSize) := by
  have hwhole := he.whole
  have hc := chunkSize_pos
  by_cases hj : j*chunkSize ≤ e.cache.length
  · -- The loop is at the start of chunk `j`.
    have hat : s.totalBytesWritten = j*chunkSize := by omega
    have hchunk : j*chunkSize / chunkSize = j := Nat.mul_div_cancel _ hc
    have hnext : j*chunkSize + min chunkSize (e.totalSize - j*chunkSize) =
        min ((j+1)*chunkSize) e.totalSize := by
      rw [Nat.add_mul, one_mul]
      omega
    refine ⟨j+1, ?_⟩
    simp only [Client.stageStep, he.flush_on, Bool.true_or, if_true, he.from_start, Nat.zero_add,
      hat, hchunk]
    by_cases hjm : j < m
    · have htake := h.take hjm hj
      rw [if_pos (by rw [h.left]; exact Finset.mem_Ico.mpr ⟨le_rfl, hjm⟩), hwhole]
      split_ifs
      · exact ⟨htake _ _, fun hgo => absurd hgo (by decide)⟩
      · exact ⟨htake _ _, fun _ => by rw [← hwhole]; exact hnext⟩
    · rw [if_neg (by rw [h.left, Finset.mem_Ico]; omega)]
      exact ⟨h.pass (by omega) _, fun _ => hnext⟩
  · -- The loop is at the end of the file and stays there.
    have hat : s.totalBytesWritten = e.totalSize := by omega
    have hlow : e.totalSize / chunkSize < j := by
      rw [Nat.div_lt_iff_lt_mul hc]
      omega
    refine ⟨j, ?_⟩
    simp only [Client.stageStep, he.flush_on, Bool.true_or, if_true, he.from_start, Nat.zero_add,
      hat, Nat.sub_self, Nat.min_zero, Nat.add_zero]
    rw [if_neg (by rw [h.left, Finset.mem_Ico]; omega)]
    exact ⟨⟨h.left, h.taken, h.inside, h.length, h.in_place⟩, fun _ => by dsimp only; omega⟩

lemma StagedRange.stageLoopIo (he : WholeFile e) {preadOk : ℕ → Bool} {fuel : ℕ} {s' : Staging}
    (h : StagedRange e.cache m j s) (hpos : s.totalBytesWritten = min (j*chunkSize) e.totalSize)
    (hrun : stageLoopIo preadOk e fuel s = some (s', true)) :
    ∃ j', StagedRange e.cache m j' s' := by
  induction fuel generalizing s j with
  | zero => exact absurd hrun (by simp [Client.stageLoopIo])
  | succ fuel ih =>
    obtain ⟨j', hstep, hpos'⟩ := h.stageStep he hpos
    simp only [Client.stageLoopIo] at hrun
    split_ifs at hrun with hguard hread hbreak
    · cases hrun
    · cases hrun
      exact ⟨j', hstep⟩
    · exact ih hstep (hpos' (by simpa using hbreak)) hrun
    · cases hrun
      exact ⟨j, h⟩

lemma HelperEnd.keeps {fuel : ℕ} {io : WriteIo} {a : WriteArgs} {st : WbState}
    {r : WbState × List WriteOp × ℤ} (h : HelperEnd fuel io a st r) (hdirect : a.directIo = false)
    (hearly : a.flush = false ∨ io.statOk = false) : st.dirtyChunks ⊆ r.1.dirtyChunks := by
  have hlate : (a.directIo = true ∨ a.flush = true) → (a.directIo = true ∨ io.statOk = true) →
      False := by
    intro hmode hstat
    simp only [hdirect, Bool.false_eq_true, false_or] at hmode hstat
    rcases hearly with hflush | hbad
    · exact absurd (hmode.symm.trans hflush) (by decide)
    · exact absurd (hstat.symm.trans hbad) (by decide)
  cases h with
  | failed => exact Finset.Subset.refl _
  | buffered wb hbuffered hflush =>
    rw [apply_dirtyChunks]
    exact Finset.subset_union_left
  | unread s hmode hstat hrun => exact (hlate hmode hstat).elim
  | sent s hmode hstat hrun => exact (hlate hmode hstat).elim

end Acknowledged

namespace LocalCache

section Sum

def dirtyAt (c : LocalCache) (fh : UInt64) : ℕ :=
  if (c.fileCache fh).isSome then (c.dirtyChunks fh).card else 0

def dirtyCount (c : LocalCache) : ℕ :=
  ∑ fh : UInt64 with (c.fileCache fh).isSome, (c.dirtyChunks fh).card

lemma dirtyCount_eq_sum (c : LocalCache) : c.dirtyCount = ∑ fh : UInt64, c.dirtyAt fh :=
  Finset.sum_filter _ _

lemma dirtyCount_of_change {c d : LocalCache} (fh : UInt64)
    (h : ∀ x ≠ fh, d.dirtyAt x = c.dirtyAt x) :
    d.dirtyCount + c.dirtyAt fh = c.dirtyCount + d.dirtyAt fh := by
  have hold := Finset.add_sum_erase Finset.univ c.dirtyAt (Finset.mem_univ fh)
  have hnew := Finset.add_sum_erase Finset.univ d.dirtyAt (Finset.mem_univ fh)
  have hrest : ∑ x ∈ Finset.univ.erase fh, d.dirtyAt x = ∑ x ∈ Finset.univ.erase fh, c.dirtyAt x :=
    Finset.sum_congr rfl fun x hx => h x (Finset.ne_of_mem_erase hx)
  rw [dirtyCount_eq_sum, dirtyCount_eq_sum]
  omega

lemma dirtyAt_le_dirtyCount (c : LocalCache) (fh : UInt64) : c.dirtyAt fh ≤ c.dirtyCount := by
  rw [dirtyCount_eq_sum]
  exact Finset.single_le_sum (fun x _ => Nat.zero_le _) (Finset.mem_univ fh)

lemma dirtyAt_of_open {c : LocalCache} {fh : UInt64} {path : Path}
    (h : c.fileCache fh = some path) : c.dirtyAt fh = (c.dirtyChunks fh).card := by
  rw [dirtyAt, h]
  rfl

lemma dirtyAt_of_empty {c : LocalCache} {fh : UInt64} (h : c.dirtyChunks fh = ∅) :
    c.dirtyAt fh = 0 := by
  rw [dirtyAt, h, Finset.card_empty, ite_self]

lemma dirtyCount_files (c : LocalCache) (files : Path → Option (List UInt8)) :
    ({ c with files := files } : LocalCache).dirtyCount = c.dirtyCount := by
  simp only [dirtyCount]

lemma openLocal_count (c : LocalCache) (fh : UInt64) (path : Path) (trunc : Bool) :
    (c.openLocal fh path trunc).dirtyCount + c.dirtyAt fh = c.dirtyCount := by
  have hnew : (c.openLocal fh path trunc).dirtyAt fh = 0 :=
    dirtyAt_of_empty (Function.update_self ..)
  have hsum := dirtyCount_of_change (c := c) (d := c.openLocal fh path trunc) fh (by
    intro x hx
    simp only [dirtyAt, openLocal, Function.update_of_ne hx])
  omega

lemma closeLocal_count (c : LocalCache) (fh : UInt64) :
    (c.closeLocal fh).dirtyCount + c.dirtyAt fh = c.dirtyCount := by
  have hnew : (c.closeLocal fh).dirtyAt fh = 0 := dirtyAt_of_empty (Function.update_self ..)
  have hsum := dirtyCount_of_change (c := c) (d := c.closeLocal fh) fh (by
    intro x hx
    simp only [dirtyAt, closeLocal, Function.update_of_ne hx])
  omega

lemma setWbState_count (c : LocalCache) {fh : UInt64} {path : Path} (st : WbState)
    (h : c.fileCache fh = some path) :
    (c.setWbState fh path st).dirtyCount + (c.dirtyChunks fh).card =
      c.dirtyCount + st.dirtyChunks.card := by
  have hnew : (c.setWbState fh path st).dirtyAt fh = st.dirtyChunks.card := by
    rw [dirtyAt_of_open (c := c.setWbState fh path st) h]
    exact congrArg Finset.card (Function.update_self ..)
  rw [← dirtyAt_of_open h, ← hnew]
  exact dirtyCount_of_change fh (by
    intro x hx
    simp only [dirtyAt, setWbState, Function.update_of_ne hx])

end Sum

section Runs

def FlushOk (direct force : Bool) (c : LocalCache) (fh : UInt64) (io : WriteIo) : Prop :=
  direct = false → io.statOk = false ∨
    (∃ m, c.dirtyChunks fh = Finset.range m) ∧
      ∀ fuel r, c.writeHelper fuel fh io (flushArgs direct force) = some r → 0 ≤ r.2.2

def Sound (direct : Bool) (c : LocalCache) : ClientStep → Prop
  | .create _ answer _ => ∀ fh, answer = some fh → c.dirtyChunks fh = ∅
  | .openFile _ answer _ => ∀ fh, answer = some fh → c.dirtyChunks fh = ∅
  | .write .. => True
  | .flush fh io => FlushOk direct false c fh io
  | .fsync fh io => FlushOk direct false c fh io
  | .truncate .. => True
  | .background fh io =>
    congestionThreshold ≤ c.totalDirtyChunks → FlushOk direct true c fh io
  | .release fh closeOk => closeOk = true → c.dirtyChunks fh = ∅

/-- The states of the client after steps that all satisfy `ok`. The local files may have any
content at the start. -/
inductive Reached (direct : Bool) (ok : LocalCache → ClientStep → Prop) : LocalCache → Prop
  | start (files : Path → Option (List UInt8)) :
    Reached direct ok ⟨files, fun _ => none, fun _ => ∅, 0⟩
  | step {c c' : LocalCache} {l : ClientStep} {fuel : ℕ} {acks : Acks} (hc : Reached direct ok c)
    (hok : ok c l) (hstep : c.step direct fuel l = some (c', acks)) : Reached direct ok c'

/-- What a sound step gives for a call of `bfs_write_helper`. -/
def WriteSound (c : LocalCache) (fh : UInt64) (io : WriteIo) (a : WriteArgs) (ret : ℤ) : Prop :=
  a.directIo = false → (a.flush = false ∨ io.statOk = false) ∨
    0 ≤ ret ∧ (∃ m, c.dirtyChunks fh = Finset.range m) ∧ ∃ force, a = flushArgs false force

lemma WriteSound.careful {c : LocalCache} {fh : UInt64} {io : WriteIo} {a : WriteArgs} {ret : ℤ}
    (h : WriteSound c fh io a ret) : Careful io a ret := by
  intro hdirect
  rcases h hdirect with (hflush | hstat) | ⟨hret, -⟩
  · exact Or.inl hflush
  · exact Or.inr (Or.inl hstat)
  · exact Or.inr (Or.inr hret)

inductive StepEnd (direct : Bool) (fuel : ℕ) (c : LocalCache) (l : ClientStep) :
    LocalCache × Acks → Prop
  | onFiles (files : Path → Option (List UInt8)) :
    StepEnd direct fuel c l ({ c with files := files }, [])
  | opened (fh : UInt64) (path : Path) (trunc : Bool)
    (hsound : Sound direct c l → c.dirtyChunks fh = ∅) :
    StepEnd direct fuel c l (c.openLocal fh path trunc, [])
  | closed (fh : UInt64) (hsound : Sound direct c l → c.dirtyChunks fh = ∅) :
    StepEnd direct fuel c l (c.closeLocal fh, [])
  | written (fh : UInt64) (path : Path) (io : WriteIo) (a : WriteArgs)
    (r : WbState × List WriteOp × ℤ) (hmode : a.directIo = direct)
    (hopen : c.fileCache fh = some path) (hend : HelperEnd fuel io a (c.wbState fh path) r)
    (hsound : Sound direct c l → WriteSound c fh io a r.2.2) :
    StepEnd direct fuel c l (c.setWbState fh path r.1, r.2.1.map fun op => (fh, op))

variable {direct : Bool} {fuel : ℕ} {c : LocalCache} {l : ClientStep} {r : LocalCache × Acks}

lemma StepEnd.count (h : StepEnd direct fuel c l r) (hle : c.dirtyCount ≤ c.totalDirtyChunks)
    (hdirect : direct = true → ∀ fh, c.dirtyChunks fh = ∅) :
    ∃ lost, r.1.totalDirtyChunks + c.dirtyCount =
        c.totalDirtyChunks + r.1.dirtyCount + lost ∧ (Sound direct c l → lost = 0) := by
  cases h with
  | onFiles files =>
    refine ⟨0, ?_, fun _ => rfl⟩
    dsimp only
    rw [dirtyCount_files c files, Nat.add_zero]
  | opened fh path trunc hsound =>
    have hsum := openLocal_count c fh path trunc
    refine ⟨c.dirtyAt fh, ?_, fun hs => dirtyAt_of_empty (hsound hs)⟩
    have htotal : (c.openLocal fh path trunc).totalDirtyChunks = c.totalDirtyChunks := rfl
    dsimp only
    omega
  | closed fh hsound =>
    have hsum := closeLocal_count c fh
    refine ⟨c.dirtyAt fh, ?_, fun hs => dirtyAt_of_empty (hsound hs)⟩
    have htotal : (c.closeLocal fh).totalDirtyChunks = c.totalDirtyChunks := rfl
    dsimp only
    omega
  | written fh path io a r hmode hopen hend hsound =>
    have hcard : (c.dirtyChunks fh).card ≤ c.totalDirtyChunks := by
      rw [← dirtyAt_of_open hopen]
      exact (c.dirtyAt_le_dirtyCount fh).trans hle
    obtain ⟨lost, hlost, hzero⟩ := hend.count hcard fun ha => hdirect (hmode ▸ ha) fh
    refine ⟨lost, ?_, fun hs => hzero (hsound hs).careful⟩
    have hsum := setWbState_count c r.1 hopen
    have htotal : (c.setWbState fh path r.1).totalDirtyChunks = r.1.totalDirtyChunks := rfl
    simp only [wbState] at hlost
    dsimp only
    omega

end Runs

end LocalCache

end Bfs.Client
