import Bfs.Client.Staging

/-! The sending loop of a flush, against a server that applies each request as a positioned write.
The loop hands out consecutive slices of the staging buffer, whatever the staged chunks are. -/
namespace Bfs.Client
open ByteSeq

section Sending

def sendOps (totalSize : ℕ) (writeBuf : List UInt8) : List ℕ → ℕ → List WriteOp
  | [], _ => []
  | d::ds, totalBytesWritten =>
    let writeBytes := min chunkSize (totalSize - totalBytesWritten)
    ⟨d*chunkSize, slice writeBuf totalBytesWritten writeBytes⟩ ::
      sendOps totalSize writeBuf ds (totalBytesWritten + writeBytes)

lemma sendOps_cons (totalSize : ℕ) (writeBuf : List UInt8) (d : ℕ) (ds : List ℕ) (t : ℕ) :
    sendOps totalSize writeBuf (d::ds) t =
      ⟨d*chunkSize, slice writeBuf t (min chunkSize (totalSize - t))⟩ ::
        sendOps totalSize writeBuf ds (t + min chunkSize (totalSize - t)) := rfl

def applyOps (file : List UInt8) (ops : List WriteOp) : List UInt8 :=
  ops.foldl (fun file op => pwrite 0 file op.offset op.data) file

@[simp] lemma applyOps_nil (file : List UInt8) : applyOps file [] = file := rfl

@[simp] lemma applyOps_cons (file : List UInt8) (op : WriteOp) (ops : List WriteOp) :
    applyOps file (op::ops) = applyOps (pwrite 0 file op.offset op.data) ops := rfl

lemma applyOps_append (file : List UInt8) (ops ops' : List WriteOp) :
    applyOps file (ops ++ ops') = applyOps (applyOps file ops) ops' := List.foldl_append

lemma sendDirty_plainServer (totalSize : ℕ) (writeBuf : List UInt8) (ds : List ℕ) (t : ℕ)
    (file : List UInt8) :
    ∃ t', sendDirty plainServer totalSize writeBuf ds t file =
      (applyOps file (sendOps totalSize writeBuf ds t), some t') := by
  induction ds generalizing t file with
  | nil => exact ⟨t, rfl⟩
  | cons d ds ih =>
    simp only [sendDirty, sendOne, plainServer, lt_irrefl, decide_false, Bool.not_false, if_true]
    exact ih _ _

lemma getElem?_pwrite_other_chunk (file : List UInt8) (d : ℕ) (data : List UInt8) (i : ℕ)
    (hlen : data.length ≤ chunkSize) (hne : i / chunkSize ≠ d) :
    (pwrite 0 file (d*chunkSize) data)[i]? = file[i]? ∨
      (file[i]? = none ∧ (pwrite 0 file (d*chunkSize) data)[i]? = some 0) := by
  have hout : ¬(d*chunkSize ≤ i ∧ i < d*chunkSize + data.length) := by
    rintro ⟨hlo, hhi⟩
    exact hne (div_chunk_eq_iff.mpr ⟨hlo, by rw [Nat.add_mul, one_mul]; omega⟩)
  rw [getElem?_pwrite, if_neg hout]
  split_ifs with hgap
  · exact Or.inr ⟨List.getElem?_eq_none hgap.2.1, rfl⟩
  · exact Or.inl rfl

lemma getElem?_applyOps_other_chunks (totalSize : ℕ) (writeBuf : List UInt8) (ds : List ℕ)
    (t : ℕ) (file : List UInt8) (i : ℕ) (hne : i / chunkSize ∉ ds) :
    (applyOps file (sendOps totalSize writeBuf ds t))[i]? = file[i]? ∨
      (file[i]? = none ∧ (applyOps file (sendOps totalSize writeBuf ds t))[i]? = some 0) := by
  induction ds generalizing t file with
  | nil => exact Or.inl rfl
  | cons d ds ih =>
    rw [List.mem_cons, not_or] at hne
    obtain ⟨hd, hds⟩ := hne
    rw [sendOps_cons, applyOps_cons]
    have hhead := getElem?_pwrite_other_chunk file d
      (slice writeBuf t (min chunkSize (totalSize - t))) i (by rw [length_slice]; omega) hd
    rcases ih (t + min chunkSize (totalSize - t)) _ hds with htail | ⟨hnone, hzero⟩
    · rw [htail]
      exact hhead
    · rw [hnone] at hhead
      rcases hhead with hsame | ⟨-, hsome⟩
      · exact Or.inr ⟨hsame.symm, hzero⟩
      · exact absurd hsome (by simp)

/-- The slice of chunk `k`, sent to chunk `k`, extends the synchronised part by one chunk. -/
lemma getElem?_send_own_chunk (cache base buf file : List UInt8) (k : ℕ)
    (hk : k*chunkSize < cache.length) (hbase : base.length ≤ cache.length)
    (hbuf : ∀ i, i / chunkSize = k → buf[i]? = cache[i]?)
    (hfile : ∀ i, file[i]? = if i / chunkSize < k then cache[i]? else base[i]?) (i : ℕ) :
    (pwrite 0 file (k*chunkSize)
      (slice buf (k*chunkSize) (min chunkSize (cache.length - k*chunkSize))))[i]? =
      if i / chunkSize < k+1 then cache[i]? else base[i]? := by
  have hpos := chunkSize_pos
  have hlow : i / chunkSize < k ↔ i < k*chunkSize := Nat.div_lt_iff_lt_mul hpos
  have hnext : i / chunkSize < k+1 ↔ i < k*chunkSize + chunkSize := by
    rw [Nat.div_lt_iff_lt_mul hpos, Nat.add_mul, one_mul]
  have hlen : (slice buf (k*chunkSize) (min chunkSize (cache.length - k*chunkSize))).length =
      min chunkSize (cache.length - k*chunkSize) := by
    have hlast : ∀ j, j < min chunkSize (cache.length - k*chunkSize) →
        k*chunkSize + j < buf.length := by
      intro j hj
      have hget := hbuf (k*chunkSize + j)
        (div_chunk_eq_iff.mpr ⟨by omega, by rw [Nat.add_mul, one_mul]; omega⟩)
      rw [List.getElem?_eq_getElem (show k*chunkSize + j < cache.length by omega)] at hget
      exact (List.getElem?_eq_some_iff.mp hget).1
    have := hlast (min chunkSize (cache.length - k*chunkSize) - 1) (by omega)
    rw [length_slice]
    omega
  rw [getElem?_pwrite, hlen, getElem?_slice]
  by_cases hin : k*chunkSize ≤ i ∧ i < k*chunkSize + min chunkSize (cache.length - k*chunkSize)
  · rw [if_pos hin, if_pos (by omega), if_pos (hnext.mpr (by omega)),
      show k*chunkSize + (i - k*chunkSize) = i by omega]
    exact hbuf i (div_chunk_eq_iff.mpr ⟨hin.1, by rw [Nat.add_mul, one_mul]; omega⟩)
  · rw [if_neg hin, if_neg, hfile i]
    · by_cases hi : i < k*chunkSize
      · rw [if_pos (hlow.mpr hi), if_pos (hnext.mpr (by omega))]
      · rw [if_neg (by rw [hlow]; omega)]
        by_cases hn : i < k*chunkSize + chunkSize
        · rw [if_pos (hnext.mpr hn), List.getElem?_eq_none (by omega),
            List.getElem?_eq_none (by omega)]
        · rw [if_neg (by rw [hnext]; omega)]
    · -- There is no gap: the part before chunk `k` is already synchronised.
      rintro ⟨-, hgap, hi⟩
      have hget := hfile i
      rw [if_pos (hlow.mpr hi), List.getElem?_eq_none hgap,
        List.getElem?_eq_getElem (show i < cache.length by omega)] at hget
      exact absurd hget (by simp)

lemma getElem?_applyOps_range (cache base buf : List UInt8) (r k t : ℕ) (file : List UInt8)
    (ht : t = min (k*chunkSize) cache.length) (hbase : base.length ≤ cache.length)
    (hinside : ∀ d < k+r, d*chunkSize < cache.length)
    (hbuf : ∀ i, i / chunkSize < k+r → buf[i]? = cache[i]?)
    (hfile : ∀ i, file[i]? = if i / chunkSize < k then cache[i]? else base[i]?) (i : ℕ) :
    (applyOps file (sendOps cache.length buf (List.range' k r) t))[i]? =
      if i / chunkSize < k+r then cache[i]? else base[i]? := by
  induction r generalizing k t file with
  | zero => exact hfile i
  | succ r ih =>
    have hk := hinside k (by omega)
    have ht' : t = k*chunkSize := by omega
    rw [List.range'_succ, sendOps_cons, applyOps_cons, ht', min_succ_mul k _ hk,
      show k+(r+1) = k+1+r by omega]
    refine ih (k+1) _ _ rfl (fun d hd => hinside d (by omega)) (fun i hi => hbuf i (by omega)) ?_
    exact getElem?_send_own_chunk cache base buf file k hk hbase
      (fun i hi => hbuf i (by omega)) hfile

lemma range'_or_gap (l : List ℕ) (k : ℕ) (hlow : ∀ x ∈ l, k ≤ x) (hinc : l.Pairwise (· < ·)) :
    l = List.range' k l.length ∨
      ∃ p d post, l = List.range' k p ++ d::post ∧ k+p < d ∧ (∀ x ∈ post, d < x) := by
  induction l generalizing k with
  | nil => exact Or.inl rfl
  | cons x xs ih =>
    rw [List.pairwise_cons] at hinc
    obtain ⟨hx, hxs⟩ := hinc
    have hkx := hlow x List.mem_cons_self
    rcases Nat.eq_or_lt_of_le hkx with rfl | hlt
    · rcases ih (k+1) (fun y hy => hx y hy) hxs with heq | ⟨p, d, post, heq, hgap, hpost⟩
      · left
        rw [List.length_cons, List.range'_succ, ← heq]
      · refine Or.inr ⟨p+1, d, post, ?_, by omega, hpost⟩
        rw [List.range'_succ, List.cons_append, ← heq]
    · exact Or.inr ⟨0, x, xs, rfl, hlt, hx⟩

lemma sendOps_range_append (totalSize : ℕ) (buf : List UInt8) (p k : ℕ) (ds : List ℕ)
    (h : (k+p)*chunkSize ≤ totalSize) :
    sendOps totalSize buf (List.range' k p ++ ds) (k*chunkSize) =
      sendOps totalSize buf (List.range' k p) (k*chunkSize) ++
        sendOps totalSize buf ds ((k+p)*chunkSize) := by
  induction p generalizing k with
  | zero => rfl
  | succ p ih =>
    have hk : (k+1)*chunkSize ≤ totalSize :=
      (Nat.mul_le_mul_right _ (by omega)).trans h
    have hfull : k*chunkSize + min chunkSize (totalSize - k*chunkSize) = (k+1)*chunkSize := by
      rw [Nat.add_mul, one_mul] at hk ⊢
      omega
    rw [show k+(p+1) = k+1+p by omega] at h ⊢
    rw [List.range'_succ, List.cons_append, sendOps_cons, sendOps_cons, hfull, ih (k+1) h]
    rfl

end Sending

end Bfs.Client
