import Mathlib

/-! Finite sequences as memory buffers and files: reading a range, copying over a range, and a
positioned write that grows the sequence. Every operation is characterised by its entries. -/
namespace ByteSeq

variable {α : Type*}

def slice (xs : List α) (off len : ℕ) : List α := (xs.drop off).take len

def splice (xs : List α) (off : ℕ) (src : List α) : List α :=
  xs.take off ++ src ++ xs.drop (off + src.length)

def padTo (z : α) (n : ℕ) (xs : List α) : List α :=
  xs ++ List.replicate (n - xs.length) z

/-- Positioned write into a growing sequence. A gap before `off` is filled with `z`, and an
empty write changes nothing. -/
def pwrite (z : α) (xs : List α) (off : ℕ) (src : List α) : List α :=
  if src = [] then xs else splice (padTo z off xs) off src

section Slice

@[simp] theorem length_slice (xs : List α) (off len : ℕ) :
    (slice xs off len).length = min len (xs.length - off) := by simp [slice]

theorem getElem?_slice (xs : List α) (off len i : ℕ) :
    (slice xs off len)[i]? = if i < len then xs[off+i]? else none := by
  simp [slice, List.getElem?_take]

theorem slice_slice (xs : List α) (a n b m : ℕ) (h : b+m ≤ n) :
    slice (slice xs a n) b m = slice xs (a+b) m := by
  apply List.ext_getElem?
  intro i
  simp only [getElem?_slice]
  split_ifs with hi hbi
  · rw [Nat.add_assoc]
  · omega
  · rfl

@[simp] theorem slice_zero_length (xs : List α) : slice xs 0 xs.length = xs := by simp [slice]

theorem slice_replicate (z : α) (n off len : ℕ) :
    slice (List.replicate n z) off len = List.replicate (min len (n-off)) z := by
  simp [slice]

theorem slice_add (xs : List α) (off len n : ℕ) :
    slice xs off (len+n) = slice xs off len ++ slice xs (off+len) n := by
  rw [slice, slice, slice, ← List.drop_drop, List.take_add]

theorem slice_append_right (xs ys : List α) {a : ℕ} (len : ℕ) (h : xs.length ≤ a) :
    slice (xs ++ ys) a len = slice ys (a - xs.length) len := by
  rw [slice, List.drop_append, List.drop_eq_nil_of_le h, List.nil_append, slice]

theorem slice_append_left (xs ys : List α) {len : ℕ} (h : len = xs.length) :
    slice (xs ++ ys) 0 len = xs := by
  subst h
  rw [slice, List.drop_zero, List.take_left']
  rfl

end Slice

section Splice

theorem length_splice (xs : List α) (off : ℕ) (src : List α) (h : off ≤ xs.length) :
    (splice xs off src).length = max xs.length (off + src.length) := by
  simp only [splice, List.length_append, List.length_take, List.length_drop]
  omega

theorem length_splice_inside (xs : List α) (off : ℕ) (src : List α)
    (h : off + src.length ≤ xs.length) : (splice xs off src).length = xs.length := by
  rw [length_splice xs off src (by omega)]
  omega

theorem getElem?_splice (xs : List α) (off : ℕ) (src : List α) (h : off ≤ xs.length) (i : ℕ) :
    (splice xs off src)[i]? =
      if off ≤ i ∧ i < off + src.length then src[i-off]? else xs[i]? := by
  have htake : (xs.take off).length = off := by simp [h]
  unfold splice
  rw [List.append_assoc, List.getElem?_append, htake]
  split_ifs with hlt hmem hmem
  · omega
  · simp [hlt]
  · rw [List.getElem?_append_left (by omega)]
  · rw [List.getElem?_append_right (by omega), List.getElem?_drop]
    congr 1
    omega

theorem slice_splice_same (xs : List α) (off : ℕ) (src : List α) (h : off ≤ xs.length) :
    slice (splice xs off src) off src.length = src := by
  apply List.ext_getElem?
  intro i
  rw [getElem?_slice, getElem?_splice xs off src h]
  split_ifs with hi hmem
  · simp
  · omega
  · rw [List.getElem?_eq_none (by omega)]

theorem slice_splice_disjoint (xs : List α) (off : ℕ) (src : List α) (a n : ℕ)
    (h : off ≤ xs.length) (hd : a+n ≤ off ∨ off + src.length ≤ a) :
    slice (splice xs off src) a n = slice xs a n := by
  apply List.ext_getElem?
  intro i
  rw [getElem?_slice, getElem?_slice, getElem?_splice xs off src h]
  split_ifs with hi hmem
  · omega
  · rfl
  · rfl

theorem slice_parts (front mid back : List α) {off len : ℕ} (hoff : front.length = off)
    (hlen : mid.length = len) : slice (front ++ (mid ++ back)) off len = mid := by
  rw [slice, List.drop_left' hoff, List.take_left' hlen]

theorem splice_parts (front back : List α) {mid src : List α} {off : ℕ} (hoff : front.length = off)
    (hlen : src.length = mid.length) :
    splice (front ++ (mid ++ back)) off src = front ++ (src ++ back) := by
  rw [splice, List.take_left' hoff, hlen, ← List.append_assoc front mid back,
    List.drop_left' (by rw [List.length_append, hoff]), List.append_assoc]

end Splice

section Positioned

@[simp] theorem length_padTo (z : α) (n : ℕ) (xs : List α) :
    (padTo z n xs).length = max xs.length n := by
  simp only [padTo, List.length_append, List.length_replicate]
  omega

theorem getElem?_padTo (z : α) (n : ℕ) (xs : List α) (i : ℕ) :
    (padTo z n xs)[i]? = if xs.length ≤ i ∧ i < n then some z else xs[i]? := by
  unfold padTo
  rw [List.getElem?_append]
  split_ifs with hlt hmem hmem
  · omega
  · rfl
  · rw [List.getElem?_replicate, if_pos (by omega)]
  · rw [List.getElem?_replicate, if_neg (by omega), List.getElem?_eq_none (by omega)]

theorem length_pwrite (z : α) (xs : List α) (off : ℕ) (src : List α) :
    (pwrite z xs off src).length =
      if src = [] then xs.length else max xs.length (off + src.length) := by
  unfold pwrite
  split_ifs with h
  · rfl
  · rw [length_splice _ _ _ (by simp), length_padTo]
    omega

theorem length_le_length_pwrite (z : α) (xs : List α) (off : ℕ) (src : List α) :
    xs.length ≤ (pwrite z xs off src).length := by
  rw [length_pwrite]
  split_ifs
  · exact le_rfl
  · exact Nat.le_max_left _ _

theorem getElem?_pwrite (z : α) (xs : List α) (off : ℕ) (src : List α) (i : ℕ) :
    (pwrite z xs off src)[i]? =
      if off ≤ i ∧ i < off + src.length then src[i-off]?
      else if src ≠ [] ∧ xs.length ≤ i ∧ i < off then some z else xs[i]? := by
  unfold pwrite
  by_cases hs : src = []
  · subst hs
    rw [if_pos rfl, if_neg (by simp), if_neg (by simp)]
  · rw [if_neg hs, getElem?_splice _ _ _ (by simp), getElem?_padTo]
    simp [hs]

theorem getElem?_pwrite_behind (z : α) (xs : List α) (off : ℕ) (src : List α) (i : ℕ)
    (h : off + src.length ≤ i) : (pwrite z xs off src)[i]? = xs[i]? := by
  rw [getElem?_pwrite, if_neg (by omega), if_neg (by omega)]

theorem getElem?_pwrite_slice (z : α) (xs ys : List α) (off start len i : ℕ) (hlo : off ≤ i)
    (hhi : i < off + len) (hys : start + len ≤ ys.length) :
    (pwrite z xs off (slice ys start len))[i]? = ys[start + (i - off)]? := by
  rw [getElem?_pwrite, length_slice, if_pos (by omega), getElem?_slice, if_pos (by omega)]

end Positioned

end ByteSeq
