import Bfs.Lib.ByteSeq

/-! Buffers of a fixed length. The length is part of the type, so that a copy outside of a buffer
cannot be written down. -/
namespace ByteSeq

variable {α : Type*} {n m : ℕ}

@[ext] structure Buf (α : Type*) (n : ℕ) where
  toList : List α
  length_toList : toList.length = n
  deriving DecidableEq, Repr

namespace Buf

def fill (z : α) (n : ℕ) : Buf α n := ⟨List.replicate n z, List.length_replicate⟩

def sub (b : Buf α n) (off len : ℕ) (h : off+len ≤ n) : Buf α len where
  toList := slice b.toList off len
  length_toList := by
    rw [length_slice, b.length_toList]
    omega

def copy (b : Buf α n) (off : ℕ) (src : Buf α m) (h : off+m ≤ n) : Buf α n where
  toList := splice b.toList off src.toList
  length_toList := by
    rw [length_splice_inside, b.length_toList]
    rw [b.length_toList, src.length_toList]
    exact h

@[simp] theorem toList_fill (z : α) (n : ℕ) : (fill z n).toList = List.replicate n z := rfl

theorem fill_injective (hn : 0 < n) : Function.Injective fun z : α => fill z n := by
  intro y z h
  have hlist : List.replicate n y = List.replicate n z := congrArg toList h
  exact List.replicate_right_injective hn.ne' hlist

@[simp] theorem sub_fill (z : α) (off len : ℕ) (h : off+len ≤ n) :
    (fill z n).sub off len h = fill z len := by
  ext1
  simp only [sub, fill, slice_replicate]
  congr 1
  omega

@[simp] theorem copy_fill (z : α) (off : ℕ) (h : off+m ≤ n) :
    (fill z n).copy off (fill z m) h = fill z n := by
  ext1
  apply List.ext_getElem?
  intro i
  simp only [copy, toList_fill]
  rw [getElem?_splice _ _ _ (by rw [List.length_replicate]; omega), List.length_replicate,
    List.getElem?_replicate, List.getElem?_replicate]
  split_ifs <;> first | rfl | omega

theorem sub_copy_same (b : Buf α n) (off : ℕ) (src : Buf α m) (h : off+m ≤ n) :
    (b.copy off src h).sub off m h = src := by
  ext1
  have hslice := slice_splice_same b.toList off src.toList (by rw [b.length_toList]; omega)
  rw [src.length_toList] at hslice
  exact hslice

theorem sub_copy_disjoint (b : Buf α n) (off : ℕ) (src : Buf α m) (h : off+m ≤ n)
    (a len : ℕ) (ha : a+len ≤ n) (hd : a+len ≤ off ∨ off+m ≤ a) :
    (b.copy off src h).sub a len ha = b.sub a len ha := by
  ext1
  apply slice_splice_disjoint
  · rw [b.length_toList]
    omega
  · rw [src.length_toList]
    exact hd

section Bytes

/-- Copy `src` over the entries from position `off` on; a copy that does not fit changes nothing. -/
def write (b : Buf α n) (off : ℕ) (src : List α) : Buf α n :=
  if h : off + src.length ≤ n then b.copy off ⟨src, rfl⟩ h else b

theorem toList_write (b : Buf α n) {off : ℕ} {src : List α} (h : off + src.length ≤ n) :
    (b.write off src).toList = splice b.toList off src := by
  rw [write, dif_pos h, copy]

theorem slice_write_inside (b : Buf α n) {off : ℕ} {src : List α} (h : off + src.length ≤ n)
    {a len : ℕ} (ha : a+len ≤ src.length) :
    slice (b.write off src).toList (off+a) len = slice src a len := by
  have hsame := slice_splice_same b.toList off src (by rw [b.length_toList]; omega)
  rw [toList_write b h, ← slice_slice _ off src.length a len ha, hsame]

theorem slice_write_disjoint (b : Buf α n) (off : ℕ) (src : List α) {a len : ℕ}
    (hd : a+len ≤ off ∨ off + src.length ≤ a) :
    slice (b.write off src).toList a len = slice b.toList a len := by
  by_cases h : off + src.length ≤ n
  · rw [toList_write b h]
    exact slice_splice_disjoint b.toList off src a len (by rw [b.length_toList]; omega) hd
  · rw [write, dif_neg h]

end Bytes

section Entries

def get (b : Buf α n) (i : Fin n) : α := b.toList.get (i.cast b.length_toList.symm)

def set (b : Buf α n) (i : Fin n) (x : α) : Buf α n where
  toList := b.toList.set i x
  length_toList := by rw [List.length_set, b.length_toList]

@[simp] theorem toList_set (b : Buf α n) (i : Fin n) (x : α) :
    (b.set i x).toList = b.toList.set i x := rfl

theorem getElem?_toList (b : Buf α n) (i : Fin n) : b.toList[(i : ℕ)]? = some (b.get i) := by
  have hi : (i : ℕ) < b.toList.length := by rw [b.length_toList]; exact i.isLt
  rw [List.getElem?_eq_getElem hi]
  rfl

theorem ext_get {b b' : Buf α n} (h : ∀ i, b.get i = b'.get i) : b = b' :=
  Buf.ext (List.ext_getElem (b.length_toList.trans b'.length_toList.symm) fun i hi _ =>
    h ⟨i, b.length_toList ▸ hi⟩)

theorem get_set (b : Buf α n) (i j : Fin n) (x : α) :
    (b.set i x).get j = if i = j then x else b.get j := by
  have hj : (j : ℕ) < b.toList.length := by rw [b.length_toList]; exact j.isLt
  apply Option.some_injective
  rw [← getElem?_toList, toList_set, List.getElem?_set, getElem?_toList]
  by_cases hij : i = j
  · rw [if_pos (by rw [hij]), if_pos (by rw [hij]; exact hj), if_pos hij]
  · rw [if_neg (fun h => hij (Fin.ext h)), if_neg hij]

end Entries

end Buf

end ByteSeq
