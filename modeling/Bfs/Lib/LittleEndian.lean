import Bfs.Lib.ByteSeq

/-! Numbers as little-endian bytes of a fixed width, and machine words as bytes. -/
namespace LittleEndian

def toBytes : ℕ → ℕ → List UInt8
  | 0, _ => []
  | w+1, n => UInt8.ofNat n :: toBytes w (n/256)

def ofBytes : List UInt8 → ℕ
  | [] => 0
  | b::bs => b.toNat + 256*ofBytes bs

@[simp] theorem toBytes_zero (n : ℕ) : toBytes 0 n = [] := rfl
@[simp] theorem toBytes_succ (w n : ℕ) :
    toBytes (w+1) n = UInt8.ofNat n :: toBytes w (n/256) := rfl
@[simp] theorem ofBytes_nil : ofBytes [] = 0 := rfl
@[simp] theorem ofBytes_cons (b : UInt8) (bs : List UInt8) :
    ofBytes (b::bs) = b.toNat + 256*ofBytes bs := rfl

@[simp] theorem length_toBytes (w n : ℕ) : (toBytes w n).length = w := by
  induction w generalizing n with
  | zero => rfl
  | succ w ih => rw [toBytes_succ, List.length_cons, ih]

theorem ofBytes_toBytes (w n : ℕ) : ofBytes (toBytes w n) = n % 256^w := by
  induction w generalizing n with
  | zero => simp [Nat.mod_one]
  | succ w ih =>
    have hbyte : (UInt8.ofNat n).toNat = n % 256 := UInt8.toNat_ofNat'
    rw [toBytes_succ, ofBytes_cons, ih, hbyte, pow_succ', Nat.mod_mul]

theorem ofBytes_zeros (k : ℕ) : ofBytes (List.replicate k 0) = 0 := by
  induction k with
  | zero => rfl
  | succ k ih => simp [List.replicate_succ, ih]

theorem ofBytes_clear_le (k : ℕ) (bs : List UInt8) :
    ofBytes (List.replicate k 0 ++ bs.drop k) ≤ ofBytes bs := by
  induction k generalizing bs with
  | zero => simp
  | succ k ih =>
    cases bs with
    | nil => simp [ofBytes_zeros]
    | cons b bs =>
      have hrest := ih bs
      have hzero : (0 : UInt8).toNat = 0 := rfl
      rw [List.replicate_succ, List.cons_append, List.drop_succ_cons, ofBytes_cons, ofBytes_cons, hzero]
      omega

def u32 (x : UInt32) : List UInt8 := toBytes 4 x.toNat
def ofU32 (bs : List UInt8) : UInt32 := UInt32.ofNat (ofBytes bs)

def u64 (x : UInt64) : List UInt8 := toBytes 8 x.toNat
def ofU64 (bs : List UInt8) : UInt64 := UInt64.ofNat (ofBytes bs)

@[simp] theorem length_u32 (x : UInt32) : (u32 x).length = 4 := length_toBytes _ _
@[simp] theorem length_u64 (x : UInt64) : (u64 x).length = 8 := length_toBytes _ _

@[simp] theorem ofU32_u32 (x : UInt32) : ofU32 (u32 x) = x := by
  have hx := x.toNat_lt
  rw [ofU32, u32, ofBytes_toBytes, Nat.mod_eq_of_lt (by omega), UInt32.ofNat_toNat]

@[simp] theorem ofU64_u64 (x : UInt64) : ofU64 (u64 x) = x := by
  have hx := x.toNat_lt
  rw [ofU64, u64, ofBytes_toBytes, Nat.mod_eq_of_lt (by omega), UInt64.ofNat_toNat]

theorem ofU64_zeros (k : ℕ) : ofU64 (List.replicate k 0) = 0 := by
  rw [ofU64, ofBytes_zeros]
  rfl

section Words

def words (xs : List UInt64) : List UInt8 := xs.flatMap u64

def ofWords : ℕ → List UInt8 → List UInt64
  | 0, _ => []
  | k+1, bs => ofU64 (bs.take 8) :: ofWords k (bs.drop 8)

@[simp] theorem words_nil : words [] = [] := rfl
@[simp] theorem words_cons (x : UInt64) (xs : List UInt64) : words (x::xs) = u64 x ++ words xs := rfl

@[simp] theorem length_words (xs : List UInt64) : (words xs).length = 8*xs.length := by
  induction xs with
  | nil => rfl
  | cons x xs ih =>
    rw [words_cons, List.length_append, length_u64, ih, List.length_cons]
    omega

@[simp] theorem length_ofWords (k : ℕ) (bs : List UInt8) : (ofWords k bs).length = k := by
  induction k generalizing bs with
  | zero => rfl
  | succ k ih => rw [ofWords, List.length_cons, ih]

@[simp] theorem ofWords_words (xs : List UInt64) : ofWords xs.length (words xs) = xs := by
  induction xs with
  | nil => rfl
  | cons x xs ih =>
    have hlen : (u64 x).length = 8 := length_u64 x
    rw [List.length_cons, ofWords, words_cons, List.take_left' hlen, List.drop_left' hlen, ih,
      ofU64_u64]

theorem ofWords_zeros (k m : ℕ) : ofWords k (List.replicate m 0) = List.replicate k 0 := by
  induction k generalizing m with
  | zero => rfl
  | succ k ih => rw [ofWords, List.take_replicate, List.drop_replicate, ofU64_zeros, ih,
      List.replicate_succ]

theorem slice_words {xs : List UInt64} {k : ℕ} {x : UInt64} (h : xs[k]? = some x) :
    ByteSeq.slice (words xs) (8*k) 8 = u64 x := by
  induction xs generalizing k with
  | nil => simp at h
  | cons y xs ih =>
    rw [words_cons]
    cases k with
    | zero =>
      obtain rfl : y = x := by simpa using h
      rw [Nat.mul_zero, ByteSeq.slice_append_left _ _ (length_u64 y).symm]
    | succ k =>
      rw [ByteSeq.slice_append_right _ _ _ (by rw [length_u64]; omega), length_u64,
        show 8*(k+1) - 8 = 8*k by omega]
      exact ih (by simpa using h)

end Words

end LittleEndian
