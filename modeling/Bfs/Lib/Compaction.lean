import Mathlib

/-! Compaction of an array in place: the entries that are kept move to the front, over entries that
have been read, and the rest is cleared. -/
namespace Compaction

variable {α : Type*} (p : α → Bool) (z : α)

def clear : ℕ → ℕ → List α → List α
  | 0, _, xs => xs
  | r+1, i, xs => clear r (i+1) (xs.set i z)

variable {p z}

end Compaction
