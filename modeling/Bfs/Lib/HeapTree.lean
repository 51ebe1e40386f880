import Mathlib

/-! Complete binary trees in an array: node `i` has the children `2i+1` and `2i+2`, and the leaves
of a tree of height `h` start at `2^h-1`. Recomputing a list of nodes in descending order leaves
each of them consistent with its children. -/
namespace HeapTree

variable {α : Type*}

def up (i : ℕ) : ℕ := (i-1)/2

def ascend : ℕ → ℕ → List ℕ
  | 0, _ => []
  | k+1, i => i :: if i = 0 then [] else ascend k (up i)

def leaf (h b : ℕ) : ℕ := b + (2^h - 1)

def recompute (f : ℕ → α → α → α) (c : ℕ → α) (l : List ℕ) : ℕ → α :=
  l.foldl (fun c i => Function.update c i (f i (c (2*i+1)) (c (2*i+2)))) c

lemma up_lt {i : ℕ} (h : 0 < i) : up i < i := by
  unfold up
  omega

section Ascend

lemma le_of_mem_ascend {k i a : ℕ} (h : a ∈ ascend k i) : a ≤ i := by
  induction k generalizing i with
  | zero => exact absurd h (by simp [ascend])
  | succ k ih =>
    rw [ascend, List.mem_cons] at h
    rcases h with rfl | h
    · exact le_rfl
    · split_ifs at h with hi
      · exact absurd h (by simp)
      · exact (ih h).trans (up_lt (Nat.pos_of_ne_zero hi)).le

lemma pairwise_ascend (k i : ℕ) : (ascend k i).Pairwise (· > ·) := by
  induction k generalizing i with
  | zero => exact List.Pairwise.nil
  | succ k ih =>
    rw [ascend]
    split_ifs with hi
    · exact List.pairwise_singleton _ _
    · refine List.pairwise_cons.mpr ⟨?_, ih (up i)⟩
      intro a ha
      exact (le_of_mem_ascend ha).trans_lt (up_lt (Nat.pos_of_ne_zero hi))

lemma mem_ascend_iff {k i a : ℕ} (hi : i < 2^k - 1) : a ∈ ascend k i ↔ ∃ n, up^[n] i = a := by
  induction k generalizing i with
  | zero => exact absurd hi (by simp)
  | succ k ih =>
    have hup : up i ≤ i := by
      unfold up
      omega
    rw [ascend, List.mem_cons]
    split_ifs with hroot
    · subst hroot
      have hfix : ∀ n, up^[n] 0 = 0 := fun n => Function.iterate_fixed rfl n
      simp [hfix, eq_comm]
    · have hlt : up i < 2^k - 1 := by
        have hpow := Nat.one_le_two_pow (n := k)
        rw [pow_succ] at hi
        unfold up
        omega
      rw [ih hlt]
      constructor
      · rintro (rfl | ⟨n, hn⟩)
        · exact ⟨0, rfl⟩
        · exact ⟨n+1, hn⟩
      · rintro ⟨n, hn⟩
        cases n with
        | zero => exact .inl hn.symm
        | succ n => exact .inr ⟨n, hn⟩

end Ascend

section Leaves

lemma leaf_succ_pos (h b : ℕ) : 0 < leaf (h+1) b := by
  have hpow : 2 ≤ 2^(h+1) := by
    rw [pow_succ]
    have := Nat.one_le_two_pow (n := h)
    omega
  unfold leaf
  omega

lemma leaf_injective (h : ℕ) : Function.Injective (leaf h) := by
  intro a b hab
  unfold leaf at hab
  omega

lemma up_leaf (h b : ℕ) : up (leaf (h+1) b) = b/2 + (2^h - 1) := by
  have hpow := Nat.one_le_two_pow (n := h)
  unfold up leaf
  rw [pow_succ]
  omega

lemma up_leaf_lt {h b : ℕ} (hb : b < 2^(h+1)) : up (leaf (h+1) b) < 2^(h+1) - 1 := by
  have hpow := Nat.one_le_two_pow (n := h)
  rw [up_leaf]
  rw [pow_succ] at hb ⊢
  omega

lemma mem_ascend_up_leaf {h b m i : ℕ} (hb : b < 2^(h+1)) (hi : i ∈ ascend m (up (leaf (h+1) b)))
    (hge : 2^h - 1 ≤ i) : i = up (leaf (h+1) b) := by
  cases m with
  | zero => exact absurd hi (by simp [ascend])
  | succ m =>
    have hpow := Nat.one_le_two_pow (n := h)
    rw [pow_succ] at hb
    rw [ascend, List.mem_cons] at hi
    rcases hi with rfl | hi
    · rfl
    · split_ifs at hi with hroot
      · exact absurd hi (by simp)
      · have hle := le_of_mem_ascend hi
        rw [up_leaf] at hle hroot ⊢
        unfold up at hle
        omega

lemma children_up_leaf (h b : ℕ) :
    2*up (leaf (h+1) b) + 1 = leaf (h+1) (2*(b/2)) ∧
      2*up (leaf (h+1) b) + 2 = leaf (h+1) (2*(b/2)+1) := by
  have hpow := Nat.one_le_two_pow (n := h)
  rw [up_leaf]
  unfold leaf
  rw [pow_succ]
  omega

end Leaves

section Recompute

variable (f : ℕ → α → α → α)

@[simp] lemma recompute_nil (c : ℕ → α) : recompute f c [] = c := rfl

@[simp] lemma recompute_cons (c : ℕ → α) (i : ℕ) (l : List ℕ) :
    recompute f c (i::l) =
      recompute f (Function.update c i (f i (c (2*i+1)) (c (2*i+2)))) l := rfl

lemma recompute_of_notMem (c : ℕ → α) (l : List ℕ) {a : ℕ} (h : a ∉ l) :
    recompute f c l a = c a := by
  induction l generalizing c with
  | nil => rfl
  | cons i l ih =>
    rw [List.mem_cons, not_or] at h
    rw [recompute_cons, ih _ h.2, Function.update_of_ne h.1]

lemma recompute_of_mem (c : ℕ → α) {l : List ℕ} (hl : l.Pairwise (· > ·)) {a : ℕ} (h : a ∈ l) :
    recompute f c l a = f a (recompute f c l (2*a+1)) (recompute f c l (2*a+2)) := by
  induction l generalizing c with
  | nil => exact absurd h (by simp)
  | cons i l ih =>
    obtain ⟨hi, hl⟩ := List.pairwise_cons.mp hl
    rw [recompute_cons]
    by_cases hmem : a ∈ l
    · exact ih _ hl hmem
    · -- The head is recomputed once, and neither it nor its children are touched again.
      obtain rfl := (List.mem_cons.mp h).resolve_right hmem
      have hfree : ∀ j, a ≤ j → j ∉ l := fun j hj hjl => absurd (hi j hjl) (by omega)
      rw [recompute_of_notMem f _ l (hfree a le_rfl), recompute_of_notMem f _ l (hfree _ (by omega)),
        recompute_of_notMem f _ l (hfree _ (by omega)), Function.update_self,
        Function.update_of_ne (by omega), Function.update_of_ne (by omega)]

theorem eq_of_consistent {A : Set ℕ} {m : ℕ} (hA : ∀ i ∈ A, i < m) {c₁ c₂ : ℕ → α}
    (h₁ : ∀ i ∈ A, c₁ i = f i (c₁ (2*i+1)) (c₁ (2*i+2)))
    (h₂ : ∀ i ∈ A, c₂ i = f i (c₂ (2*i+1)) (c₂ (2*i+2))) (hoff : ∀ i ∉ A, c₁ i = c₂ i) :
    c₁ = c₂ := by
  -- the children of a node are behind it, so the induction goes from the last node of the set down
  have hfrom : ∀ n i, m - i ≤ n → c₁ i = c₂ i := by
    intro n
    induction n with
    | zero =>
      intro i hi
      exact hoff i fun hmem => absurd (hA i hmem) (by omega)
    | succ n ih =>
      intro i hi
      by_cases hmem : i ∈ A
      · have hlt := hA i hmem
        rw [h₁ i hmem, h₂ i hmem, ih (2*i+1) (by omega), ih (2*i+2) (by omega)]
      · exact hoff i hmem
  funext i
  exact hfrom (m - i) i le_rfl

end Recompute

end HeapTree
