import Mathlib

/-! Positions in a concatenation of ranges: a position is a part and a position in it. -/
namespace Concat

/-- The part in which position `v` of the concatenation of ranges of sizes `ns` lies, and the position
there. -/
def locate : List ℕ → ℕ → Option (ℕ × ℕ)
  | [], _ => none
  | n::ns, v => if v < n then some (0, v) else (locate ns (v-n)).map fun r => (r.1+1, r.2)

theorem locate_eq_some_iff {ns : List ℕ} {v i p : ℕ} :
    locate ns v = some (i, p) ↔ ∃ n, ns[i]? = some n ∧ p < n ∧ v = (ns.take i).sum + p := by
  induction ns generalizing v i with
  | nil => simp [locate]
  | cons n ns ih =>
    simp only [locate]
    split_ifs with hv
    · cases i with
      | zero =>
        simp only [Option.some.injEq, Prod.mk.injEq, true_and, List.getElem?_cons_zero,
          exists_eq_left', List.take_zero, List.sum_nil, zero_add]
        constructor
        · rintro rfl
          exact ⟨hv, rfl⟩
        · exact fun h => h.2
      | succ i =>
        simp only [Option.some.injEq, Prod.mk.injEq, List.getElem?_cons_succ, List.take_succ_cons,
          List.sum_cons]
        constructor
        · rintro ⟨h, -⟩
          omega
        · rintro ⟨m, -, -, h⟩
          omega
    · cases i with
      | zero =>
        simp only [Option.map_eq_some_iff, Prod.mk.injEq, List.getElem?_cons_zero,
          Option.some.injEq, exists_eq_left', List.take_zero, List.sum_nil, zero_add]
        constructor
        · rintro ⟨r, -, h, -⟩
          omega
        · rintro ⟨hp, rfl⟩
          exact absurd hp hv
      | succ i =>
        have hshift : v = (n + (ns.take i).sum) + p ↔ v - n = (ns.take i).sum + p := by omega
        simp only [Option.map_eq_some_iff, Prod.mk.injEq, List.getElem?_cons_succ,
          List.take_succ_cons, List.sum_cons, hshift, ← ih]
        constructor
        · rintro ⟨⟨j, q⟩, hloc, hj, rfl⟩
          obtain rfl : j = i := by omega
          exact hloc
        · intro hloc
          exact ⟨(i, p), hloc, rfl, rfl⟩

theorem locate_eq_none_iff {ns : List ℕ} {v : ℕ} : locate ns v = none ↔ ns.sum ≤ v := by
  induction ns generalizing v with
  | nil => simp [locate]
  | cons n ns ih =>
    rw [locate, List.sum_cons]
    split_ifs with hv
    · simp only [false_iff, not_le]
      omega
    · rw [Option.map_eq_none_iff, ih]
      omega

theorem locate_inj {ns : List ℕ} {v w : ℕ} {r : ℕ × ℕ} (hv : locate ns v = some r)
    (hw : locate ns w = some r) : v = w := by
  obtain ⟨-, -, -, hv⟩ := locate_eq_some_iff.mp hv
  obtain ⟨-, -, -, hw⟩ := locate_eq_some_iff.mp hw
  rw [hv, hw]

theorem locate_lt_iff {ns : List ℕ} {v w i p q : ℕ} (hv : locate ns v = some (i, p))
    (hw : locate ns w = some (i, q)) : p < q ↔ v < w := by
  obtain ⟨-, -, -, rfl⟩ := locate_eq_some_iff.mp hv
  obtain ⟨-, -, -, rfl⟩ := locate_eq_some_iff.mp hw
  omega

end Concat
