import Mathlib

/-! Doubly linked lists in a heap of nodes: what unlinking a node and appending one do to the list.
The prev field of the first node and the next field of the last one are not part of the list; what
they name decides whether unlinking an end is harmless. -/
namespace LinkedRing

structure Links where
  next : ℕ → ℕ
  prev : ℕ → ℕ

namespace Links

def unlink (h : Links) (a : ℕ) : Links where
  next := Function.update h.next (h.prev a) (h.next a)
  prev := Function.update h.prev (h.next a) (h.prev a)

/-- `a` is put between `last` and `first`; `first` does not learn of it. -/
def append (h : Links) (a last first : ℕ) : Links where
  next := Function.update (Function.update h.next a first) last a
  prev := Function.update h.prev a last

lemma unlink_next_prev (h : Links) (a : ℕ) : (h.unlink a).next (h.prev a) = h.next a :=
  Function.update_self _ _ _

lemma unlink_next_of_ne (h : Links) {a x : ℕ} (hx : x ≠ h.prev a) :
    (h.unlink a).next x = h.next x := Function.update_of_ne hx _ _

lemma unlink_prev_next (h : Links) (a : ℕ) : (h.unlink a).prev (h.next a) = h.prev a :=
  Function.update_self _ _ _

lemma unlink_prev_of_ne (h : Links) {a x : ℕ} (hx : x ≠ h.next a) :
    (h.unlink a).prev x = h.prev x := Function.update_of_ne hx _ _

lemma append_next_last (h : Links) (a last first : ℕ) : (h.append a last first).next last = a :=
  Function.update_self _ _ _

lemma append_next_new (h : Links) {a last first : ℕ} (hne : a ≠ last) :
    (h.append a last first).next a = first := by
  simp only [append, Function.update_of_ne hne, Function.update_self]

lemma append_next_of_ne (h : Links) {a last first x : ℕ} (hlast : x ≠ last) (hne : x ≠ a) :
    (h.append a last first).next x = h.next x := by
  simp only [append, Function.update_of_ne hlast, Function.update_of_ne hne]

lemma append_prev_new (h : Links) (a last first : ℕ) : (h.append a last first).prev a = last :=
  Function.update_self _ _ _

lemma append_prev_of_ne (h : Links) {a last first x : ℕ} (hne : x ≠ a) :
    (h.append a last first).prev x = h.prev x := Function.update_of_ne hne _ _

end Links

/-- Follow next up to `last`. -/
def walk (next : ℕ → ℕ) (last : ℕ) : ℕ → ℕ → Option (List ℕ)
  | 0, _ => none
  | fuel+1, a => if a = last then some [a] else (walk next last fuel (next a)).map (a :: ·)

def Links.Adjacent (h : Links) (a b : ℕ) : Prop := h.next a = b ∧ h.prev b = a

structure Linked (h : Links) (as : List ℕ) : Prop where
  nodup : as.Nodup
  adjacent : as.IsChain h.Adjacent

variable {h h' : Links} {a b last : ℕ} {as bs : List ℕ}

lemma walk_linked (hl : Linked h (a :: as)) (hlast : (a :: as).getLast (by simp) = last) {fuel : ℕ}
    (hfuel : as.length < fuel) : walk h.next last fuel a = some (a :: as) := by
  induction as generalizing a fuel with
  | nil =>
    obtain ⟨fuel, rfl⟩ : ∃ f, fuel = f + 1 := ⟨fuel - 1, by simp at hfuel; omega⟩
    obtain rfl : a = last := hlast
    simp [walk]
  | cons b as ih =>
    obtain ⟨fuel, rfl⟩ : ∃ f, fuel = f + 1 := ⟨fuel - 1, by simp at hfuel; omega⟩
    rw [List.getLast_cons (by simp)] at hlast
    have hchain := List.isChain_cons_cons.mp hl.adjacent
    have hnodup := List.nodup_cons.mp hl.nodup
    have hne : a ≠ last := by
      rintro rfl
      exact hnodup.1 (hlast ▸ List.getLast_mem _)
    rw [walk, if_neg hne, hchain.1.1, ih ⟨hnodup.2, hchain.2⟩ hlast (by simpa using hfuel)]
    rfl

lemma walk_closed {next : ℕ → ℕ} {S : ℕ → Prop} (hclosed : ∀ a, S a → S (next a)) (hlast : ¬ S last)
    (fuel : ℕ) (ha : S a) : walk next last fuel a = none := by
  induction fuel generalizing a with
  | zero => rfl
  | succ fuel ih =>
    rw [walk, if_neg (by rintro rfl; exact hlast ha), ih (hclosed a ha)]
    rfl

lemma Linked.congr (hl : Linked h as)
    (hkeep : ∀ a ∈ as.dropLast, ∀ b ∈ as.tail, h.Adjacent a b → h'.Adjacent a b) :
    Linked h' as := by
  refine ⟨hl.nodup, ?_⟩
  have hadj := hl.adjacent
  clear hl
  induction as with
  | nil => exact List.isChain_nil
  | cons a as ih =>
    cases as with
    | nil => exact List.isChain_singleton a
    | cons b as =>
      rw [List.isChain_cons_cons] at hadj ⊢
      refine ⟨hkeep a (by simp) b (by simp) hadj.1, ih ?_ hadj.2⟩
      intro x hx y hy hxy
      exact hkeep x (by simp [hx]) y (List.mem_of_mem_tail hy) hxy

lemma Linked.of_append_left (hl : Linked h (as ++ bs)) : Linked h as :=
  ⟨(List.nodup_append.mp hl.nodup).1, (List.isChain_append.mp hl.adjacent).1⟩

lemma Linked.of_append_right (hl : Linked h (as ++ bs)) : Linked h bs :=
  ⟨(List.nodup_append.mp hl.nodup).2.1, (List.isChain_append.mp hl.adjacent).2.1⟩

lemma Linked.of_cons (hl : Linked h (a :: as)) : Linked h as :=
  ⟨(List.nodup_cons.mp hl.nodup).2, hl.adjacent.tail⟩

lemma Linked.adjacent_append (hl : Linked h ((as ++ [a]) ++ b :: bs)) : h.Adjacent a b :=
  (List.isChain_append.mp hl.adjacent).2.2 a (by simp) b (by simp)

lemma Linked.append_of_adjacent (ha : Linked h (as ++ [a])) (hb : Linked h (b :: bs))
    (hab : h.Adjacent a b) (hnodup : ((as ++ [a]) ++ b :: bs).Nodup) :
    Linked h ((as ++ [a]) ++ b :: bs) := by
  refine ⟨hnodup, List.isChain_append.mpr ⟨ha.adjacent, hb.adjacent, ?_⟩⟩
  intro x hx y hy
  simp only [List.getLast?_concat, Option.mem_def, Option.some.injEq, List.head?_cons] at hx hy
  obtain rfl := hx
  obtain rfl := hy
  exact hab

lemma Linked.unlink_inner {p n : ℕ} (hl : Linked h ((as ++ [p]) ++ a :: n :: bs)) :
    Linked (h.unlink a) ((as ++ [p]) ++ n :: bs) := by
  have hnodup := hl.nodup
  have hpa : h.Adjacent p a := hl.adjacent_append
  have hrest := hl.of_append_right
  have han : h.Adjacent a n := (List.isChain_cons_cons.mp hrest.adjacent).1
  have hnb : Linked h (n :: bs) := ⟨(List.nodup_cons.mp hrest.nodup).2,
    (List.isChain_cons_cons.mp hrest.adjacent).2⟩
  rw [List.nodup_append] at hnodup
  obtain ⟨hnd, hnd', hdisj⟩ := hnodup
  have hap : a ∉ as ++ [p] := fun ha => hdisj a ha a (by simp) rfl
  have hpn : p ∉ n :: bs := fun hp => hdisj p (by simp) p (List.mem_cons_of_mem _ hp) rfl
  have hanb : a ∉ n :: bs := (List.nodup_cons.mp hnd').1
  apply Linked.append_of_adjacent
  · apply hl.of_append_left.congr
    intro x hx y hy hxy
    have hxm := List.dropLast_subset _ hx
    have hym := List.mem_of_mem_tail hy
    refine ⟨?_, ?_⟩
    · rw [h.unlink_next_of_ne, hxy.1]
      rw [hpa.2]
      rintro rfl
      exact hap ((hxy.1.symm.trans hpa.1) ▸ hym)
    · rw [h.unlink_prev_of_ne, hxy.2]
      rw [han.1]
      rintro rfl
      exact hdisj y hym y (by simp) rfl
  · apply hnb.congr
    intro x hx y hy hxy
    have hxm := List.dropLast_subset _ hx
    refine ⟨?_, ?_⟩
    · rw [h.unlink_next_of_ne, hxy.1]
      rw [hpa.2]
      rintro rfl
      exact hpn hxm
    · rw [h.unlink_prev_of_ne, hxy.2]
      rw [han.1]
      rintro rfl
      exact (List.nodup_cons.mp hnb.nodup).1 hy
  · refine ⟨?_, ?_⟩
    · rw [← hpa.2, h.unlink_next_prev, han.1]
    · rw [← han.1, h.unlink_prev_next, hpa.2]
  · rw [List.nodup_append]
    exact ⟨hnd, hnb.nodup, fun x hx y hy => hdisj x hx y (List.mem_cons_of_mem _ hy)⟩

lemma Linked.unlink_last {p : ℕ} (hl : Linked h ((as ++ [p]) ++ [a])) (hnext : h.next a ∉ (as ++ [p]).tail) :
    Linked (h.unlink a) (as ++ [p]) := by
  have hpa : h.Adjacent p a := hl.adjacent_append
  have hap : a ∉ as ++ [p] := fun ha => (List.nodup_append.mp hl.nodup).2.2 a ha a (by simp) rfl
  apply hl.of_append_left.congr
  intro x hx y hy hxy
  refine ⟨?_, ?_⟩
  · rw [h.unlink_next_of_ne, hxy.1]
    rw [hpa.2]
    rintro rfl
    exact hap ((hxy.1.symm.trans hpa.1) ▸ List.mem_of_mem_tail hy)
  · rw [h.unlink_prev_of_ne, hxy.2]
    rintro rfl
    exact hnext hy

lemma Linked.unlink_first (hl : Linked h (a :: as)) (hprev : h.prev a ∉ as.dropLast) :
    Linked (h.unlink a) as := by
  cases as with
  | nil => exact ⟨List.nodup_nil, List.isChain_nil⟩
  | cons b as =>
    have hab := (List.isChain_cons_cons.mp hl.adjacent).1
    have hb : Linked h (b :: as) := hl.of_cons
    apply hb.congr
    intro x hx y hy hxy
    refine ⟨?_, ?_⟩
    · rw [h.unlink_next_of_ne, hxy.1]
      rintro rfl
      exact hprev hx
    · rw [h.unlink_prev_of_ne, hxy.2]
      rw [hab.1]
      rintro rfl
      exact (List.nodup_cons.mp hb.nodup).1 hy

lemma Linked.append {first : ℕ} (hl : Linked h (as ++ [last])) (ha : a ∉ as ++ [last]) :
    Linked (h.append a last first) ((as ++ [last]) ++ [a]) := by
  apply Linked.append_of_adjacent
  · apply hl.congr
    intro x hx y hy hxy
    have hxm : x ∈ as := by simpa using hx
    have hnl : last ∉ as := by
      intro hmem
      exact (List.nodup_append.mp hl.nodup).2.2 last hmem last (by simp) rfl
    refine ⟨?_, ?_⟩
    · rw [h.append_next_of_ne (by rintro rfl; exact hnl hxm)
        (by rintro rfl; exact ha (List.mem_append_left _ hxm)), hxy.1]
    · rw [h.append_prev_of_ne (by rintro rfl; exact ha (List.mem_of_mem_tail hy)), hxy.2]
  · exact ⟨List.nodup_singleton a, List.isChain_singleton a⟩
  · exact ⟨h.append_next_last _ _ _, h.append_prev_new _ _ _⟩
  · rw [List.nodup_append]
    refine ⟨hl.nodup, List.nodup_singleton a, ?_⟩
    rintro x hx y hy rfl
    exact ha (List.mem_singleton.mp hy ▸ hx)

/-- A list with pointers to its ends, as a queue that is appended at the back. The last node may
name the first one or a node outside of the list as its next. -/
structure Ring (h : Links) (first last : Option ℕ) (as : List ℕ) : Prop where
  linked : Linked h as
  first_eq : first = as.head?
  last_eq : last = as.getLast?
  last_next : ∀ a, as.getLast? = some a → h.next a ∉ as.tail

lemma Ring.append {f l : ℕ} (hr : Ring h (some f) (some l) as) (ha : a ∉ as) :
    Ring (h.append a l f) (some f) (some a) (as ++ [a]) := by
  have hne : as ≠ [] := by
    rintro rfl
    exact absurd hr.first_eq (by simp)
  obtain ⟨bs, b, rfl⟩ := (List.eq_nil_or_concat' as).resolve_left hne
  obtain rfl : l = b := by simpa using hr.last_eq
  have hal : a ≠ l := by
    rintro rfl
    exact ha (by simp)
  refine ⟨hr.linked.append ha, by rw [hr.first_eq]; simp, by simp, ?_⟩
  intro x hx
  obtain rfl : a = x := by simpa using hx
  rw [h.append_next_new hal]
  cases bs with
  | nil =>
    obtain rfl : f = l := by simpa using hr.first_eq
    simpa using Ne.symm hal
  | cons c cs =>
    obtain rfl : f = c := by simpa using hr.first_eq
    have hlinked : Linked (h.append a l f) (f :: cs ++ [l] ++ [a]) := hr.linked.append ha
    have hnodup := hlinked.nodup
    exact (List.nodup_cons.mp hnodup).1

lemma Ring.unlink_first {f l : Option ℕ} (hr : Ring h f l (a :: b :: bs))
    (hprev : h.prev a ∉ (b :: bs).dropLast) :
    Ring (h.unlink a) (some (h.next a)) l (b :: bs) := by
  have hab := (List.isChain_cons_cons.mp hr.linked.adjacent).1
  refine ⟨hr.linked.unlink_first hprev, by simp [hab.1], by rw [hr.last_eq]; simp, ?_⟩
  intro x hx
  by_cases hxp : x = h.prev a
  · rw [hxp, h.unlink_next_prev, hab.1]
    exact (List.nodup_cons.mp hr.linked.of_cons.nodup).1
  · rw [h.unlink_next_of_ne hxp]
    intro hmem
    exact hr.last_next x (by simpa using hx) (List.mem_of_mem_tail hmem)

lemma Ring.unlink_inner {f l : Option ℕ} {p n : ℕ} (hr : Ring h f l ((as ++ [p]) ++ a :: n :: bs)) :
    Ring (h.unlink a) f l ((as ++ [p]) ++ n :: bs) := by
  have hpa : h.Adjacent p a := hr.linked.adjacent_append
  refine ⟨hr.linked.unlink_inner, by rw [hr.first_eq]; cases as <;> simp,
    by rw [hr.last_eq]; simp, ?_⟩
  intro x hx
  have hxl : ((as ++ [p]) ++ a :: n :: bs).getLast? = some x := by
    rw [← hx]
    simp
  have hxp : x ≠ h.prev a := by
    rw [hpa.2]
    rintro rfl
    have hmem : x ∈ n :: bs := by
      rw [List.getLast?_append_of_ne_nil _ (by simp)] at hx
      exact List.mem_of_getLast? hx
    exact (List.nodup_append.mp hr.linked.unlink_inner.nodup).2.2 x (by simp) x hmem rfl
  rw [h.unlink_next_of_ne hxp]
  intro hmem
  have hsub : List.Sublist ((as ++ [p]) ++ n :: bs) ((as ++ [p]) ++ a :: n :: bs) :=
    (List.sublist_cons_self a (n :: bs)).append_left _
  exact hr.last_next x hxl (hsub.tail.subset hmem)

lemma Ring.unlink_last {f l : Option ℕ} {p : ℕ} (hr : Ring h f l ((as ++ [p]) ++ [a])) :
    Ring (h.unlink a) f (some (h.prev a)) (as ++ [p]) := by
  have hpa : h.Adjacent p a := hr.linked.adjacent_append
  have hnext : h.next a ∉ (as ++ [p]).tail := by
    intro hmem
    exact hr.last_next a (by simp) ((List.sublist_append_left _ [a]).tail.subset hmem)
  refine ⟨hr.linked.unlink_last hnext, by rw [hr.first_eq]; cases as <;> simp,
    by simp [hpa.2], ?_⟩
  intro x hx
  obtain rfl : p = x := by simpa using hx
  have heq : (h.unlink a).next p = h.next a := by
    rw [← hpa.2, h.unlink_next_prev]
  rw [heq]
  exact hnext

lemma Ring.unlink {f l : ℕ} (hr : Ring h (some f) (some l) (as ++ a :: bs)) (hne : as ++ bs ≠ [])
    (hsafe : as = [] → h.prev a ∉ bs.dropLast) :
    Ring (h.unlink a) (some (if a = f then h.next f else f))
      (some (if a ≠ f ∧ a = l then h.prev l else l)) (as ++ bs) := by
  have hnodup := List.nodup_append.mp hr.linked.nodup
  rcases List.eq_nil_or_concat' as with rfl | ⟨as, p, rfl⟩
  · -- The first node.
    obtain rfl : f = a := by simpa using hr.first_eq
    cases bs with
    | nil => exact absurd rfl hne
    | cons b bs =>
      rw [if_pos rfl, if_neg (by simp)]
      exact hr.unlink_first (hsafe rfl)
  · have haf : a ≠ f := by
      rintro rfl
      have hhead : ((as ++ [p]) ++ a :: bs).head? = (as ++ [p]).head? :=
        List.head?_append_of_ne_nil _ (by simp)
      have hmem : a ∈ as ++ [p] := List.mem_of_head? (hhead ▸ hr.first_eq.symm)
      exact hnodup.2.2 a hmem a (by simp) rfl
    rw [if_neg haf]
    cases bs with
    | nil =>
      obtain rfl : l = a := by simpa using hr.last_eq
      rw [if_pos ⟨haf, rfl⟩, List.append_nil]
      exact hr.unlink_last
    | cons b bs =>
      have hal : a ≠ l := by
        rintro rfl
        have hlast := hr.last_eq
        rw [List.getLast?_append_of_ne_nil _ (by simp), List.getLast?_cons_cons] at hlast
        exact (List.nodup_cons.mp hnodup.2.1).1 (List.mem_of_getLast? hlast.symm)
      rw [if_neg (fun hand => hal hand.2)]
      exact hr.unlink_inner

/-- When the prev field of the first node names a node `x` before the last one, unlinking the first
node leaves a cycle that does not meet the last one. -/
lemma Linked.walk_unlink_cycle {x : ℕ} {cs : List ℕ} (hl : Linked h (a :: (as ++ x :: cs)))
    (hprev : h.prev a = x) (hlast : last ∉ as ++ [x]) {h' : Links}
    (hsame : ∀ y ∈ as ++ [x], h'.next y = (h.unlink a).next y) (fuel : ℕ) :
    walk h'.next last fuel (h.next a) = none := by
  have hmid : Linked h (as ++ [x]) := by
    have hassoc : as ++ x :: cs = (as ++ [x]) ++ cs := by simp
    rw [hassoc] at hl
    exact hl.of_cons.of_append_left
  have hfirst : h.next a ∈ as ++ [x] := by
    cases as with
    | nil => exact List.mem_singleton.mpr (List.isChain_cons_cons.mp hl.adjacent).1.1
    | cons b as =>
      have hab : h.next a = b := (List.isChain_cons_cons.mp hl.adjacent).1.1
      simp [hab]
  apply walk_closed (S := (· ∈ as ++ [x])) ?_ hlast fuel hfirst
  intro y hy
  rw [hsame y hy]
  by_cases hyx : y = x
  · rw [hyx, ← hprev, h.unlink_next_prev, hprev]
    exact hfirst
  · rw [h.unlink_next_of_ne (hprev ▸ hyx)]
    -- Any other node of the segment has its successor in the segment.
    have hyas : y ∈ as := by simpa [hyx] using hy
    obtain ⟨bs, ds, rfl⟩ := List.append_of_mem hyas
    cases ds with
    | nil =>
      have hadj : h.Adjacent y x := Linked.adjacent_append (by simpa using hmid)
      simp [hadj.1]
    | cons d ds =>
      have hadj : h.Adjacent y d := Linked.adjacent_append (by simpa using hmid)
      simp [hadj.1]

end LinkedRing
