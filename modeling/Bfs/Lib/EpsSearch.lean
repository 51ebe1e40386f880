import Mathlib

/-! Depth-first search in a nondeterministic automaton with empty transitions. Between two characters
the search leaves no state by an empty transition twice. It ends on every input, since the characters
left and the states not yet left decrease, and it finds every accepting run, since cycles of empty
transitions can be cut out of a run. -/
namespace EpsSearch

structure Edge (σ α : Type*) where
  source : σ
  target : σ
  reads : Option (α → Bool)

variable {σ α : Type*}

section Runs

def Edge.Takes (e : Edge σ α) : Option α → Prop
  | none => e.reads = none
  | some a => ∃ p, e.reads = some p ∧ p a = true

def automaton (E : List (Edge σ α)) (start final : σ) : εNFA α σ where
  step s a := {t | ∃ e ∈ E, e.source = s ∧ e.target = t ∧ e.Takes a}
  start := {start}
  accept := {final}

inductive Run (E : List (Edge σ α)) : σ → List α → σ → Prop
  | refl (s : σ) : Run E s [] s
  | skip {e : Edge σ α} {str : List α} {t : σ} (mem : e ∈ E) (empty : e.reads = none)
      (rest : Run E e.target str t) : Run E e.source str t
  | read {e : Edge σ α} {p : α → Bool} {a : α} {str : List α} {t : σ} (mem : e ∈ E)
      (reads : e.reads = some p) (holds : p a = true) (rest : Run E e.target str t) :
      Run E e.source (a::str) t

variable {E E' : List (Edge σ α)} {s t u : σ} {str str' : List α}

lemma Run.trans (h : Run E s str t) (h' : Run E t str' u) : Run E s (str ++ str') u := by
  induction h with
  | refl s => exact h'
  | skip mem empty _ ih => exact .skip mem empty (ih h')
  | read mem reads holds _ ih => exact .read mem reads holds (ih h')

lemma Run.mono (hE : E ⊆ E') (h : Run E s str t) : Run E' s str t := by
  induction h with
  | refl s => exact .refl s
  | skip mem empty _ ih => exact .skip (hE mem) empty ih
  | read mem reads holds _ ih => exact .read (hE mem) reads holds ih

lemma run_of_isPath {start final : σ} {labels : List (Option α)}
    (h : (automaton E start final).IsPath s t labels) : Run E s labels.reduceOption t := by
  induction h with
  | nil s => exact .refl s
  | cons t s u a labels hstep _ ih =>
    obtain ⟨e, he, rfl, rfl, htakes⟩ := hstep
    cases a with
    | none => exact .skip he htakes ih
    | some a =>
      obtain ⟨p, hp, ha⟩ := htakes
      exact .read he hp ha ih

lemma Run.isPath (h : Run E s str t) (start final : σ) :
    ∃ labels : List (Option α), labels.reduceOption = str ∧
      (automaton E start final).IsPath s t labels := by
  induction h with
  | refl s => exact ⟨[], rfl, .nil s⟩
  | skip mem empty _ ih =>
    obtain ⟨labels, hlabels, hpath⟩ := ih
    exact ⟨none::labels, hlabels, .cons _ _ _ _ _ ⟨_, mem, rfl, rfl, empty⟩ hpath⟩
  | @read e p a str t mem reads holds _ ih =>
    obtain ⟨labels, hlabels, hpath⟩ := ih
    refine ⟨some a::labels, ?_, .cons _ _ _ _ _ ⟨e, mem, rfl, rfl, p, reads, holds⟩ hpath⟩
    rw [List.reduceOption_cons_of_some, hlabels]

theorem mem_accepts_iff : str ∈ (automaton E s t).accepts ↔ Run E s str t := by
  rw [εNFA.mem_accepts_iff_exists_path]
  constructor
  · rintro ⟨s₁, s₂, labels, rfl, rfl, rfl, hpath⟩
    exact run_of_isPath hpath
  · intro h
    obtain ⟨labels, hlabels, hpath⟩ := h.isPath s t
    exact ⟨s, t, labels, rfl, rfl, hlabels, hpath⟩

end Runs

section Skips

inductive Skips (E : List (Edge σ α)) : σ → List σ → σ → Prop
  | refl (s : σ) : Skips E s [] s
  | step {e : Edge σ α} {left : List σ} {t : σ} (mem : e ∈ E) (empty : e.reads = none)
      (rest : Skips E e.target left t) : Skips E e.source (e.source::left) t

variable {E : List (Edge σ α)} {s t u : σ} {str : List α}

lemma Skips.suffix {left : List σ} (h : Skips E s left t) (hu : u ∈ left) :
    ∃ left', left' <:+ left ∧ Skips E u left' t := by
  induction h with
  | refl s => cases hu
  | @step e left t mem empty rest ih =>
    rcases List.mem_cons.mp hu with rfl | hu
    · exact ⟨_, List.suffix_refl _, .step mem empty rest⟩
    · obtain ⟨left', hsuffix, hskips⟩ := ih hu
      exact ⟨left', hsuffix.trans (List.suffix_cons _ _), hskips⟩

lemma Skips.exists_nodup {left : List σ} (h : Skips E s left t) :
    ∃ left', left'.Nodup ∧ Skips E s left' t := by
  induction h with
  | refl s => exact ⟨[], .nil, .refl s⟩
  | @step e left t mem empty _ ih =>
    obtain ⟨left', hnodup, hskips⟩ := ih
    by_cases hback : e.source ∈ left'
    · obtain ⟨left'', hsuffix, hskips'⟩ := hskips.suffix hback
      exact ⟨left'', hsuffix.sublist.nodup hnodup, hskips'⟩
    · exact ⟨e.source::left', List.nodup_cons.mpr ⟨hback, hnodup⟩, .step mem empty hskips⟩

lemma Run.skips (h : Run E s str t) :
    ∃ left u, Skips E s left u ∧
      ((str = [] ∧ u = t) ∨ ∃ e ∈ E, ∃ p a str', e.source = u ∧ e.reads = some p ∧ p a = true ∧
        str = a::str' ∧ Run E e.target str' t) := by
  induction h with
  | refl s => exact ⟨[], s, .refl s, .inl ⟨rfl, rfl⟩⟩
  | skip mem empty _ ih =>
    obtain ⟨left, u, hskips, hend⟩ := ih
    exact ⟨_, u, .step mem empty hskips, hend⟩
  | @read e p a str t mem reads holds rest _ =>
    exact ⟨[], e.source, .refl _, .inr ⟨e, mem, p, a, str, rfl, reads, holds, rfl, rest⟩⟩

end Skips

section Search

variable [DecidableEq σ]

def firstOf (f : Edge σ α → Option Bool) : List (Edge σ α) → Option Bool
  | [] => some false
  | e::es =>
    match f e with
    | some false => firstOf f es
    | r => r

def follow (next : σ → List α → List σ → Option Bool) (s : σ) (str : List α) (nils : List σ)
    (e : Edge σ α) : Option Bool :=
  if e.source = s then
    match e.reads, str with
    | none, str => if s ∈ nils then some false else next e.target str (nils ++ [s])
    | some p, a::str => if p a then next e.target str [] else some false
    | some _, [] => some false
  else some false

/-- The search from a state, with the states that were left by empty transitions since the last
character; `none` if it does not end within so many calls in each other. -/
def search (E : List (Edge σ α)) (final : σ) : ℕ → σ → List α → List σ → Option Bool
  | 0, _, _, _ => none
  | fuel+1, s, str, nils =>
    match firstOf (follow (search E final fuel) s str nils) E with
    | some false => some (str.isEmpty && s == final)
    | r => r

variable {E : List (Edge σ α)} {final s : σ} {str : List α} {nils : List σ} {fuel : ℕ}

section Follow

variable {next : σ → List α → List σ → Option Bool} {e : Edge σ α}

lemma follow_of_ne (h : e.source ≠ s) : follow next s str nils e = some false := if_neg h

lemma follow_skip (h : e.reads = none) :
    follow next e.source str nils e =
      if e.source ∈ nils then some false else next e.target str (nils ++ [e.source]) := by
  unfold follow
  rw [if_pos rfl, h]

lemma follow_read {p : α → Bool} (h : e.reads = some p) :
    follow next e.source str nils e =
      match str with
      | [] => some false
      | a::str => if p a then next e.target str [] else some false := by
  unfold follow
  rw [if_pos rfl, h]
  cases str <;> rfl

end Follow

omit [DecidableEq σ] in
lemma firstOf_isSome {f : Edge σ α → Option Bool} {es : List (Edge σ α)}
    (h : ∀ e ∈ es, ∃ b, f e = some b) : ∃ b, firstOf f es = some b := by
  induction es with
  | nil => exact ⟨false, rfl⟩
  | cons e es ih =>
    obtain ⟨b, hb⟩ := h e List.mem_cons_self
    rw [firstOf, hb]
    cases b with
    | true => exact ⟨true, rfl⟩
    | false => exact ih fun e he => h e (List.mem_cons_of_mem _ he)

omit [DecidableEq σ] in
lemma exists_of_firstOf {f : Edge σ α → Option Bool} {es : List (Edge σ α)}
    (h : firstOf f es = some true) : ∃ e ∈ es, f e = some true := by
  induction es with
  | nil => cases h
  | cons e es ih =>
    rw [firstOf] at h
    rcases hf : f e with _ | _ | _
    · rw [hf] at h
      cases h
    · rw [hf] at h
      obtain ⟨e', he', htrue⟩ := ih h
      exact ⟨e', List.mem_cons_of_mem _ he', htrue⟩
    · exact ⟨e, List.mem_cons_self, hf⟩

omit [DecidableEq σ] in
lemma firstOf_of_mem {f : Edge σ α → Option Bool} {es : List (Edge σ α)} {e : Edge σ α}
    (h : ∀ e ∈ es, ∃ b, f e = some b) (he : e ∈ es) (htrue : f e = some true) :
    firstOf f es = some true := by
  induction es with
  | nil => cases he
  | cons e' es ih =>
    obtain ⟨b, hb⟩ := h e' List.mem_cons_self
    rw [firstOf, hb]
    cases b with
    | true => rfl
    | false =>
      rcases List.mem_cons.mp he with rfl | he
      · rw [htrue] at hb
        cases hb
      · exact ih (fun e he => h e (List.mem_cons_of_mem _ he)) he

def Left (E : List (Edge σ α)) (nils : List σ) : Prop :=
  nils.Nodup ∧ nils ⊆ E.map Edge.source

omit [DecidableEq σ] in
lemma left_nil : Left E [] := ⟨.nil, List.nil_subset _⟩

omit [DecidableEq σ] in
lemma Left.length_le (h : Left E nils) : nils.length ≤ E.length := by
  have hle := (h.1.subperm h.2).length_le
  rwa [List.length_map] at hle

omit [DecidableEq σ] in
lemma Left.concat {e : Edge σ α} (h : Left E nils) (he : e ∈ E) (hnot : e.source ∉ nils) :
    Left E (nils ++ [e.source]) := by
  refine ⟨?_, ?_⟩
  · rw [List.nodup_append]
    refine ⟨h.1, List.nodup_singleton _, ?_⟩
    intro a ha b hb hab
    rw [List.mem_singleton] at hb
    exact hnot (hb ▸ hab ▸ ha)
  · apply List.append_subset.mpr
    refine ⟨h.2, ?_⟩
    intro u hu
    rw [List.mem_singleton.mp hu]
    exact List.mem_map_of_mem he

def depth (E : List (Edge σ α)) (str : List α) (nils : List σ) : ℕ :=
  str.length*(E.length + 1) + (E.length - nils.length)

lemma follow_isSome {next : σ → List α → List σ → Option Bool}
    (hnext : ∀ s str' nils', Left E nils' → depth E str' nils' < depth E str nils →
      ∃ b, next s str' nils' = some b) (hleft : Left E nils) {e : Edge σ α} (he : e ∈ E) :
    ∃ b, follow next s str nils e = some b := by
  by_cases hsource : e.source = s
  · subst hsource
    cases hreads : e.reads with
    | none =>
      rw [follow_skip hreads]
      split_ifs with hnil
      · exact ⟨false, rfl⟩
      · have hleft' := hleft.concat he hnil
        have hle := hleft'.length_le
        apply hnext _ _ _ hleft'
        rw [depth, depth]
        rw [List.length_append, List.length_singleton] at hle ⊢
        omega
    | some p =>
      rw [follow_read hreads]
      cases str with
      | nil => exact ⟨false, rfl⟩
      | cons a str =>
        dsimp only
        split_ifs
        · apply hnext _ _ _ left_nil
          rw [depth, depth, List.length_cons, Nat.add_mul, Nat.one_mul, List.length_nil]
          omega
        · exact ⟨false, rfl⟩
  · exact ⟨false, follow_of_ne hsource⟩

theorem search_isSome (hleft : Left E nils) (hfuel : depth E str nils < fuel) (s : σ) :
    ∃ b, search E final fuel s str nils = some b := by
  induction fuel generalizing s str nils with
  | zero => exact absurd hfuel (Nat.not_lt_zero _)
  | succ fuel ih =>
    have hfollow : ∀ e ∈ E, ∃ b, follow (search E final fuel) s str nils e = some b := by
      intro e he
      refine follow_isSome (fun s' str' nils' hleft' hlt => ih hleft' ?_ s') hleft he
      omega
    obtain ⟨b, hb⟩ := firstOf_isSome hfollow
    rw [search, hb]
    cases b with
    | true => exact ⟨true, rfl⟩
    | false => exact ⟨_, rfl⟩

theorem run_of_search (h : search E final fuel s str nils = some true) : Run E s str final := by
  induction fuel generalizing s str nils with
  | zero => cases h
  | succ fuel ih =>
    rw [search] at h
    rcases hfirst : firstOf (follow (search E final fuel) s str nils) E with _ | _ | _
    · rw [hfirst] at h
      cases h
    · rw [hfirst] at h
      simp only [Option.some.injEq, Bool.and_eq_true, List.isEmpty_iff, beq_iff_eq] at h
      obtain ⟨rfl, rfl⟩ := h
      exact .refl s
    · obtain ⟨e, he, hfollow⟩ := exists_of_firstOf hfirst
      by_cases hsource : e.source = s
      · subst hsource
        cases hreads : e.reads with
        | none =>
          rw [follow_skip hreads] at hfollow
          split_ifs at hfollow
          · cases hfollow
          · exact .skip he hreads (ih hfollow)
        | some p =>
          rw [follow_read hreads] at hfollow
          cases str with
          | nil => cases hfollow
          | cons a str =>
            dsimp only at hfollow
            split_ifs at hfollow with hp
            · exact .read he hreads hp (ih hfollow)
            · cases hfollow
      · rw [follow_of_ne hsource] at hfollow
        cases hfollow

lemma search_of_follow {e : Edge σ α} (hleft : Left E nils) (hfuel : depth E str nils < fuel + 1)
    (he : e ∈ E) (hfollow : follow (search E final fuel) s str nils e = some true) :
    search E final (fuel+1) s str nils = some true := by
  have hall : ∀ e ∈ E, ∃ b, follow (search E final fuel) s str nils e = some b := by
    intro e he
    refine follow_isSome (fun s' str' nils' hleft' hlt => search_isSome hleft' ?_ s') hleft he
    omega
  rw [search, firstOf_of_mem hall he hfollow]

lemma search_final (hleft : Left E nils) (hfuel : depth E [] nils < fuel) :
    search E final fuel final [] nils = some true := by
  obtain ⟨b, hb⟩ : ∃ b, search E final fuel final [] nils = some b := search_isSome hleft hfuel final
  obtain ⟨fuel, rfl⟩ := Nat.exists_eq_succ_of_ne_zero (Nat.ne_zero_of_lt hfuel)
  rw [search] at hb ⊢
  rcases hfirst : firstOf (follow (search E final fuel) final [] nils) E with _ | _ | _
  · rw [hfirst] at hb
    cases hb
  · simp
  · rfl

lemma search_of_skips {left : List σ} {u : σ} (hskips : Skips E s left u) (hnodup : left.Nodup)
    (hnew : ∀ v ∈ left, v ∉ nils) (hleft : Left E nils) (hfuel : depth E str nils < fuel)
    (hu : ∀ fuel' nils', Left E nils' → depth E str nils' < fuel' →
      search E final fuel' u str nils' = some true) :
    search E final fuel s str nils = some true := by
  induction hskips generalizing nils fuel with
  | refl s => exact hu fuel nils hleft hfuel
  | @step e left t mem empty _ ih =>
    obtain ⟨fuel, rfl⟩ := Nat.exists_eq_succ_of_ne_zero (Nat.ne_zero_of_lt hfuel)
    rw [List.nodup_cons] at hnodup
    have hsource : e.source ∉ nils := hnew e.source List.mem_cons_self
    have hleft' := hleft.concat mem hsource
    have hle := hleft'.length_le
    rw [List.length_append, List.length_singleton] at hle
    apply search_of_follow hleft hfuel mem
    rw [follow_skip empty, if_neg hsource]
    refine ih hnodup.2 ?_ hleft' ?_ hu
    · intro v hv hmem
      rcases List.mem_append.mp hmem with hmem | hmem
      · exact hnew v (List.mem_cons_of_mem _ hv) hmem
      · rw [List.mem_singleton.mp hmem] at hv
        exact hnodup.1 hv
    · rw [depth] at hfuel ⊢
      rw [List.length_append, List.length_singleton]
      omega

/-- The search finds a run if there is one: by induction on the characters, with the cycles cut out of
the empty transitions before each of them. -/
theorem search_of_run (h : Run E s str final) (hfuel : depth E str [] < fuel) :
    search E final fuel s str [] = some true := by
  induction hn : str.length generalizing s str fuel with
  | zero =>
    obtain rfl := List.length_eq_zero_iff.mp hn
    obtain ⟨left, u, hskips, ⟨-, rfl⟩ | ⟨e, -, p, a, str', -, -, -, hstr, -⟩⟩ := h.skips
    · obtain ⟨left', hnodup, hskips'⟩ := hskips.exists_nodup
      refine search_of_skips hskips' hnodup (by simp) left_nil hfuel ?_
      intro fuel' nils' hleft' hfuel'
      exact search_final hleft' hfuel'
    · cases hstr
  | succ n ih =>
    obtain ⟨left, u, hskips, ⟨rfl, -⟩ | ⟨e, he, p, a, str', rfl, hreads, hp, rfl, hrest⟩⟩ := h.skips
    · cases hn
    · obtain ⟨left', hnodup, hskips'⟩ := hskips.exists_nodup
      refine search_of_skips hskips' hnodup (by simp) left_nil hfuel ?_
      intro fuel' nils' hleft' hfuel'
      obtain ⟨fuel', rfl⟩ := Nat.exists_eq_succ_of_ne_zero (Nat.ne_zero_of_lt hfuel')
      apply search_of_follow hleft' hfuel' he
      rw [follow_read hreads]
      dsimp only
      rw [if_pos hp]
      refine ih hrest ?_ (Nat.succ.inj hn)
      rw [depth] at hfuel' ⊢
      rw [List.length_cons, Nat.add_mul, Nat.one_mul] at hfuel'
      rw [List.length_nil]
      omega

theorem search_iff (hfuel : depth E str [] < fuel) :
    ∃ b, search E final fuel s str [] = some b ∧ (b = true ↔ Run E s str final) := by
  obtain ⟨b, hb⟩ : ∃ b, search E final fuel s str [] = some b := search_isSome left_nil hfuel s
  refine ⟨b, hb, ?_⟩
  constructor
  · rintro rfl
    exact run_of_search hb
  · intro h
    rw [search_of_run h hfuel] at hb
    exact (Option.some.inj hb).symm

end Search

end EpsSearch
