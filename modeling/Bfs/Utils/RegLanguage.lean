import Bfs.Lib.EpsSearch
import Bfs.Lib.Fallible
import Bfs.Utils.RegExp

/-! The language of a regular expression and the strings that its state machine accepts. A group shares
its entry state with its first atom. What can be read from the entry state back to it, by repetitions of
the first atom, is the loop of the group; the skip of a starred or optional group can be taken after the
loop as well as before it. -/
namespace Bfs.Utils.RegExp

open Fallible EpsSearch Computability

section Denotation

def Literal.Denotes (ch : UInt8) : Literal → Prop
  | .normal c => ch = c
  | .any => True
  | .word => (97 ≤ ch ∧ ch ≤ 122) ∨ (65 ≤ ch ∧ ch ≤ 90) ∨ (48 ≤ ch ∧ ch ≤ 57) ∨ ch = 95
  | .space => ch = 32 ∨ ch = 9 ∨ ch = 10 ∨ ch = 13 ∨ ch = 12 ∨ ch = 11
  | .digit => 48 ≤ ch ∧ ch ≤ 57

def oneChar (P : UInt8 → Prop) : Language UInt8 := {str | ∃ ch, str = [ch] ∧ P ch}

def Modifier.repeated (L : Language UInt8) : Modifier → Language UInt8
  | .noModifier => L
  | .zeroOrMore => L∗
  | .oneOrMore => L * L∗
  | .zeroOrOne => 1 + L

def OrlistDenotes (lits : List Literal) (invert : Bool) (ch : UInt8) : Prop :=
  if invert then ¬∃ lit ∈ lits, lit.Denotes ch else ∃ lit ∈ lits, lit.Denotes ch

mutual

def Atom.language : Atom → Language UInt8
  | .literal lit modifier => modifier.repeated (oneChar lit.Denotes)
  | .orlist lits invert modifier => modifier.repeated (oneChar (OrlistDenotes lits invert))
  | .group atoms modifier => modifier.repeated (language atoms)

def language : List Atom → Language UInt8
  | [] => 1
  | atom::atoms => atom.language * language atoms

end

end Denotation

section Loops

/-- What is read from the entry state back to it, when the body has the loop `r` and the strings `a`. -/
def Modifier.loop (r a : Language UInt8) : Modifier → Language UInt8
  | .noModifier => r
  | .zeroOrMore => (r + a)∗
  | .oneOrMore => (r + a)∗
  | .zeroOrOne => r

def Modifier.exit (r a : Language UInt8) : Modifier → Language UInt8
  | .noModifier => a
  | .zeroOrMore => (r + a)∗
  | .oneOrMore => (r + a)∗ * a
  | .zeroOrOne => r + a

mutual

def Atom.loop : Atom → Language UInt8
  | .literal lit modifier => modifier.loop 1 (oneChar lit.Denotes)
  | .orlist lits invert modifier => modifier.loop 1 (oneChar (OrlistDenotes lits invert))
  | .group atoms modifier => modifier.loop (loop atoms) (accepted atoms)

def Atom.accepted : Atom → Language UInt8
  | .literal lit modifier => modifier.exit 1 (oneChar lit.Denotes)
  | .orlist lits invert modifier => modifier.exit 1 (oneChar (OrlistDenotes lits invert))
  | .group atoms modifier => modifier.exit (loop atoms) (accepted atoms)

def loop : List Atom → Language UInt8
  | [] => 1
  | atom::_ => atom.loop

def accepted : List Atom → Language UInt8
  | [] => 1
  | atom::atoms => atom.accepted * accepted atoms

end

structure LoopLaws (r a : Language UInt8) : Prop where
  one_le : 1 ≤ r
  mul_self : r * r ≤ r
  mul_le : r * a ≤ a

lemma loopLaws_one (a : Language UInt8) : LoopLaws 1 a where
  one_le := le_rfl
  mul_self := (one_mul 1).le
  mul_le := (one_mul a).le

lemma LoopLaws.modifier {r a : Language UInt8} (h : LoopLaws r a) (m : Modifier) :
    LoopLaws (m.loop r a) (m.exit r a) := by
  cases m with
  | noModifier => exact h
  | zeroOrMore =>
    exact ⟨one_le_kstar, (kstar_mul_kstar (r + a)).le, (kstar_mul_kstar (r + a)).le⟩
  | oneOrMore =>
    refine ⟨one_le_kstar, (kstar_mul_kstar (r + a)).le, ?_⟩
    simp only [Modifier.loop, Modifier.exit]
    rw [← mul_assoc, kstar_mul_kstar]
  | zeroOrOne =>
    refine ⟨h.one_le, h.mul_self, ?_⟩
    simp only [Modifier.loop, Modifier.exit]
    rw [mul_add]
    exact add_le_add h.mul_self h.mul_le

mutual

lemma Atom.loopLaws : ∀ atom : Atom, LoopLaws atom.loop atom.accepted
  | .literal _ modifier => (loopLaws_one _).modifier modifier
  | .orlist _ _ modifier => (loopLaws_one _).modifier modifier
  | .group atoms modifier => (loopLaws atoms).modifier modifier

lemma loopLaws : ∀ atoms : List Atom, LoopLaws (loop atoms) (accepted atoms)
  | [] => loopLaws_one 1
  | atom::atoms => by
    have h := atom.loopLaws
    refine ⟨h.one_le, h.mul_self, ?_⟩
    simp only [loop, accepted]
    rw [← mul_assoc]
    exact mul_le_mul_left h.mul_le _

end

lemma Modifier.repeated_le_exit {r a L : Language UInt8} (hr : 1 ≤ r) (ha : L ≤ a) (m : Modifier) :
    m.repeated L ≤ m.exit r a := by
  have hsum : L ≤ r + a := ha.trans le_add_self
  cases m with
  | noModifier => exact ha
  | zeroOrMore => exact kstar_mono hsum
  | oneOrMore =>
    calc L * L∗ = L∗ * L := (Language.mul_self_kstar_comm L).symm
      _ ≤ (r + a)∗ * a := mul_le_mul' (kstar_mono hsum) ha
  | zeroOrOne => exact add_le_add hr ha

mutual

lemma Atom.language_le_accepted : ∀ atom : Atom, atom.language ≤ atom.accepted
  | .literal _ modifier => modifier.repeated_le_exit le_rfl le_rfl
  | .orlist _ _ modifier => modifier.repeated_le_exit le_rfl le_rfl
  | .group atoms modifier =>
    modifier.repeated_le_exit (loopLaws atoms).one_le (language_le_accepted atoms)

lemma language_le_accepted : ∀ atoms : List Atom, language atoms ≤ accepted atoms
  | [] => le_rfl
  | atom::atoms => mul_le_mul' atom.language_le_accepted (language_le_accepted atoms)

end

end Loops

section Plain

def Modifier.repeats : Modifier → Bool
  | .zeroOrMore => true
  | .oneOrMore => true
  | _ => false

def Modifier.skips : Modifier → Bool
  | .zeroOrMore => true
  | .zeroOrOne => true
  | _ => false

mutual

def Atom.loops : Atom → Bool
  | .literal _ modifier => modifier.repeats
  | .orlist _ _ modifier => modifier.repeats
  | .group atoms modifier => modifier.repeats || loops atoms

def loops : List Atom → Bool
  | [] => false
  | atom::_ => atom.loops

end

mutual

def Atom.plain : Atom → Bool
  | .literal _ _ => true
  | .orlist _ _ _ => true
  | .group atoms modifier => !(modifier.skips && loops atoms) && plain atoms

def plain : List Atom → Bool
  | [] => true
  | atom::atoms => atom.plain && plain atoms

end

mutual

lemma Atom.loop_eq_one : ∀ {atom : Atom}, atom.loops = false → atom.loop = 1
  | .literal lit modifier, h => by
    cases modifier <;> first | rfl | cases h
  | .orlist lits invert modifier, h => by
    cases modifier <;> first | rfl | cases h
  | .group atoms modifier, h => by
    obtain ⟨hmod, hatoms⟩ := Bool.or_eq_false_iff.mp h
    have hloop := loop_eq_one hatoms
    cases modifier with
    | noModifier => exact hloop
    | zeroOrOne => exact hloop
    | zeroOrMore => cases hmod
    | oneOrMore => cases hmod

lemma loop_eq_one : ∀ {atoms : List Atom}, loops atoms = false → loop atoms = 1
  | [], _ => rfl
  | _::_, h => Atom.loop_eq_one h

end

lemma Modifier.exit_le_repeated {r a L : Language UInt8} (h : LoopLaws r a) (ha : a ≤ L) (m : Modifier)
    (hplain : m.skips = true → r = 1) : m.exit r a ≤ m.repeated L := by
  cases m with
  | noModifier => exact ha
  | zeroOrMore =>
    obtain rfl := hplain rfl
    calc (1 + a)∗ ≤ (L∗)∗ := kstar_mono (add_le one_le_kstar (ha.trans le_kstar))
      _ = L∗ := kstar_idem L
  | oneOrMore =>
    -- A loop is absorbed by the round that follows it.
    have hround : (r + a) * (a * a∗) ≤ a * a∗ := by
      rw [add_mul, ← mul_assoc, ← mul_assoc]
      apply add_le
      · exact mul_le_mul_left h.mul_le _
      · rw [mul_assoc]
        exact mul_le_mul_right mul_kstar_le_kstar a
    calc (r + a)∗ * a ≤ (r + a)∗ * (a * a∗) :=
          mul_le_mul_right (le_mul_of_one_le_right' one_le_kstar) _
      _ ≤ a * a∗ := kstar_mul_le_self hround
      _ ≤ L * L∗ := mul_le_mul' ha (kstar_mono ha)
  | zeroOrOne =>
    obtain rfl := hplain rfl
    exact add_le_add le_rfl ha

mutual

lemma Atom.accepted_le_language : ∀ {atom : Atom}, atom.plain = true → atom.accepted ≤ atom.language
  | .literal _ modifier, _ => modifier.exit_le_repeated (loopLaws_one _) le_rfl fun _ => rfl
  | .orlist _ _ modifier, _ => modifier.exit_le_repeated (loopLaws_one _) le_rfl fun _ => rfl
  | .group atoms modifier, h => by
    obtain ⟨hskip, hatoms⟩ := Bool.and_eq_true_iff.mp h
    apply modifier.exit_le_repeated (loopLaws atoms) (accepted_le_language hatoms)
    intro hmod
    rw [hmod, Bool.true_and, Bool.not_eq_true'] at hskip
    exact loop_eq_one hskip

lemma accepted_le_language : ∀ {atoms : List Atom}, plain atoms = true → accepted atoms ≤ language atoms
  | [], _ => le_rfl
  | _::_, h => by
    obtain ⟨hatom, hatoms⟩ := Bool.and_eq_true_iff.mp h
    exact mul_le_mul' (Atom.accepted_le_language hatom) (accepted_le_language hatoms)

end

end Plain

section Machine

def Label.reads : Label → Option (UInt8 → Bool)
  | .literal lit => some fun ch => matchLiteral ch lit
  | .orlist lits invert => some fun ch => matchOrlist ch lits invert
  | .nil => none

def Transition.edge (t : Transition) : Edge ℕ UInt8 := ⟨t.fromstate, t.tostate, t.label.reads⟩

def edgesOf (smachine : List Transition) : List (Edge ℕ UInt8) := smachine.map Transition.edge

lemma edgesOf_append (smachine smachine' : List Transition) :
    edgesOf (smachine ++ smachine') = edgesOf smachine ++ edgesOf smachine' := List.map_append

def Label.Reads (label : Label) (P : UInt8 → Prop) : Prop :=
  ∃ p, label.reads = some p ∧ ∀ ch, p ch = true ↔ P ch

lemma matchLiteral_iff (ch : UInt8) (lit : Literal) : matchLiteral ch lit = true ↔ lit.Denotes ch := by
  cases lit with
  | normal c =>
    simp only [matchLiteral, Literal.Denotes, beq_iff_eq]
    exact eq_comm
  | any => simp [matchLiteral, Literal.Denotes]
  | word =>
    simp only [Literal.Denotes]
    revert ch
    decide +kernel
  | space =>
    simp only [Literal.Denotes]
    revert ch
    decide +kernel
  | digit =>
    simp only [Literal.Denotes]
    revert ch
    decide +kernel

lemma reads_literal (lit : Literal) : (Label.literal lit).Reads lit.Denotes :=
  ⟨_, rfl, fun ch => matchLiteral_iff ch lit⟩

lemma reads_orlist (lits : List Literal) (invert : Bool) :
    (Label.orlist lits invert).Reads (OrlistDenotes lits invert) := by
  refine ⟨_, rfl, ?_⟩
  intro ch
  have hany : lits.any (matchLiteral ch) = true ↔ ∃ lit ∈ lits, lit.Denotes ch := by
    simp only [List.any_eq_true, matchLiteral_iff]
  rw [matchOrlist, OrlistDenotes]
  cases invert with
  | false => simpa using hany
  | true =>
    rw [if_pos rfl, ← hany]
    simp

def between (E : List (Edge ℕ UInt8)) (s t : ℕ) : Language UInt8 := {str | Run E s str t}

variable {E E' : List (Edge ℕ UInt8)} {s t u : ℕ}

lemma one_le_between (E : List (Edge ℕ UInt8)) (s : ℕ) : 1 ≤ between E s s := by
  rintro str rfl
  exact .refl s

lemma between_mul_between : between E s t * between E t u ≤ between E s u := by
  rintro _ ⟨x, hx, y, hy, rfl⟩
  exact Run.trans hx hy

lemma between_mono (h : E ⊆ E') (s t : ℕ) : between E s t ≤ between E' s t :=
  fun _ hstr => Run.mono h hstr

lemma kstar_le_between {L : Language UInt8} (h : L ≤ between E s s) : L∗ ≤ between E s s := by
  calc L∗ = L∗ * 1 := (mul_one _).symm
    _ ≤ L∗ * between E s s := mul_le_mul_right (one_le_between E s) _
    _ ≤ between E s s := kstar_mul_le_self ((mul_le_mul_left h _).trans between_mul_between)

lemma one_le_between_of_nil {smachine : List Transition} (h : ⟨s, t, .nil⟩ ∈ smachine) :
    1 ≤ between (edgesOf smachine) s t := by
  rintro str rfl
  exact Run.skip (List.mem_map_of_mem h) rfl (.refl t)

lemma oneChar_le_between {smachine : List Transition} {label : Label} {P : UInt8 → Prop}
    (hlabel : label.Reads P) (h : ⟨s, t, label⟩ ∈ smachine) :
    oneChar P ≤ between (edgesOf smachine) s t := by
  obtain ⟨p, hp, hP⟩ := hlabel
  rintro str ⟨ch, rfl, hch⟩
  exact Run.read (List.mem_map_of_mem h) hp ((hP ch).mpr hch) (.refl t)

lemma le_between_skip {L : Language UInt8} (h : L ≤ between E s t) (hskip : 1 ≤ between E t u) :
    L ≤ between E s u := by
  calc L = L * 1 := (mul_one L).symm
    _ ≤ between E s t * between E t u := mul_le_mul' h hskip
    _ ≤ between E s u := between_mul_between

end Machine

section Complete

/-- All that an atom accepts and loops is read by transitions from `entry` to `next`. -/
structure Covers (E : List (Edge ℕ UInt8)) (entry next : ℕ) (r a : Language UInt8) : Prop where
  loop : r ≤ between E entry entry
  exit : a ≤ between E entry next

lemma covers_label {label : Label} {P : UInt8 → Prop} (hlabel : label.Reads P) (entry next : ℕ)
    (m : Modifier) : Covers (edgesOf (labelTransitions label entry next m)) entry next
      (m.loop 1 (oneChar P)) (m.exit 1 (oneChar P)) := by
  have hone := one_le_between (edgesOf (labelTransitions label entry next m)) entry
  have hread : oneChar P ≤ between (edgesOf (labelTransitions label entry next m)) entry next :=
    oneChar_le_between hlabel (by cases m <;> exact List.mem_cons_self)
  cases m with
  | noModifier => exact ⟨hone, hread⟩
  | zeroOrMore =>
    have hstay : (1 + oneChar P)∗ ≤ between (edgesOf (labelTransitions label entry next .zeroOrMore))
        entry entry :=
      kstar_le_between (add_le hone (oneChar_le_between hlabel (by simp [labelTransitions])))
    exact ⟨hstay, le_between_skip hstay (one_le_between_of_nil (by simp [labelTransitions]))⟩
  | oneOrMore =>
    have hstay : (1 + oneChar P)∗ ≤ between (edgesOf (labelTransitions label entry next .oneOrMore))
        entry entry :=
      kstar_le_between (add_le hone (oneChar_le_between hlabel (by simp [labelTransitions])))
    exact ⟨hstay, (mul_le_mul' hstay hread).trans between_mul_between⟩
  | zeroOrOne =>
    exact ⟨hone, add_le (one_le_between_of_nil (by simp [labelTransitions])) hread⟩

lemma Covers.group {smachine : List Transition} {entry last : ℕ} {r a : Language UInt8}
    (h : Covers (edgesOf smachine) entry last r a) (next : ℕ) (m : Modifier) :
    Covers (edgesOf (smachine ++ groupTransitions entry next last m)) entry next
      (m.loop r a) (m.exit r a) := by
  have hmono : edgesOf smachine ⊆ edgesOf (smachine ++ groupTransitions entry next last m) := by
    rw [edgesOf_append]
    exact List.subset_append_left _ _
  have hloop := h.loop.trans (between_mono hmono entry entry)
  have hlast := h.exit.trans (between_mono hmono entry last)
  have hexit : a ≤ between (edgesOf (smachine ++ groupTransitions entry next last m)) entry next := by
    apply le_between_skip hlast
    apply one_le_between_of_nil
    cases m <;> simp [groupTransitions]
  cases m with
  | noModifier => exact ⟨hloop, hexit⟩
  | zeroOrMore =>
    have hback : 1 ≤ between (edgesOf (smachine ++ groupTransitions entry next last .zeroOrMore))
        last entry := one_le_between_of_nil (by simp [groupTransitions])
    have hstay := kstar_le_between (add_le hloop (le_between_skip hlast hback))
    exact ⟨hstay, le_between_skip hstay (one_le_between_of_nil (by simp [groupTransitions]))⟩
  | oneOrMore =>
    have hback : 1 ≤ between (edgesOf (smachine ++ groupTransitions entry next last .oneOrMore))
        last entry := one_le_between_of_nil (by simp [groupTransitions])
    have hstay := kstar_le_between (add_le hloop (le_between_skip hlast hback))
    exact ⟨hstay, (mul_le_mul' hstay hexit).trans between_mul_between⟩
  | zeroOrOne =>
    have hskip : 1 ≤ between (edgesOf (smachine ++ groupTransitions entry next last .zeroOrOne))
        entry next := one_le_between_of_nil (by simp [groupTransitions])
    exact ⟨hloop, add_le (le_between_skip hloop hskip) hexit⟩

lemma Covers.append {smachine smachine' : List Transition} {entry mid last : ℕ} {r r' a a' : Language UInt8}
    (h : Covers (edgesOf smachine) entry mid r a) (h' : Covers (edgesOf smachine') mid last r' a') :
    Covers (edgesOf (smachine ++ smachine')) entry last r (a * a') := by
  rw [edgesOf_append]
  have hleft := List.subset_append_left (edgesOf smachine) (edgesOf smachine')
  have hright := List.subset_append_right (edgesOf smachine) (edgesOf smachine')
  refine ⟨h.loop.trans (between_mono hleft _ _), ?_⟩
  exact (mul_le_mul' (h.exit.trans (between_mono hleft _ _)) (h'.exit.trans
    (between_mono hright _ _))).trans between_mul_between

mutual

lemma covers_atomTransitions : ∀ {atom : Atom} {entry next states states' : ℕ}
    {smachine : List Transition}, atomTransitions atom entry next states = .ok (smachine, states') →
    Covers (edgesOf smachine) entry next atom.loop atom.accepted
  | .literal lit modifier, entry, next, _, _, _, h => by
    cases h
    exact covers_label (reads_literal lit) entry next modifier
  | .orlist lits invert modifier, entry, next, _, _, _, h => by
    cases h
    exact covers_label (reads_orlist lits invert) entry next modifier
  | .group atoms modifier, entry, next, _, _, _, h => by
    rw [atomTransitions] at h
    obtain ⟨⟨smachine, states, last⟩, hbody, h⟩ := bind_eq_ok.mp h
    cases h
    exact (covers_generateStateMachine hbody).group next modifier

lemma covers_generateStateMachine : ∀ {atoms : List Atom} {entry states states' last : ℕ}
    {smachine : List Transition},
    generateStateMachine atoms entry states = .ok (smachine, states', last) →
    Covers (edgesOf smachine) entry last (loop atoms) (accepted atoms)
  | [], _, _, _, _, _, h => by cases h
  | [atom], entry, states, _, _, _, h => by
    rw [generateStateMachine] at h
    obtain ⟨⟨smachine, states'⟩, hatom, h⟩ := bind_eq_ok.mp h
    cases h
    have hcovers := covers_atomTransitions hatom
    simp only [loop, accepted, mul_one]
    exact hcovers
  | atom::atom'::atoms, entry, states, _, _, _, h => by
    rw [generateStateMachine] at h
    · obtain ⟨⟨smachine, states'⟩, hatom, h⟩ := bind_eq_ok.mp h
      obtain ⟨⟨rest, states'', last⟩, hrest, h⟩ := bind_eq_ok.mp h
      cases h
      exact (covers_atomTransitions hatom).append (covers_generateStateMachine hrest)
    · simp

end

end Complete

section Sound

def Transition.Respects (φ : ℕ → Language UInt8) (t : Transition) : Prop :=
  match t.label.reads with
  | none => φ t.fromstate ≤ φ t.tostate
  | some p => φ t.fromstate * oneChar (fun ch => p ch = true) ≤ φ t.tostate

def Closed (φ : ℕ → Language UInt8) (smachine : List Transition) : Prop :=
  ∀ t ∈ smachine, t.Respects φ

variable {φ : ℕ → Language UInt8} {smachine smachine' : List Transition}

lemma closed_append : Closed φ (smachine ++ smachine') ↔ Closed φ smachine ∧ Closed φ smachine' := by
  simp only [Closed, List.mem_append]
  constructor
  · intro h
    exact ⟨fun t ht => h t (.inl ht), fun t ht => h t (.inr ht)⟩
  · rintro ⟨h, h'⟩ t (ht | ht)
    · exact h t ht
    · exact h' t ht

lemma Closed.run (h : Closed φ smachine) {s t : ℕ} {str : Text} (hrun : Run (edgesOf smachine) s str t)
    {pre : Text} (hpre : pre ∈ φ s) : pre ++ str ∈ φ t := by
  induction hrun generalizing pre with
  | refl s => rwa [List.append_nil]
  | skip mem empty _ ih =>
    obtain ⟨t, ht, rfl⟩ := List.mem_map.mp mem
    have hstep := h t ht
    rw [Transition.Respects, show t.label.reads = none from empty] at hstep
    exact ih (hstep hpre)
  | @read e p ch str _ mem reads holds _ ih =>
    obtain ⟨t, ht, rfl⟩ := List.mem_map.mp mem
    have hstep := h t ht
    rw [Transition.Respects, show t.label.reads = some p from reads] at hstep
    have hnext := ih (hstep (Language.append_mem_mul hpre ⟨ch, rfl, holds⟩))
    rwa [List.append_assoc, List.singleton_append] at hnext

/-- However the entry state is reached, the next state is reached by what the atom accepts on top of it;
the states between them have languages of their own. -/
def Confines (smachine : List Transition) (entry next lo hi : ℕ) (r a : Language UInt8) : Prop :=
  ∀ X, X * r ≤ X → ∃ φ₀ : ℕ → Language UInt8, ∀ φ : ℕ → Language UInt8, φ entry = X →
    X * a ≤ φ next → (∀ s, lo ≤ s → s < hi → φ s = φ₀ s) → Closed φ smachine

lemma respects_nil {s t : ℕ} : Transition.Respects φ ⟨s, t, .nil⟩ ↔ φ s ≤ φ t := Iff.rfl

lemma respects_label {label : Label} {P : UInt8 → Prop} (h : label.Reads P) {s t : ℕ} :
    Transition.Respects φ ⟨s, t, label⟩ ↔ φ s * oneChar P ≤ φ t := by
  obtain ⟨p, hp, hP⟩ := h
  have hchar : oneChar (fun ch => p ch = true) = oneChar P := by
    ext str
    exact exists_congr fun ch => and_congr_right fun _ => hP ch
  rw [Transition.Respects, hp, ← hchar]

lemma confines_label {label : Label} {P : UInt8 → Prop} (hlabel : label.Reads P)
    (entry next states : ℕ) (m : Modifier) :
    Confines (labelTransitions label entry next m) entry next states states
      (m.loop 1 (oneChar P)) (m.exit 1 (oneChar P)) := by
  intro X hX
  refine ⟨fun _ => 0, ?_⟩
  rintro φ rfl hnext -
  cases m with
  | noModifier =>
    simp only [Closed, labelTransitions, List.forall_mem_cons, respects_label hlabel]
    exact ⟨hnext, by simp⟩
  | zeroOrMore =>
    have hchar : oneChar P ≤ (1 + oneChar P)∗ := le_add_self.trans le_kstar
    simp only [Closed, labelTransitions, List.forall_mem_cons, respects_label hlabel, respects_nil]
    refine ⟨(mul_le_mul_right hchar _).trans hnext, (mul_le_mul_right hchar _).trans hX, ?_, by simp⟩
    exact (le_mul_of_one_le_right' one_le_kstar).trans hnext
  | oneOrMore =>
    have hchar : oneChar P ≤ (1 + oneChar P)∗ := le_add_self.trans le_kstar
    simp only [Closed, labelTransitions, List.forall_mem_cons, respects_label hlabel]
    refine ⟨?_, (mul_le_mul_right hchar _).trans hX, by simp⟩
    exact (mul_le_mul_right (le_mul_of_one_le_left' one_le_kstar) _).trans hnext
  | zeroOrOne =>
    simp only [Closed, labelTransitions, List.forall_mem_cons, respects_label hlabel, respects_nil]
    refine ⟨(mul_le_mul_right le_add_self _).trans hnext, ?_, by simp⟩
    exact (le_mul_of_one_le_right' le_self_add).trans hnext

structure ConfinesAll (smachine : List Transition) (entry last lo hi : ℕ) (r a : Language UInt8) :
    Prop where
  lo_le : lo ≤ last
  lt_hi : last < hi
  confines : ∀ X, X * r ≤ X → ∃ φ₀ : ℕ → Language UInt8, φ₀ last ≤ X * a ∧
    ∀ φ : ℕ → Language UInt8, φ entry = X → (∀ s, lo ≤ s → s < hi → φ s = φ₀ s) → Closed φ smachine

lemma ConfinesAll.group {entry last lo hi : ℕ} {r a : Language UInt8}
    (h : ConfinesAll smachine entry last lo hi r a) (hlaws : LoopLaws r a) (next : ℕ) (m : Modifier) :
    Confines (smachine ++ groupTransitions entry next last m) entry next lo hi
      (m.loop r a) (m.exit r a) := by
  intro X hX
  -- The loop of the group contains that of its body.
  have hbody : X * r ≤ X := by
    refine (mul_le_mul_right ?_ X).trans hX
    cases m with
    | noModifier => exact le_rfl
    | zeroOrMore => exact le_self_add.trans le_kstar
    | oneOrMore => exact le_self_add.trans le_kstar
    | zeroOrOne => exact le_rfl
  obtain ⟨φ₀, hlast, hclosed⟩ := h.confines X hbody
  refine ⟨φ₀, ?_⟩
  intro φ hentry hnext hinside
  refine closed_append.mpr ⟨hclosed φ hentry hinside, ?_⟩
  rw [← hinside last h.lo_le h.lt_hi] at hlast
  subst hentry
  cases m with
  | noModifier =>
    simp only [Closed, groupTransitions, List.forall_mem_cons, respects_nil]
    exact ⟨hlast.trans hnext, by simp⟩
  | zeroOrMore =>
    have hround : a ≤ (r + a)∗ := le_add_self.trans le_kstar
    simp only [Closed, groupTransitions, List.forall_mem_cons, respects_nil]
    refine ⟨hlast.trans ((mul_le_mul_right hround _).trans hnext),
      hlast.trans ((mul_le_mul_right hround _).trans hX), ?_, by simp⟩
    exact (le_mul_of_one_le_right' one_le_kstar).trans hnext
  | oneOrMore =>
    have hround : a ≤ (r + a)∗ := le_add_self.trans le_kstar
    simp only [Closed, groupTransitions, List.forall_mem_cons, respects_nil]
    refine ⟨hlast.trans ?_, hlast.trans ((mul_le_mul_right hround _).trans hX), by simp⟩
    exact (mul_le_mul_right (le_mul_of_one_le_left' one_le_kstar) _).trans hnext
  | zeroOrOne =>
    simp only [Closed, groupTransitions, List.forall_mem_cons, respects_nil]
    refine ⟨hlast.trans ((mul_le_mul_right le_add_self _).trans hnext), ?_, by simp⟩
    exact (le_mul_of_one_le_right' (hlaws.one_le.trans le_self_add)).trans hnext

lemma Confines.single {entry states hi : ℕ} {r a : Language UInt8} (hhi : states + 1 ≤ hi)
    (h : Confines smachine entry states (states + 1) hi r a) :
    ConfinesAll smachine entry states states hi r a := by
  refine ⟨le_rfl, by omega, ?_⟩
  intro X hX
  obtain ⟨φ₀, hclosed⟩ := h X hX
  refine ⟨fun s => if s = states then X * a else φ₀ s, by simp, ?_⟩
  intro φ hentry hinside
  dsimp only at hinside
  apply hclosed φ hentry
  · rw [hinside states le_rfl (by omega), if_pos rfl]
  · intro s hlo hlt
    rw [hinside s (by omega) hlt, if_neg (by omega)]

lemma Confines.append {entry states mid hi last : ℕ} {r r' a a' : Language UInt8}
    (hmid : states + 1 ≤ mid) (hhi : mid ≤ hi)
    (h : Confines smachine entry states (states + 1) mid r a)
    (h' : ConfinesAll smachine' states last mid hi r' a') (hlaws : LoopLaws r' a') :
    ConfinesAll (smachine ++ smachine') entry last states hi r (a * a') := by
  have hlo := h'.lo_le
  refine ⟨by omega, h'.lt_hi, ?_⟩
  intro X hX
  obtain ⟨φ₁, hclosed₁⟩ := h X hX
  have hloop : X * a * r' * r' ≤ X * a * r' := by
    rw [mul_assoc (X * a)]
    exact mul_le_mul_right hlaws.mul_self _
  obtain ⟨φ₂, hlast, hclosed₂⟩ := h'.confines (X * a * r') hloop
  refine ⟨fun s => if s = states then X * a * r' else if s < mid then φ₁ s else φ₂ s, ?_, ?_⟩
  · dsimp only
    rw [if_neg (by omega), if_neg (by omega)]
    calc φ₂ last ≤ X * a * r' * a' := hlast
      _ = X * a * (r' * a') := mul_assoc _ _ _
      _ ≤ X * a * a' := mul_le_mul_right hlaws.mul_le _
      _ = X * (a * a') := mul_assoc _ _ _
  · intro φ hentry hinside
    dsimp only at hinside
    have hstate : φ states = X * a * r' := by
      rw [hinside states le_rfl (by omega), if_pos rfl]
    refine closed_append.mpr ⟨hclosed₁ φ hentry ?_ ?_, hclosed₂ φ hstate ?_⟩
    · rw [hstate]
      exact le_mul_of_one_le_right' hlaws.one_le
    · intro s hs hlt
      rw [hinside s (by omega) (by omega), if_neg (by omega), if_pos hlt]
    · intro s hs hlt
      rw [hinside s (by omega) hlt, if_neg (by omega), if_neg (by omega)]

mutual

lemma confines_atomTransitions : ∀ {atom : Atom} {entry next states states' : ℕ}
    {smachine : List Transition}, atomTransitions atom entry next states = .ok (smachine, states') →
    states ≤ states' ∧ Confines smachine entry next states states' atom.loop atom.accepted
  | .literal lit modifier, entry, next, states, _, _, h => by
    cases h
    exact ⟨le_rfl, confines_label (reads_literal lit) entry next states modifier⟩
  | .orlist lits invert modifier, entry, next, states, _, _, h => by
    cases h
    exact ⟨le_rfl, confines_label (reads_orlist lits invert) entry next states modifier⟩
  | .group atoms modifier, entry, next, _, _, _, h => by
    rw [atomTransitions] at h
    obtain ⟨⟨smachine, states, last⟩, hbody, h⟩ := bind_eq_ok.mp h
    cases h
    have hall := confines_generateStateMachine hbody
    have hlo := hall.lo_le
    have hhi := hall.lt_hi
    exact ⟨by omega, hall.group (loopLaws atoms) next modifier⟩

lemma confines_generateStateMachine : ∀ {atoms : List Atom} {entry states states' last : ℕ}
    {smachine : List Transition},
    generateStateMachine atoms entry states = .ok (smachine, states', last) →
    ConfinesAll smachine entry last states states' (loop atoms) (accepted atoms)
  | [], _, _, _, _, _, h => by cases h
  | [atom], entry, states, _, _, _, h => by
    rw [generateStateMachine] at h
    obtain ⟨⟨smachine, states'⟩, hatom, h⟩ := bind_eq_ok.mp h
    cases h
    obtain ⟨hle, hconfines⟩ := confines_atomTransitions hatom
    simp only [loop, accepted, mul_one]
    exact hconfines.single hle
  | atom::atom'::atoms, entry, states, _, _, _, h => by
    rw [generateStateMachine] at h
    · obtain ⟨⟨smachine, states'⟩, hatom, h⟩ := bind_eq_ok.mp h
      obtain ⟨⟨rest, states'', last⟩, hrest, h⟩ := bind_eq_ok.mp h
      cases h
      obtain ⟨hle, hconfines⟩ := confines_atomTransitions hatom
      have hall := confines_generateStateMachine hrest
      have hlo := hall.lo_le
      have hhi := hall.lt_hi
      exact hconfines.append hle (by omega) hall (loopLaws (atom'::atoms))
    · simp

end

/-- The runs of the machine from the entry state to the last are those of the strings that the atoms
accept. -/
theorem generateStateMachine_accepts {atoms : List Atom} {states' last : ℕ} {str : Text}
    (h : generateStateMachine atoms 0 1 = .ok (smachine, states', last)) :
    Run (edgesOf smachine) 0 str last ↔ str ∈ accepted atoms := by
  constructor
  · intro hrun
    have hlaws := loopLaws atoms
    have hall := confines_generateStateMachine h
    obtain ⟨φ₀, hlast, hclosed⟩ := hall.confines (loop atoms) hlaws.mul_self
    have hlo := hall.lo_le
    have hφ := hclosed (fun s => if s = 0 then loop atoms else φ₀ s) (if_pos rfl)
      fun s hs _ => if_neg (by omega)
    have hstart : [] ∈ (if (0 : ℕ) = 0 then loop atoms else φ₀ 0) := by
      rw [if_pos rfl]
      exact hlaws.one_le rfl
    have hmem := hφ.run hrun hstart
    rw [if_neg (by omega), List.nil_append] at hmem
    exact hlaws.mul_le (hlast hmem)
  · intro hstr
    exact (covers_generateStateMachine h).exit hstr

end Sound

section Search

def automaton (re : RegExp) : εNFA UInt8 ℕ :=
  EpsSearch.automaton (edgesOf re.smachine) 0 re.lastState

/-- `bfsRegExpression::match` with a bound on the calls in each other; `none` if they go deeper. -/
def matchWithin (re : RegExp) (depth : ℕ) (str : Text) : Option Bool :=
  search (edgesOf re.smachine) re.lastState depth 0 str []

lemma any_of_firstOf {f : Edge ℕ UInt8 → Option Bool} {g : Transition → Bool}
    {smachine : List Transition} (hfg : ∀ t ∈ smachine, ∀ b, f t.edge = some b → g t = b) {b : Bool}
    (h : firstOf f (edgesOf smachine) = some b) : smachine.any g = b := by
  induction smachine with
  | nil =>
    cases h
    rfl
  | cons t smachine ih =>
    rw [edgesOf, List.map_cons, firstOf] at h
    rw [List.any_cons]
    rcases hf : f t.edge with _ | _ | _
    · rw [hf] at h
      cases h
    · rw [hf] at h
      rw [hfg t List.mem_cons_self false hf, Bool.false_or]
      exact ih (fun t ht => hfg t (List.mem_cons_of_mem _ ht)) h
    · rw [hf] at h
      cases h
      rw [hfg t List.mem_cons_self true hf, Bool.true_or]

/-- One transition in the loop of `match`, with the calls that it makes. -/
def taken (next : ℕ → Text → List ℕ → Bool) (state : ℕ) (str : Text) (nils : List ℕ)
    (t : Transition) : Bool :=
  t.fromstate == state &&
    match t.label, str with
    | .literal lit, ch::str => matchLiteral ch lit && next t.tostate str []
    | .orlist lits invert, ch::str => matchOrlist ch lits invert && next t.tostate str []
    | .nil, str => !nils.contains state && next t.tostate str (nils ++ [state])
    | _, [] => false

lemma matchFrom_succ (re : RegExp) (fuel state : ℕ) (str : Text) (nils : List ℕ) :
    matchFrom re (fuel+1) state str nils =
      (re.smachine.any (taken (matchFrom re fuel) state str nils) ||
        (str.isEmpty && state == re.lastState)) := rfl

lemma taken_of_follow {next : ℕ → Text → List ℕ → Option Bool} {next' : ℕ → Text → List ℕ → Bool}
    (hnext : ∀ {s str nils b}, next s str nils = some b → next' s str nils = b) {state : ℕ} {str : Text}
    {nils : List ℕ} {t : Transition} {b : Bool} (h : follow next state str nils t.edge = some b) :
    taken next' state str nils t = b := by
  obtain ⟨source, target, label⟩ := t
  unfold taken
  by_cases hsource : source = state
  · subst hsource
    rw [BEq.rfl, Bool.true_and]
    cases label with
    | nil =>
      replace h : (if source ∈ nils then some false else next target str (nils ++ [source])) = some b :=
        follow_skip (e := ⟨source, target, none⟩) rfl ▸ h
      by_cases hnils : source ∈ nils
      · rw [if_pos hnils] at h
        cases h
        simp [hnils]
      · rw [if_neg hnils] at h
        simp [hnils, hnext h]
    | literal lit =>
      unfold follow at h
      cases str with
      | nil => simpa [Transition.edge, Label.reads] using h
      | cons ch str =>
        cases hch : matchLiteral ch lit with
        | false => simpa [Transition.edge, Label.reads, hch] using h
        | true =>
          have hrest : next target str [] = some b := by
            simpa [Transition.edge, Label.reads, hch] using h
          simpa [hch] using hnext hrest
    | orlist lits invert =>
      unfold follow at h
      cases str with
      | nil => simpa [Transition.edge, Label.reads] using h
      | cons ch str =>
        cases hch : matchOrlist ch lits invert with
        | false => simpa [Transition.edge, Label.reads, hch] using h
        | true =>
          have hrest : next target str [] = some b := by
            simpa [Transition.edge, Label.reads, hch] using h
          simpa [hch] using hnext hrest
  · rw [follow_of_ne hsource] at h
    cases h
    rw [beq_eq_false_iff_ne.mpr hsource, Bool.false_and]

/-- `match` gives the result of the search, if that ends. -/
lemma matchFrom_of_search {re : RegExp} {fuel state : ℕ} {str : Text} {nils : List ℕ} {b : Bool}
    (h : search (edgesOf re.smachine) re.lastState fuel state str nils = some b) :
    matchFrom re fuel state str nils = b := by
  induction fuel generalizing state str nils b with
  | zero => cases h
  | succ fuel ih =>
    rw [search] at h
    rw [matchFrom_succ]
    rcases hfirst : firstOf (follow (search (edgesOf re.smachine) re.lastState fuel) state str nils)
      (edgesOf re.smachine) with _ | b'
    · rw [hfirst] at h
      cases h
    · have hany := any_of_firstOf (fun t _ _ ht => taken_of_follow ih ht) hfirst
      rw [hfirst] at h
      rw [hany]
      cases b' with
      | false => simpa using h
      | true => simpa using h

/-- The calls of `match` end within the depth that `isMatch` allows, and the result tells whether there
is a run of the automaton. -/
theorem isMatch_spec (re : RegExp) (str : Text) :
    (∃ depth, re.matchWithin depth str = some (re.isMatch str)) ∧
      (re.isMatch str = true ↔ Run (edgesOf re.smachine) 0 str re.lastState) := by
  have hfuel : depth (edgesOf re.smachine) str [] < (str.length + 1)*(re.smachine.length + 1) := by
    rw [depth, edgesOf, List.length_map, List.length_nil, Nat.add_one_mul]
    omega
  obtain ⟨b, hsearch, hb⟩ : ∃ b, search (edgesOf re.smachine) re.lastState _ 0 str [] = some b ∧
      (b = true ↔ Run (edgesOf re.smachine) 0 str re.lastState) := search_iff hfuel
  have hmatch : re.isMatch str = b := matchFrom_of_search hsearch
  rw [hmatch]
  exact ⟨⟨_, hsearch⟩, hb⟩

end Search

end Bfs.Utils.RegExp
