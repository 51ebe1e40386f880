import Bfs.Utils.RegLanguage

/-! Well-formed regular expressions and their texts. The text of an expression is read back into its
atoms, every expression has a state machine, and what `match` accepts is compared with the language of
the expression. -/
namespace Bfs.Utils.RegExp

open Fallible Computability

section Expressions

inductive CharForm
  | plain (ch : UInt8) (h : ch ≠ 92 ∧ ch ∉ specialChars)
  | dot
  | escaped (ch : UInt8)

namespace CharForm

def text : CharForm → Text
  | plain ch _ => [ch]
  | dot => [46]
  | escaped ch => [92, ch]

/-- What is meant: `\w`, `\s` and `\d` are classes, any other escaped character is itself. -/
def literal : CharForm → Literal
  | plain ch _ => .normal ch
  | dot => .any
  | escaped ch =>
    if ch = 119 then .word else if ch = 115 then .space else if ch = 100 then .digit else .normal ch

end CharForm

def Modifier.text : Modifier → Text
  | .noModifier => []
  | .zeroOrMore => [42]
  | .oneOrMore => [43]
  | .zeroOrOne => [63]

inductive AtomForm
  | literal (ch : CharForm) (modifier : Modifier)
  | orlist (chs : List CharForm) (invert : Bool) (modifier : Modifier)
  | group (first : AtomForm) (rest : List AtomForm) (modifier : Modifier)

def orlistText (chs : List CharForm) : Text := chs.flatMap CharForm.text

lemma orlistText_cons (ch : CharForm) (chs : List CharForm) :
    orlistText (ch::chs) = ch.text ++ orlistText chs := List.flatMap_cons

mutual

def AtomForm.text : AtomForm → Text
  | .literal ch modifier => ch.text ++ modifier.text
  | .orlist chs invert modifier =>
    91::((if invert then [94] else []) ++ (orlistText chs ++ 93::modifier.text))
  | .group first rest modifier => 40::(first.text ++ (textOf rest ++ 41::modifier.text))

def textOf : List AtomForm → Text
  | [] => []
  | form::forms => form.text ++ textOf forms

end

mutual

def AtomForm.atom : AtomForm → Atom
  | .literal ch modifier => .literal ch.literal modifier
  | .orlist chs invert modifier => .orlist (chs.map CharForm.literal) invert modifier
  | .group first rest modifier => .group (first.atom::atomsOf rest) modifier

def atomsOf : List AtomForm → List Atom
  | [] => []
  | form::forms => form.atom::atomsOf forms

end

structure Expression where
  first : AtomForm
  rest : List AtomForm

namespace Expression

def text (e : Expression) : Text := textOf (e.first::e.rest)

def atoms (e : Expression) : List Atom := atomsOf (e.first::e.rest)

def language (e : Expression) : Language UInt8 := RegExp.language e.atoms

end Expression

end Expressions

section Reading

variable {regexp post : Text} {pos : ℕ}

lemma charAt_of_drop {ch : UInt8} (h : regexp.drop pos = ch::post) :
    pos < regexp.length ∧ charAt regexp pos = ch ∧ regexp.drop (pos + 1) = post := by
  have hlt : pos < regexp.length := by
    by_contra hle
    rw [List.drop_eq_nil_of_le (by omega)] at h
    cases h
  rw [List.drop_eq_getElem_cons hlt] at h
  obtain ⟨hch, hpost⟩ := List.cons.inj h
  exact ⟨hlt, by rw [charAt, List.getD_eq_getElem _ _ hlt, hch], hpost⟩

lemma charAt_of_drop_nil (h : regexp.drop pos = []) :
    regexp.length ≤ pos ∧ charAt regexp pos = 0 := by
  have hle := List.drop_eq_nil_iff.mp h
  exact ⟨hle, by rw [charAt, List.getD_eq_default _ _ hle]⟩

lemma drop_of_append {front : Text} (h : regexp.drop pos = front ++ post) :
    regexp.drop (pos + front.length) = post := by
  rw [← List.drop_drop, h, List.drop_left]

lemma nextLiteral_plain {ch : UInt8} (h : ch ≠ 92 ∧ ch ∉ specialChars) :
    nextLiteral ch false = .ok (.normal ch) := by
  have hdot : ch ≠ 46 := by
    rintro rfl
    exact h.2 (by decide)
  rw [nextLiteral, if_neg Bool.false_ne_true, if_neg hdot, if_neg h.2]

lemma nextLiteral_escaped (ch : UInt8) :
    nextLiteral ch true = .ok (CharForm.escaped ch).literal := by
  rw [nextLiteral, if_pos rfl, CharForm.literal]
  split_ifs <;> rfl

lemma parseLiteral_text (ch : CharForm) (h : regexp.drop pos = ch.text ++ post) :
    parseLiteral regexp pos = .ok (ch.literal, pos + ch.text.length) := by
  cases ch with
  | plain c hc =>
    obtain ⟨hlt, hchar, -⟩ := charAt_of_drop h
    simp only [parseLiteral, hchar, hc.1, if_false, decide_false, Nat.not_le.mpr hlt,
      nextLiteral_plain hc]
    rfl
  | dot =>
    obtain ⟨hlt, hchar, -⟩ := charAt_of_drop h
    have hescape : (46 : UInt8) ≠ 92 := by decide
    simp only [parseLiteral, hchar, hescape, if_false, decide_false, Nat.not_le.mpr hlt]
    rfl
  | escaped c =>
    obtain ⟨-, hescape, hrest⟩ := charAt_of_drop h
    obtain ⟨hlt, hchar, -⟩ := charAt_of_drop hrest
    simp only [parseLiteral, hescape, if_true, decide_true, hchar, Nat.not_le.mpr hlt, if_false,
      nextLiteral_escaped]
    rfl

lemma CharForm.text_eq_cons (ch : CharForm) :
    ∃ c cs, ch.text = c::cs ∧ c ≠ 93 ∧ c ≠ 94 ∧ c ≠ 91 ∧ c ≠ 40 ∧ c ≠ 41 ∧ c ≠ 42 ∧ c ≠ 43 ∧ c ≠ 63 := by
  cases ch with
  | plain c h =>
    refine ⟨c, [], rfl, ?_⟩
    have hspecial := h.2
    simp only [specialChars, ascii] at hspecial
    revert hspecial
    revert c
    decide +kernel
  | dot => exact ⟨46, [], rfl, by decide⟩
  | escaped c => exact ⟨92, [c], rfl, by decide⟩

lemma parseOrlist_text (chs : List CharForm) {fuel : ℕ} (hfuel : chs.length < fuel)
    (h : regexp.drop pos = orlistText chs ++ 93::post) :
    parseOrlist regexp fuel pos =
      .ok (chs.map CharForm.literal, pos + (orlistText chs).length + 1) := by
  induction chs generalizing fuel pos with
  | nil =>
    obtain ⟨fuel, rfl⟩ := Nat.exists_eq_succ_of_ne_zero (Nat.ne_zero_of_lt hfuel)
    obtain ⟨hlt, hchar, -⟩ := charAt_of_drop h
    rw [parseOrlist, if_neg (Nat.not_le.mpr hlt), if_pos hchar]
    rfl
  | cons ch chs ih =>
    obtain ⟨fuel, rfl⟩ := Nat.exists_eq_succ_of_ne_zero (Nat.ne_zero_of_lt hfuel)
    rw [orlistText_cons, List.append_assoc] at h
    obtain ⟨c, cs, htext, hclose, -⟩ := ch.text_eq_cons
    obtain ⟨hlt, hchar, -⟩ := charAt_of_drop (htext ▸ h)
    have hrest := ih (Nat.lt_of_succ_lt_succ hfuel) (drop_of_append h)
    rw [parseOrlist, if_neg (Nat.not_le.mpr hlt), if_neg (hchar ▸ hclose), parseLiteral_text ch h,
      ok_bind]
    dsimp only
    rw [hrest, ok_bind, orlistText_cons, List.length_append, ← Nat.add_assoc]
    rfl

def NoModifierAhead (post : Text) : Prop :=
  ∀ c ∈ post.head?, c ≠ 42 ∧ c ≠ 43 ∧ c ≠ 63

lemma parseModifier_text (m : Modifier) (hpost : NoModifierAhead post)
    (h : regexp.drop pos = m.text ++ post) :
    parseModifier regexp pos = (m, pos + m.text.length) := by
  cases m with
  | noModifier =>
    have hnone : charAt regexp pos ≠ 42 ∧ charAt regexp pos ≠ 43 ∧ charAt regexp pos ≠ 63 := by
      cases post with
      | nil =>
        rw [(charAt_of_drop_nil h).2]
        decide
      | cons c post =>
        rw [(charAt_of_drop h).2.1]
        exact hpost c rfl
    rw [parseModifier, if_neg hnone.1, if_neg hnone.2.1, if_neg hnone.2.2]
    rfl
  | zeroOrMore =>
    rw [parseModifier, (charAt_of_drop h).2.1]
    rfl
  | oneOrMore =>
    rw [parseModifier, (charAt_of_drop h).2.1]
    rfl
  | zeroOrOne =>
    rw [parseModifier, (charAt_of_drop h).2.1]
    rfl

lemma AtomForm.text_eq_cons (form : AtomForm) :
    ∃ c cs, form.text = c::cs ∧ c ≠ 41 ∧ c ≠ 42 ∧ c ≠ 43 ∧ c ≠ 63 := by
  cases form with
  | literal ch modifier =>
    obtain ⟨c, cs, htext, -, -, -, -, h⟩ := ch.text_eq_cons
    exact ⟨c, cs ++ modifier.text, by rw [AtomForm.text, htext, List.cons_append], h⟩
  | orlist chs invert modifier => exact ⟨91, _, by rw [AtomForm.text], by decide⟩
  | group first rest modifier => exact ⟨40, _, by rw [AtomForm.text], by decide⟩

def Closes (post : Text) : Prop := ∀ c ∈ post.head?, c = 41

lemma noModifierAhead_textOf (forms : List AtomForm) (hpost : Closes post) :
    NoModifierAhead (textOf forms ++ post) := by
  intro c hc
  cases forms with
  | nil =>
    obtain rfl := hpost c hc
    decide
  | cons form forms =>
    obtain ⟨c', cs, htext, -, h⟩ := form.text_eq_cons
    rw [textOf, htext] at hc
    cases hc
    exact h

namespace AtomForm

def modifier : AtomForm → Modifier
  | literal _ modifier => modifier
  | orlist _ _ modifier => modifier
  | group _ _ modifier => modifier

def body : AtomForm → Text
  | literal ch _ => ch.text
  | orlist chs invert _ => 91::((if invert then [94] else []) ++ (orlistText chs ++ [93]))
  | group first rest _ => 40::(textOf (first::rest) ++ [41])

def unmodified : AtomForm → Modifier → Atom
  | literal ch _ => .literal ch.literal
  | orlist chs invert _ => .orlist (chs.map CharForm.literal) invert
  | group first rest _ => .group (atomsOf (first::rest))

lemma text_eq (form : AtomForm) : form.text = form.body ++ form.modifier.text := by
  cases form with
  | literal ch modifier => rw [text, body, AtomForm.modifier]
  | orlist chs invert modifier => simp [text, body, AtomForm.modifier]
  | group first rest modifier => simp [text, body, textOf, AtomForm.modifier]

lemma atom_eq (form : AtomForm) : form.atom = form.unmodified form.modifier := by
  cases form with
  | literal ch modifier => rw [atom, unmodified, AtomForm.modifier]
  | orlist chs invert modifier => rw [atom, unmodified, AtomForm.modifier]
  | group first rest modifier => rw [atom, unmodified, AtomForm.modifier, atomsOf]

end AtomForm

/-- A round of `parseExpression` up to the modifier, with the recursive call for a group. -/
def parseBody (regexp : Text) (inner : ℕ → Except Err (List Atom × ℕ)) (fuel pos : ℕ) :
    Except Err ((Modifier → Atom) × ℕ) :=
  if charAt regexp pos = 40 then do
    let (atoms, pos) ← inner (pos + 1)
    if charAt regexp pos ≠ 41 then
      .error (errorAt "Syntax error in regular expression at position " pos)
    else .ok (Atom.group atoms, pos + 1)
  else if charAt regexp pos = 91 then do
    let invert := charAt regexp (pos + 1) = 94
    let pos := if invert then pos + 2 else pos + 1
    let (lits, pos) ← parseOrlist regexp fuel pos
    .ok (Atom.orlist lits invert, pos)
  else if charAt regexp pos = 93 then
    .error (errorAt "Syntax error in regular expression at position, unexpected or close : " pos)
  else do
    let (lit, pos) ← parseLiteral regexp pos
    .ok (Atom.literal lit, pos)

lemma parseExpression_succ (regexp : Text) (fuel pos : ℕ) :
    parseExpression regexp (fuel+1) pos =
      if regexp.length ≤ pos ∨ charAt regexp pos = 41 then .ok ([], pos)
      else parseBody regexp (parseExpression regexp fuel) fuel pos >>= fun r =>
        parseExpression regexp fuel (parseModifier regexp r.2).2 >>= fun r' =>
          .ok (r.1 (parseModifier regexp r.2).1::r'.1, r'.2) := rfl

lemma orlistText_length_le (chs : List CharForm) : chs.length ≤ (orlistText chs).length := by
  induction chs with
  | nil => exact le_rfl
  | cons ch chs ih =>
    obtain ⟨c, cs, htext, -⟩ := ch.text_eq_cons
    rw [orlistText_cons, htext]
    simp only [List.length_cons, List.length_append]
    omega

lemma orlist_start (chs : List CharForm) (invert : Bool)
    (h : regexp.drop (pos + 1) = (if invert then [94] else []) ++ (orlistText chs ++ 93::post)) :
    (charAt regexp (pos + 1) = 94 ↔ invert = true) ∧
      regexp.drop (if invert then pos + 2 else pos + 1) = orlistText chs ++ 93::post := by
  cases invert with
  | true =>
    obtain ⟨-, hchar, hrest⟩ := charAt_of_drop h
    exact ⟨iff_of_true hchar rfl, hrest⟩
  | false =>
    refine ⟨iff_of_false ?_ Bool.false_ne_true, h⟩
    cases chs with
    | nil =>
      rw [(charAt_of_drop h).2.1]
      decide
    | cons ch chs =>
      obtain ⟨c, cs, htext, -, hcaret, -⟩ := ch.text_eq_cons
      rw [if_neg Bool.false_ne_true, orlistText_cons, htext] at h
      rw [(charAt_of_drop h).2.1]
      exact hcaret

lemma parseBody_text (form : AtomForm) {inner : ℕ → Except Err (List Atom × ℕ)} {fuel : ℕ}
    (hfuel : form.body.length ≤ fuel + 1)
    (hinner : ∀ forms pos post, (textOf forms).length ≤ fuel → Closes post →
      regexp.drop pos = textOf forms ++ post → inner pos = .ok (atomsOf forms, pos + (textOf forms).length))
    (h : regexp.drop pos = form.body ++ post) :
    parseBody regexp inner fuel pos = .ok (form.unmodified, pos + form.body.length) := by
  cases form with
  | literal ch modifier =>
    obtain ⟨c, cs, htext, hclose, -, hopen, hgroup, -⟩ := ch.text_eq_cons
    have hchar : charAt regexp pos = c := by
      rw [AtomForm.body, htext] at h
      exact (charAt_of_drop h).2.1
    rw [parseBody, hchar, if_neg hgroup, if_neg hopen, if_neg hclose, parseLiteral_text ch h]
    rfl
  | orlist chs invert modifier =>
    rw [AtomForm.body, List.cons_append, List.append_assoc, List.append_assoc] at h
    obtain ⟨-, hchar, hrest⟩ := charAt_of_drop h
    obtain ⟨hinvert, hstart⟩ := orlist_start chs invert hrest
    have hlen := orlistText_length_le chs
    have hlt : chs.length < fuel := by
      simp only [AtomForm.body, List.length_cons, List.length_append, List.length_nil] at hfuel
      omega
    have hlits := parseOrlist_text chs hlt hstart
    have hgroup : charAt regexp pos ≠ 40 := by
      rw [hchar]
      decide
    rw [parseBody, if_neg hgroup, if_pos hchar]
    simp only [hinvert, Bool.decide_eq_true]
    rw [hlits, ok_bind]
    cases invert <;>
    · simp only [AtomForm.unmodified, AtomForm.body, List.length_cons, List.length_append,
        List.length_nil]
      simp
      omega
  | group first rest modifier =>
    rw [AtomForm.body, List.cons_append, List.append_assoc] at h
    obtain ⟨-, hchar, hrest⟩ := charAt_of_drop h
    have hlen : (textOf (first::rest)).length ≤ fuel := by
      simp only [AtomForm.body, List.length_cons, List.length_append, List.length_nil] at hfuel
      omega
    have hbody := hinner _ _ _ hlen (by simp [Closes]) hrest
    have hend := (charAt_of_drop (drop_of_append hrest)).2.1
    rw [parseBody, if_pos hchar, hbody, ok_bind]
    dsimp only
    rw [if_neg (not_not.mpr hend)]
    simp only [AtomForm.unmodified, AtomForm.body, List.length_cons, List.length_append,
      List.length_nil]
    congr 2
    omega

lemma parseExpression_text (fuel : ℕ) (forms : List AtomForm) (pos : ℕ) (post : Text)
    (hfuel : (textOf forms).length ≤ fuel) (hpost : Closes post)
    (h : regexp.drop pos = textOf forms ++ post) :
    parseExpression regexp fuel pos = .ok (atomsOf forms, pos + (textOf forms).length) := by
  induction fuel generalizing forms pos post with
  | zero =>
    cases forms with
    | nil => rfl
    | cons form forms =>
      obtain ⟨c, cs, htext, -⟩ := form.text_eq_cons
      rw [textOf, htext] at hfuel
      exact absurd hfuel (Nat.not_succ_le_zero _)
  | succ fuel ih =>
    rw [parseExpression_succ]
    cases forms with
    | nil =>
      rw [if_pos, atomsOf, textOf]
      · rfl
      · cases post with
        | nil => exact .inl (charAt_of_drop_nil h).1
        | cons c post => exact .inr ((charAt_of_drop h).2.1.trans (hpost c rfl))
    | cons form forms =>
      rw [textOf, List.append_assoc] at h
      have hgo : ¬(regexp.length ≤ pos ∨ charAt regexp pos = 41) := by
        obtain ⟨c, cs, htext, hclose, -⟩ := form.text_eq_cons
        rw [htext] at h
        obtain ⟨hlt, hchar, -⟩ := charAt_of_drop h
        rintro (hle | hend)
        · omega
        · exact hclose (hchar.symm.trans hend)
      rw [form.text_eq, List.append_assoc] at h
      have hmod := drop_of_append h
      have hrest := drop_of_append hmod
      obtain ⟨c, cs, htext, -⟩ := form.text_eq_cons
      have hlen : form.text.length + (textOf forms).length ≤ fuel + 1 := by
        rw [← List.length_append]
        exact hfuel
      have hpos : 0 < form.text.length := by simp [htext]
      have hsplit : form.text.length = form.body.length + form.modifier.text.length := by
        rw [form.text_eq, List.length_append]
      rw [if_neg hgo, parseBody_text form (by omega) ih h, ok_bind]
      dsimp only
      rw [parseModifier_text form.modifier (noModifierAhead_textOf forms hpost) hmod]
      dsimp only
      rw [ih forms _ post (by omega) hpost hrest, ok_bind, atomsOf, ← form.atom_eq, textOf,
        List.length_append]
      congr 2
      omega

end Reading

section Machines

lemma generateStateMachine_cons {atom : Atom} {atoms : List Atom}
    (hatom : ∀ entry next states, ∃ r, atomTransitions atom entry next states = .ok r)
    (hrest : atoms = [] ∨ ∀ entry states, ∃ r, generateStateMachine atoms entry states = .ok r)
    (entry states : ℕ) : ∃ r, generateStateMachine (atom::atoms) entry states = .ok r := by
  obtain ⟨r, hr⟩ := hatom entry states (states + 1)
  cases atoms with
  | nil =>
    rw [generateStateMachine, hr, ok_bind]
    exact ⟨_, rfl⟩
  | cons atom' atoms =>
    obtain ⟨r', hr'⟩ := hrest.resolve_left (List.cons_ne_nil _ _) states r.2
    rw [generateStateMachine, hr, ok_bind]
    · dsimp only
      rw [hr', ok_bind]
      exact ⟨_, rfl⟩
    · simp

mutual

lemma AtomForm.atomTransitions_isOk : ∀ (form : AtomForm) (entry next states : ℕ),
    ∃ r, atomTransitions form.atom entry next states = .ok r
  | .literal ch modifier, entry, next, states => ⟨_, by rw [AtomForm.atom, atomTransitions]⟩
  | .orlist chs invert modifier, entry, next, states => ⟨_, by rw [AtomForm.atom, atomTransitions]⟩
  | .group first rest modifier, entry, next, states => by
    obtain ⟨r, hr⟩ := generateStateMachine_cons first.atomTransitions_isOk
      (generateStateMachine_isOk rest) entry states
    rw [AtomForm.atom, atomTransitions, hr, ok_bind]
    exact ⟨_, rfl⟩

lemma generateStateMachine_isOk : ∀ forms : List AtomForm, atomsOf forms = [] ∨
    ∀ entry states, ∃ r, generateStateMachine (atomsOf forms) entry states = .ok r
  | [] => .inl (by rw [atomsOf])
  | form::forms => by
    rw [atomsOf]
    exact .inr (generateStateMachine_cons form.atomTransitions_isOk (generateStateMachine_isOk forms))

end

/-- The text of an expression is accepted, and its machine has the runs of the strings that the atoms
accept. -/
theorem setExpression_text (e : Expression) :
    ∃ re, setExpression e.text = .ok re ∧
      ∀ str, EpsSearch.Run (edgesOf re.smachine) 0 str re.lastState ↔ str ∈ accepted e.atoms := by
  have hclosed : Closes [] := by
    intro c hc
    cases hc
  have hparse : parseExpression e.text e.text.length 0 =
      .ok (e.atoms, 0 + e.text.length) :=
    parseExpression_text e.text.length (e.first::e.rest) 0 [] le_rfl hclosed (List.append_nil _).symm
  obtain ⟨⟨smachine, states, last⟩, hmachine⟩ :=
    generateStateMachine_cons e.first.atomTransitions_isOk (generateStateMachine_isOk e.rest) 0 1
  refine ⟨⟨smachine, last⟩, ?_, fun str => generateStateMachine_accepts hmachine⟩
  rw [setExpression, hparse, ok_bind]
  dsimp only
  rw [Expression.atoms, atomsOf, hmachine]
  rfl

lemma isMatch_text {e : Expression} {re : RegExp} (h : setExpression e.text = .ok re) (str : Text) :
    re.isMatch str = true ↔ str ∈ accepted e.atoms := by
  obtain ⟨re', hre', hruns⟩ := setExpression_text e
  obtain rfl : re = re' := Except.ok.inj (h.symm.trans hre')
  rw [(isMatch_spec re str).2, hruns]

/-- Every well-formed expression without empty groups has a machine; `match` ends on every string, finds
a run of the automaton whenever there is one, and accepts every string of the language. -/
theorem match_complete (e : Expression) :
    ∃ re, setExpression e.text = .ok re ∧ ∀ str,
      (∃ depth, re.matchWithin depth str = some (re.isMatch str)) ∧
      (re.isMatch str = true ↔ str ∈ re.automaton.accepts) ∧
      (str ∈ e.language → re.isMatch str = true) := by
  obtain ⟨re, hre, -⟩ := setExpression_text e
  refine ⟨re, hre, ?_⟩
  intro str
  obtain ⟨hdepth, hrun⟩ := isMatch_spec re str
  refine ⟨hdepth, hrun.trans EpsSearch.mem_accepts_iff.symm, ?_⟩
  intro hstr
  exact (isMatch_text hre str).mpr (language_le_accepted e.atoms hstr)

theorem match_sound_of_plain {e : Expression} (hplain : plain e.atoms = true) :
    ∃ re, setExpression e.text = .ok re ∧ ∀ str, re.isMatch str = true ↔ str ∈ e.language := by
  obtain ⟨re, hre, -⟩ := setExpression_text e
  refine ⟨re, hre, fun str => (isMatch_text hre str).trans ?_⟩
  exact ⟨fun h => accepted_le_language hplain h, fun h => language_le_accepted e.atoms h⟩

theorem match_sound_starred :
    let e : Expression := ⟨.literal (.plain 97 (by decide)) .zeroOrMore,
      [.literal (.plain 98 (by decide)) .noModifier]⟩
    plain e.atoms = true ∧
      ∃ re, setExpression e.text = .ok re ∧ ∀ str, re.isMatch str = true ↔ str ∈ e.language :=
  ⟨rfl, match_sound_of_plain rfl⟩

end Machines

end Bfs.Utils.RegExp
