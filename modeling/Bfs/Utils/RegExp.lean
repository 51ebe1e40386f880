import Mathlib

/-! The regular expressions of the configuration. An expression is read into atoms, the atoms are made
into transitions between numbered states, and a string matches if the search over the transitions ends
in the last state. -/
namespace Bfs.Utils

/-- A `std::string` of bytes. -/
abbrev Text := List UInt8

def ascii (s : String) : Text := s.toList.map fun c => UInt8.ofNat c.toNat

namespace RegExp

inductive Literal
  | normal (ch : UInt8)
  | any
  | word
  | space
  | digit
  deriving DecidableEq

inductive Modifier
  | noModifier
  | zeroOrMore
  | oneOrMore
  | zeroOrOne
  deriving DecidableEq

inductive Atom
  | literal (lit : Literal) (modifier : Modifier)
  | orlist (lits : List Literal) (invert : Bool) (modifier : Modifier)
  | group (atoms : List Atom) (modifier : Modifier)

/-- `bfsRegExpressionError`, and undefined behaviour. -/
inductive Err
  | syntaxError (msg : Text)
  | undefined
  deriving DecidableEq

section Parsing

def specialChars : Text := ascii ".*+?^[]()"

/-- `nextLiteral`. The message of its error adds a character to a pointer. -/
def nextLiteral (ch : UInt8) (escaped : Bool) : Except Err Literal :=
  if escaped then
    if ch = 119 then .ok .word
    else if ch = 115 then .ok .space
    else if ch = 100 then .ok .digit
    else .ok (.normal ch)
  else if ch = 46 then .ok .any
  else if ch ∈ specialChars then .error .undefined
  else .ok (.normal ch)

/-- `regexp[pos]`; behind the end it is the terminator. -/
def charAt (regexp : Text) (pos : ℕ) : UInt8 := regexp.getD pos 0

def errorAt (msg : String) (pos : ℕ) : Err := .syntaxError (ascii (msg ++ toString pos))

def parseLiteral (regexp : Text) (pos : ℕ) : Except Err (Literal × ℕ) := do
  let escaped := charAt regexp pos = 92
  let pos := if escaped then pos + 1 else pos
  if regexp.length ≤ pos then .error (errorAt "Syntax error, missing literal at position " pos)
  else
    let lit ← nextLiteral (charAt regexp pos) escaped
    .ok (lit, pos + 1)

def parseOrlist (regexp : Text) : ℕ → ℕ → Except Err (List Literal × ℕ)
  | 0, pos => .error (errorAt "Syntax error in regular expression at position " pos)
  | fuel+1, pos => do
    if regexp.length ≤ pos then
      .error (errorAt "Syntax error in regular expression at position " pos)
    else if charAt regexp pos = 93 then .ok ([], pos + 1)
    else
      let (lit, pos) ← parseLiteral regexp pos
      let (lits, pos) ← parseOrlist regexp fuel pos
      .ok (lit::lits, pos)

def parseModifier (regexp : Text) (pos : ℕ) : Modifier × ℕ :=
  if charAt regexp pos = 42 then (.zeroOrMore, pos + 1)
  else if charAt regexp pos = 43 then (.oneOrMore, pos + 1)
  else if charAt regexp pos = 63 then (.zeroOrOne, pos + 1)
  else (.noModifier, pos)

/-- `parseExpression`. Every round takes a character, and the fuel of `createRegexpStateMachine` is
their number. -/
def parseExpression (regexp : Text) : ℕ → ℕ → Except Err (List Atom × ℕ)
  | 0, pos => .ok ([], pos)
  | fuel+1, pos => do
    if regexp.length ≤ pos ∨ charAt regexp pos = 41 then .ok ([], pos)
    else
      let (atom, pos) ← (
        if charAt regexp pos = 40 then do
          let (atoms, pos) ← parseExpression regexp fuel (pos + 1)
          if charAt regexp pos ≠ 41 then
            .error (errorAt "Syntax error in regular expression at position " pos)
          else .ok (Atom.group atoms, pos + 1)
        else if charAt regexp pos = 91 then do
          let invert := charAt regexp (pos + 1) = 94
          let pos := if invert then pos + 2 else pos + 1
          let (lits, pos) ← parseOrlist regexp fuel pos
          .ok (Atom.orlist lits invert, pos)
        else if charAt regexp pos = 93 then
          .error (errorAt "Syntax error in regular expression at position, unexpected or close : " pos)
        else do
          let (lit, pos) ← parseLiteral regexp pos
          .ok (Atom.literal lit, pos) : Except Err ((Modifier → Atom) × ℕ))
      let (modifier, pos) := parseModifier regexp pos
      let (atoms, pos) ← parseExpression regexp fuel pos
      .ok (atom modifier::atoms, pos)

end Parsing

section Machine

inductive Label
  | literal (lit : Literal)
  | orlist (lits : List Literal) (invert : Bool)
  | nil
  deriving DecidableEq

structure Transition where
  fromstate : ℕ
  tostate : ℕ
  label : Label
  deriving DecidableEq

def labelTransitions (label : Label) (entry next : ℕ) : Modifier → List Transition
  | .noModifier => [⟨entry, next, label⟩]
  | .zeroOrMore => [⟨entry, next, label⟩, ⟨entry, entry, label⟩, ⟨entry, next, .nil⟩]
  | .oneOrMore => [⟨entry, next, label⟩, ⟨entry, entry, label⟩]
  | .zeroOrOne => [⟨entry, next, label⟩, ⟨entry, next, .nil⟩]

/-- The transitions around a group that ends in `last`. -/
def groupTransitions (entry next last : ℕ) : Modifier → List Transition
  | .noModifier => [⟨last, next, .nil⟩]
  | .zeroOrMore => [⟨last, next, .nil⟩, ⟨last, entry, .nil⟩, ⟨entry, next, .nil⟩]
  | .oneOrMore => [⟨last, next, .nil⟩, ⟨last, entry, .nil⟩]
  | .zeroOrOne => [⟨last, next, .nil⟩, ⟨entry, next, .nil⟩]

mutual

/-- One round of `generateStateMachine`: the transitions of an atom from `entry` to `next`, and the
next free state. -/
def atomTransitions : Atom → ℕ → ℕ → ℕ → Except Err (List Transition × ℕ)
  | .literal lit modifier, entry, next, states =>
    .ok (labelTransitions (.literal lit) entry next modifier, states)
  | .orlist lits invert modifier, entry, next, states =>
    .ok (labelTransitions (.orlist lits invert) entry next modifier, states)
  | .group atoms modifier, entry, next, states => do
    let (smachine, states, last) ← generateStateMachine atoms entry states
    .ok (smachine ++ groupTransitions entry next last modifier, states)

/-- `generateStateMachine`: the transitions, the next free state and the last state, which is not
set without atoms. -/
def generateStateMachine : List Atom → ℕ → ℕ → Except Err (List Transition × ℕ × ℕ)
  | [], _, _ => .error .undefined
  | [atom], entry, states => do
    let (smachine, states') ← atomTransitions atom entry states (states + 1)
    .ok (smachine, states', states)
  | atom::atoms, entry, states => do
    let (smachine, states') ← atomTransitions atom entry states (states + 1)
    let (rest, states', last) ← generateStateMachine atoms states states'
    .ok (smachine ++ rest, states', last)

end

end Machine

end RegExp

/-- The state machine of class `bfsRegExpression`. -/
structure RegExp where
  smachine : List RegExp.Transition
  lastState : ℕ
  deriving DecidableEq

namespace RegExp

/-- `setExpression`. -/
def setExpression (regexp : Text) : Except Err RegExp := do
  let (atoms, _) ← parseExpression regexp regexp.length 0
  let (smachine, _, last) ← generateStateMachine atoms 0 1
  .ok ⟨smachine, last⟩

section Matching

def wordChars : Text := ascii "abcdefghijklmnopqrstuvwxyzABCDEFGHIJKLMNOPQRSTUVWXYZ0123456789_"
def spaceChars : Text := [32, 9, 10, 13, 12, 11]
def digitChars : Text := ascii "0123456789"

def matchLiteral (ch : UInt8) : Literal → Bool
  | .normal c => c == ch
  | .any => true
  | .word => wordChars.contains ch
  | .space => spaceChars.contains ch
  | .digit => digitChars.contains ch

def matchOrlist (ch : UInt8) (lits : List Literal) (invert : Bool) : Bool :=
  lits.any (matchLiteral ch) != invert

/-- `bfsRegExpression::match` on what is left of the string. Between two characters every state is left
by empty transitions once at most. -/
def matchFrom (re : RegExp) : ℕ → ℕ → Text → List ℕ → Bool
  | 0, _, _, _ => false
  | fuel+1, state, str, nils =>
    (re.smachine.any fun t => t.fromstate == state &&
      match t.label, str with
      | .literal lit, ch::str => matchLiteral ch lit && matchFrom re fuel t.tostate str []
      | .orlist lits invert, ch::str =>
        matchOrlist ch lits invert && matchFrom re fuel t.tostate str []
      | .nil, str => !nils.contains state && matchFrom re fuel t.tostate str (nils ++ [state])
      | _, [] => false) ||
    (str.isEmpty && state == re.lastState)

/-- `bfsRegExpression::match`. -/
def isMatch (re : RegExp) (str : Text) : Bool :=
  matchFrom re ((str.length + 1)*(re.smachine.length + 1)) 0 str []

end Matching

section Simple

lemma matchFrom_of_final (re : RegExp) {state : ℕ} (h : ∀ t ∈ re.smachine, t.fromstate ≠ state)
    (fuel : ℕ) (str : Text) (nils : List ℕ) :
    matchFrom re (fuel+1) state str nils = (str.isEmpty && state == re.lastState) := by
  rw [matchFrom, List.any_eq_false.mpr, Bool.false_or]
  intro t ht
  simp [h t ht]

def oneLiteral (lit : Literal) : RegExp := ⟨[⟨0, 1, .literal lit⟩], 1⟩

lemma isMatch_oneLiteral (lit : Literal) (str : Text) :
    (oneLiteral lit).isMatch str = true ↔ ∃ ch, str = [ch] ∧ matchLiteral ch lit = true := by
  have hfinal : ∀ t ∈ (oneLiteral lit).smachine, t.fromstate ≠ 1 := by simp [oneLiteral]
  rw [isMatch]
  cases str with
  | nil => simp [matchFrom, oneLiteral]
  | cons ch str =>
    have hfuel : ((ch::str).length + 1)*((oneLiteral lit).smachine.length + 1) =
        (2*str.length + 2) + 1 + 1 := by
      simp only [oneLiteral, List.length_cons, List.length_nil]
      ring
    have hend := matchFrom_of_final (oneLiteral lit) hfinal (2*str.length + 2) str []
    rw [hfuel, matchFrom]
    simp only [oneLiteral] at hend ⊢
    simp only [List.any_cons, List.any_nil, BEq.rfl, Bool.true_and, Bool.or_false, List.isEmpty_cons,
      Bool.false_and, hend]
    simp [and_comm]

def orlistPlus (lits : List Literal) (invert : Bool) : RegExp :=
  ⟨[⟨0, 1, .orlist lits invert⟩, ⟨0, 0, .orlist lits invert⟩], 1⟩

lemma matchFrom_orlistPlus (lits : List Literal) (invert : Bool) {fuel : ℕ} {str : Text}
    (h : str.length < fuel) (nils : List ℕ) : matchFrom (orlistPlus lits invert) fuel 0 str nils =
      (!str.isEmpty && str.all fun ch => matchOrlist ch lits invert) := by
  have hfinal : ∀ t ∈ (orlistPlus lits invert).smachine, t.fromstate ≠ 1 := by simp [orlistPlus]
  have hlast : (orlistPlus lits invert).lastState = 1 := rfl
  induction str generalizing fuel nils with
  | nil =>
    obtain ⟨fuel, rfl⟩ := Nat.exists_eq_succ_of_ne_zero (Nat.ne_of_gt h)
    simp [matchFrom, orlistPlus]
  | cons ch str ih =>
    rw [List.length_cons] at h
    obtain ⟨fuel, rfl⟩ : ∃ n, fuel = n+1+1 := ⟨fuel-2, by omega⟩
    have hstay := ih (show str.length < fuel+1 by omega) []
    rw [matchFrom]
    simp only [orlistPlus] at hstay hfinal hlast ⊢
    simp only [List.any_cons, List.any_nil, BEq.rfl, Bool.true_and, Bool.or_false, List.isEmpty_cons,
      Bool.false_and, hstay, matchFrom_of_final ⟨_, 1⟩ hfinal]
    cases str <;> simp

lemma isMatch_orlistPlus (lits : List Literal) (invert : Bool) (str : Text) :
    (orlistPlus lits invert).isMatch str = true ↔
      str ≠ [] ∧ ∀ ch ∈ str, matchOrlist ch lits invert = true := by
  have hfuel : str.length < (str.length + 1)*((orlistPlus lits invert).smachine.length + 1) :=
    (Nat.lt_succ_self _).trans_le (Nat.le_mul_of_pos_right _ (Nat.succ_pos _))
  rw [isMatch, matchFrom_orlistPlus lits invert hfuel]
  simp

end Simple

end RegExp

end Bfs.Utils
