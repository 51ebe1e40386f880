import Bfs.Lib.Fallible
import Bfs.Utils.RegExp

/-! The parser of class `bfsCfgParser` for any table of symbols and productions. A text is split into
tokens, and a symbol is resolved at a position of the tokens by its productions in their order, down to a
fixed depth. -/
namespace Bfs.Utils

/-- What loading a configuration can end with: `bfsCfgParserError`, `bfsCfgError`, the `out_of_range`
of a container, and access through a null pointer. -/
inductive CfgErr
  | parserError (msg : Text)
  | cfgError (msg : Text)
  | outOfRange
  | nullPointer
  deriving DecidableEq

/-- Class `bfsCfgParserSymbol`; a symbol without a matcher matches no text. -/
structure CfgSymbol (ν : Type) where
  name : ν
  isTerminal : Bool
  matcher : Option RegExp
  deriving DecidableEq

variable {ν : Type}

def CfgSymbol.isSymbol (sym : CfgSymbol ν) (str : Text) : Bool :=
  match sym.matcher with
  | none => false
  | some re => re.isMatch str

/-- `matchedSymbol_t`. -/
abbrev Tok (ν : Type) := Text × CfgSymbol ν

/-- Class `bfsCfgParserProduction`. -/
structure Production (ν : Type) where
  left : CfgSymbol ν
  right : List (CfgSymbol ν)

/-- Class `bfsCfgParser`. -/
structure CfgParser (ν : Type) where
  symbolTable : List (CfgSymbol ν)
  startSymbol : CfgSymbol ν
  endSymbol : CfgSymbol ν
  productions : List (Production ν)

section Tokens

/-- `isspace`. -/
def isSpace (ch : UInt8) : Bool := ch == 32 || decide (9 ≤ ch.toNat ∧ ch.toNat ≤ 13)

def hash : UInt8 := 35
def newline : UInt8 := 10

def findSymbol (table : List (CfgSymbol ν)) (working : Text) : Except CfgErr (Tok ν) :=
  match table.find? (·.isSymbol working) with
  | none => .error (.parserError (ascii "Parse error : symbol \"" ++ working ++
      ascii "\" does not match any symbol in grammar."))
  | some sym => .ok (working, sym)

/-- The loop of `tokenizeData` on the characters that are left. A word ends at white space, at a comment
and at the last character. -/
def tokenizeFrom (table : List (CfgSymbol ν)) : ℕ → Text → Text → Except CfgErr (List (Tok ν))
  | 0, _, _ => .ok []
  | _, [], _ => .ok []
  | fuel+1, ch::text, working => do
    let rest := if ch = hash then (text.dropWhile (· ≠ newline)).tail else text
    let working := if isSpace ch ∨ ch = hash then working else working ++ [ch]
    let tokReady := (isSpace ch ∨ ch = hash ∨ rest = []) ∧ working ≠ []
    if tokReady then
      let tok ← findSymbol table working
      let toked ← tokenizeFrom table fuel rest []
      .ok (tok::toked)
    else tokenizeFrom table fuel rest working

/-- `(int)rawdata.length()` as a bound of the loops; a negative number bounds them at once. -/
def intLength (n : ℕ) : ℕ := if n % 2^32 < 2^31 then n % 2^32 else 0

def seenText (text : Text) : Text := text.take (intLength text.length)

/-- `bfsCfgParser::tokenizeData`. -/
def CfgParser.tokenizeData (g : CfgParser ν) (text : Text) : Except CfgErr (List (Tok ν)) := do
  let toked ← tokenizeFrom g.symbolTable (seenText text).length (seenText text) []
  .ok (toked ++ [(ascii "END", g.endSymbol)])

lemma tokenizeFrom_cons (table : List (CfgSymbol ν)) (fuel : ℕ) (ch : UInt8) (text working : Text) :
    ∃ rest word, tokenizeFrom table (fuel + 1) (ch::text) working = tokenizeFrom table fuel rest word ∨
      tokenizeFrom table (fuel + 1) (ch::text) working = (do
        let tok ← findSymbol table word
        let toked ← tokenizeFrom table fuel rest []
        .ok (tok::toked)) := by
  rw [tokenizeFrom]
  generalize (if ch = hash then (text.dropWhile (· ≠ newline)).tail else text) = rest
  generalize (if isSpace ch ∨ ch = hash then working else working ++ [ch]) = word
  refine ⟨rest, word, ?_⟩
  split_ifs
  · exact .inr rfl
  · exact .inl rfl

lemma findSymbol_eq_ok {table : List (CfgSymbol ν)} {word : Text} {tok : Tok ν}
    (h : findSymbol table word = .ok tok) : tok.2 ∈ table ∧ tok.2.isSymbol tok.1 = true := by
  rw [findSymbol] at h
  cases hfind : table.find? (·.isSymbol word) with
  | none =>
    rw [hfind] at h
    cases h
  | some sym =>
    rw [hfind] at h
    cases h
    have hmatch := List.find?_some hfind
    exact ⟨List.mem_of_find?_eq_some hfind, hmatch⟩

lemma tokenizeFrom_fails (table : List (CfgSymbol ν)) (fuel : ℕ) (text working : Text) :
    Fallible.Fails (fun e => ∃ msg, e = .parserError msg) (tokenizeFrom table fuel text working) := by
  induction fuel generalizing text working with
  | zero => exact .ok _
  | succ fuel ih =>
    cases text with
    | nil => exact .ok _
    | cons ch text =>
      obtain ⟨rest, word, hgo | htok⟩ := tokenizeFrom_cons table fuel ch text working
      · rw [hgo]
        exact ih rest word
      · rw [htok]
        refine .bind ?_ fun tok _ => .bind (ih rest []) fun toks _ => .ok _
        rw [findSymbol]
        split
        · exact .error ⟨_, rfl⟩
        · exact .ok _

end Tokens

section Parsing

/-- `parseTree_t`: a matched terminal, or a non-terminal with what its symbols matched. -/
inductive PTree (ν : Type)
  | leaf (symbol : CfgSymbol ν) (matched : Tok ν)
  | node (symbol : CfgSymbol ν) (ntmatch : List (PTree ν))

/-- The number of tokens that were consumed, and the tree in `match`. -/
abbrev Parsed (ν : Type) := Except CfgErr (ℕ × Option (PTree ν))

/-- Resolve the symbols of a right hand side one after the other; `none` if one of them fails. -/
def walkRight (exec : CfgSymbol ν → ℕ → Parsed ν) :
    List (CfgSymbol ν) → ℕ → Except CfgErr (Option (ℕ × List (PTree ν)))
  | [], nidx => .ok (some (nidx, []))
  | sym::right, nidx => do
    let (syms, submatch) ← exec sym nidx
    if 0 < syms then
      match ← walkRight exec right (nidx + syms) with
      | none => .ok none
      | some (nidx, submatches) => .ok (some (nidx, submatch.toList ++ submatches))
    else .ok none

variable [DecidableEq ν]

def tryProductions (exec : CfgSymbol ν → ℕ → Parsed ν) (res : CfgSymbol ν) (idx : ℕ) :
    List (Production ν) → Except CfgErr (ℕ × Option (PTree ν))
  | [] => .ok (0, none)
  | prod::prods => do
    if prod.left.name = res.name then
      match ← walkRight exec prod.right idx with
      | some (nidx, submatches) => .ok (nidx - idx, some (.node res submatches))
      | none => tryProductions exec res idx prods
    else tryProductions exec res idx prods

def maxRecursionDepth : ℕ := 100

def tooDeep : CfgErr :=
  .parserError (ascii "Max recursion depth reached in parser, aborting parser.")

/-- `bfsCfgParser::executeParser`. The first number is how many levels are left before the depth is
larger than its limit. -/
def CfgParser.executeParser (g : CfgParser ν) (toks : List (Tok ν)) : ℕ → CfgSymbol ν → ℕ → Parsed ν
  | 0, _, _ => .error tooDeep
  | levels+1, res, idx =>
    if res.isTerminal then
      match toks[idx]? with
      | none => .error .outOfRange
      | some tok => if tok.2.name = res.name then .ok (1, some (.leaf res tok)) else .ok (0, none)
    else tryProductions (g.executeParser toks levels) res idx g.productions

lemma executeParser_fails (g : CfgParser ν) (toks : List (Tok ν)) (levels : ℕ) (sym : CfgSymbol ν)
    (idx : ℕ) : Fallible.Fails (fun e => e = tooDeep ∨ e = .outOfRange)
      (g.executeParser toks levels sym idx) := by
  induction levels generalizing sym idx with
  | zero => exact .error (.inl rfl)
  | succ levels ih =>
    have hwalk : ∀ right nidx, Fallible.Fails (fun e => e = tooDeep ∨ e = .outOfRange)
        (walkRight (g.executeParser toks levels) right nidx) := by
      intro right
      induction right with
      | nil => exact fun _ => .ok _
      | cons sym right ihright =>
        intro nidx
        rw [walkRight]
        refine .bind (ih _ _) fun r _ => ?_
        dsimp only
        split_ifs
        · refine .bind (ihright _) fun found _ => ?_
          cases found <;> exact .ok _
        · exact .ok _
    rw [CfgParser.executeParser]
    split_ifs
    · split
      · exact .error (.inr rfl)
      · split_ifs <;> exact .ok _
    · induction g.productions with
      | nil => exact .ok _
      | cons prod prods ihprods =>
        rw [tryProductions]
        split_ifs
        · refine .bind (hwalk _ _) fun found _ => ?_
          cases found with
          | none => exact ihprods
          | some found => exact .ok _
        · exact ihprods

/-- `bfsCfgParser::parseData`: the tree, or a null pointer; the number of tokens is not looked at. -/
def CfgParser.parseData (g : CfgParser ν) (inp : Text) : Except CfgErr (Option (PTree ν)) := do
  let toked ← g.tokenizeData inp
  let (_, ptree) ← g.executeParser toked (maxRecursionDepth + 1) g.startSymbol 0
  .ok ptree

end Parsing

section Levels

variable {α β : Type}

/-- The result of a search that goes through `h` levels, when `levels` are left. -/
def within (h levels : ℕ) (r : α) : Except CfgErr α := if h ≤ levels then .ok r else .error tooDeep

lemma within_of_le {h levels : ℕ} (hle : h ≤ levels) (r : α) : within h levels r = .ok r := if_pos hle

lemma within_zero (levels : ℕ) (r : α) : within 0 levels r = .ok r := within_of_le (Nat.zero_le _) r

lemma within_bind {h h' levels : ℕ} {a : α} {b : β} {f : α → Except CfgErr β}
    (hf : f a = within h' levels b) : (within h levels a >>= f) = within (max h h') levels b := by
  rw [within, within]
  split_ifs with hle hmax hmax
  · rw [Fallible.ok_bind, hf, within_of_le (by omega)]
  · rw [Fallible.ok_bind, hf, within, if_neg (by omega)]
  · omega
  · rfl

lemma within_bind_ok {h levels : ℕ} {a : α} {b : β} {f : α → Except CfgErr β} (hf : f a = .ok b) :
    (within h levels a >>= f) = within h levels b := by
  rw [within, within]
  split_ifs
  · rw [Fallible.ok_bind, hf]
  · rfl

variable [DecidableEq ν] (g : CfgParser ν) (toks : List (Tok ν))

def CfgParser.rights (sym : CfgSymbol ν) : List (List (CfgSymbol ν)) :=
  (g.productions.filter fun prod => prod.left.name = sym.name).map Production.right

def CfgParser.Resolves (sym : CfgSymbol ν) (idx h : ℕ) (r : ℕ × Option (PTree ν)) : Prop :=
  ∀ levels, g.executeParser toks levels sym idx = within h levels r

def CfgParser.Walks (right : List (CfgSymbol ν)) (idx h : ℕ) (r : Option (ℕ × List (PTree ν))) : Prop :=
  ∀ levels, walkRight (g.executeParser toks levels) right idx = within h levels r

def CfgParser.Tries (sym : CfgSymbol ν) (rights : List (List (CfgSymbol ν))) (idx h : ℕ)
    (r : ℕ × Option (PTree ν)) : Prop :=
  ∀ levels, tryProductions (g.executeParser toks levels) sym idx (rights.map (Production.mk sym)) =
    within h levels r

variable {g toks}

section Symbols

variable {sym : CfgSymbol ν} {idx : ℕ} {tok : Tok ν} (hsym : sym.isTerminal = true)
  (htok : toks[idx]? = some tok)
include hsym htok

lemma resolves_match (hname : tok.2.name = sym.name) :
    g.Resolves toks sym idx 1 (1, some (.leaf sym tok)) := by
  intro levels
  cases levels with
  | zero => rfl
  | succ levels =>
    rw [within_of_le (by omega), CfgParser.executeParser, if_pos hsym, htok]
    exact if_pos hname

lemma resolves_miss (hname : tok.2.name ≠ sym.name) : g.Resolves toks sym idx 1 (0, none) := by
  intro levels
  cases levels with
  | zero => rfl
  | succ levels =>
    rw [within_of_le (by omega), CfgParser.executeParser, if_pos hsym, htok]
    exact if_neg hname

end Symbols

lemma walks_nil (idx : ℕ) : g.Walks toks [] idx 0 (some (idx, [])) := by
  intro levels
  rw [walkRight, within_zero]

lemma CfgParser.Resolves.cons {sym : CfgSymbol ν} {right : List (CfgSymbol ν)} {idx h h' n k : ℕ}
    {t : PTree ν} {ts : List (PTree ν)} (hn : 0 < n) (hsym : g.Resolves toks sym idx h (n, some t))
    (hright : g.Walks toks right (idx + n) h' (some (k, ts))) :
    g.Walks toks (sym::right) idx (max h h') (some (k, t::ts)) := by
  intro levels
  rw [walkRight, hsym levels]
  apply within_bind
  dsimp only
  rw [if_pos hn, hright levels]
  exact within_bind_ok rfl

lemma CfgParser.Resolves.cons_none {sym : CfgSymbol ν} {right : List (CfgSymbol ν)} {idx h h' n : ℕ}
    {t : PTree ν} (hn : 0 < n) (hsym : g.Resolves toks sym idx h (n, some t))
    (hright : g.Walks toks right (idx + n) h' none) : g.Walks toks (sym::right) idx (max h h') none := by
  intro levels
  rw [walkRight, hsym levels]
  apply within_bind
  dsimp only
  rw [if_pos hn, hright levels]
  exact within_bind_ok rfl

lemma CfgParser.Resolves.fail {sym : CfgSymbol ν} {idx h : ℕ} (hsym : g.Resolves toks sym idx h (0, none))
    (right : List (CfgSymbol ν)) : g.Walks toks (sym::right) idx h none := by
  intro levels
  rw [walkRight, hsym levels]
  exact within_bind_ok rfl

lemma tries_nil (sym : CfgSymbol ν) (idx : ℕ) : g.Tries toks sym [] idx 0 (0, none) := by
  intro levels
  rw [within_zero]
  rfl

lemma CfgParser.Walks.first {right : List (CfgSymbol ν)} {idx h k : ℕ} {ts : List (PTree ν)}
    (hright : g.Walks toks right idx h (some (k, ts))) (sym : CfgSymbol ν)
    (rights : List (List (CfgSymbol ν))) :
    g.Tries toks sym (right::rights) idx h (k - idx, some (.node sym ts)) := by
  intro levels
  rw [List.map_cons, tryProductions, if_pos rfl, hright levels]
  exact within_bind_ok rfl

lemma CfgParser.Walks.next {sym : CfgSymbol ν} {right : List (CfgSymbol ν)} {idx h h' : ℕ}
    {rights : List (List (CfgSymbol ν))} {r : ℕ × Option (PTree ν)} (hright : g.Walks toks right idx h none)
    (hrights : g.Tries toks sym rights idx h' r) : g.Tries toks sym (right::rights) idx (max h h') r := by
  intro levels
  rw [List.map_cons, tryProductions, if_pos rfl, hright levels]
  exact within_bind (hrights levels)

lemma tryProductions_rights (exec : CfgSymbol ν → ℕ → Parsed ν) (sym : CfgSymbol ν) (idx : ℕ) :
    tryProductions exec sym idx g.productions =
      tryProductions exec sym idx ((g.rights sym).map (Production.mk sym)) := by
  rw [CfgParser.rights]
  induction g.productions with
  | nil => rfl
  | cons prod prods ih =>
    by_cases hname : prod.left.name = sym.name
    · rw [List.filter_cons_of_pos (by simpa using hname), List.map_cons, List.map_cons, tryProductions,
        tryProductions, if_pos hname, if_pos rfl, ih]
    · rw [List.filter_cons_of_neg (by simpa using hname), tryProductions, if_neg hname, ih]

lemma CfgParser.Tries.resolves {sym : CfgSymbol ν} {rights : List (List (CfgSymbol ν))} {idx h : ℕ}
    {r : ℕ × Option (PTree ν)} (hsym : sym.isTerminal = false) (hrights : g.rights sym = rights)
    (htries : g.Tries toks sym rights idx h r) : g.Resolves toks sym idx (h + 1) r := by
  intro levels
  cases levels with
  | zero => rfl
  | succ levels =>
    have hnot : ¬ sym.isTerminal = true := by rw [hsym]; exact Bool.false_ne_true
    rw [CfgParser.executeParser, if_neg hnot, tryProductions_rights, hrights, htries levels, within, within]
    simp only [Nat.add_le_add_iff_right]

end Levels

section Derivations

variable (g : CfgParser ν)

def CfgParser.DerivesIn : ℕ → CfgSymbol ν → List (Tok ν) → Prop
  | 0, _, _ => False
  | n+1, sym, toks =>
    if sym.isTerminal then ∃ tok, toks = [tok] ∧ tok.2.name = sym.name
    else ∃ prod ∈ g.productions, prod.left.name = sym.name ∧
      ∃ parts, toks = parts.flatten ∧ List.Forall₂ (CfgParser.DerivesIn n) prod.right parts

def CfgParser.Derives (sym : CfgSymbol ν) (toks : List (Tok ν)) : Prop := ∃ n, g.DerivesIn n sym toks

variable {g} {toks : List (Tok ν)}

lemma walkRight_eq_some {exec : CfgSymbol ν → ℕ → Parsed ν} {D : CfgSymbol ν → List (Tok ν) → Prop}
    (hexec : ∀ sym idx n t, exec sym idx = .ok (n, t) → 0 < n → D sym ((toks.drop idx).take n))
    {right : List (CfgSymbol ν)} {idx nidx : ℕ} {ts : List (PTree ν)}
    (h : walkRight exec right idx = .ok (some (nidx, ts))) :
    ∃ n, nidx = idx + n ∧ ∃ parts, (toks.drop idx).take n = parts.flatten ∧ List.Forall₂ D right parts := by
  induction right generalizing idx nidx ts with
  | nil =>
    cases h
    exact ⟨0, rfl, [], by rw [List.take_zero, List.flatten_nil], .nil⟩
  | cons sym right ih =>
    rw [walkRight] at h
    obtain ⟨⟨syms, submatch⟩, hsym, h⟩ := Fallible.bind_eq_ok.mp h
    dsimp only at h
    split_ifs at h with hpos
    · obtain ⟨found, hrest, h⟩ := Fallible.bind_eq_ok.mp h
      cases found with
      | none => cases h
      | some found =>
        cases h
        obtain ⟨n, hn, parts, hparts, hall⟩ := ih hrest
        refine ⟨syms + n, by omega, (toks.drop idx).take syms::parts, ?_, ?_⟩
        · rw [List.take_add, List.flatten_cons, List.drop_drop, hparts]
        · exact .cons (hexec sym idx syms submatch hsym hpos) hall
    · cases h

lemma walkRight_le {exec : CfgSymbol ν → ℕ → Parsed ν} {right : List (CfgSymbol ν)} {idx nidx : ℕ}
    {ts : List (PTree ν)} (h : walkRight exec right idx = .ok (some (nidx, ts))) :
    idx + right.length ≤ nidx := by
  induction right generalizing idx nidx ts with
  | nil =>
    cases h
    exact le_rfl
  | cons sym right ih =>
    rw [walkRight] at h
    obtain ⟨⟨syms, submatch⟩, -, h⟩ := Fallible.bind_eq_ok.mp h
    dsimp only at h
    split_ifs at h with hpos
    · obtain ⟨found, hrest, h⟩ := Fallible.bind_eq_ok.mp h
      cases found with
      | none => cases h
      | some found =>
        cases h
        have hle := ih hrest
        rw [List.length_cons]
        omega
    · cases h

variable [DecidableEq ν]

lemma tryProductions_eq_ok {exec : CfgSymbol ν → ℕ → Parsed ν} {res : CfgSymbol ν} {idx n : ℕ}
    {prods : List (Production ν)} {t : Option (PTree ν)} (hn : 0 < n)
    (h : tryProductions exec res idx prods = .ok (n, t)) :
    ∃ prod ∈ prods, prod.left.name = res.name ∧ ∃ nidx ts,
      walkRight exec prod.right idx = .ok (some (nidx, ts)) ∧ n = nidx - idx := by
  induction prods with
  | nil =>
    cases h
    exact absurd hn (Nat.lt_irrefl 0)
  | cons prod prods ih =>
    rw [tryProductions] at h
    split_ifs at h with hname
    · obtain ⟨found, hwalk, h⟩ := Fallible.bind_eq_ok.mp h
      cases found with
      | none =>
        obtain ⟨p, hp, hrest⟩ := ih h
        exact ⟨p, List.mem_cons_of_mem _ hp, hrest⟩
      | some found =>
        cases h
        exact ⟨prod, List.mem_cons_self .., hname, found.1, found.2, hwalk, rfl⟩
    · obtain ⟨p, hp, hrest⟩ := ih h
      exact ⟨p, List.mem_cons_of_mem _ hp, hrest⟩

lemma tryProductions_pos {exec : CfgSymbol ν → ℕ → Parsed ν} {res : CfgSymbol ν} {idx n : ℕ}
    {prods : List (Production ν)} (hright : ∀ prod ∈ prods, prod.right ≠ []) {t : PTree ν}
    (h : tryProductions exec res idx prods = .ok (n, some t)) : 0 < n := by
  induction prods with
  | nil => cases h
  | cons prod prods ih =>
    obtain ⟨hprod, hprods⟩ := List.forall_mem_cons.mp hright
    rw [tryProductions] at h
    split_ifs at h
    · obtain ⟨found, hwalk, h⟩ := Fallible.bind_eq_ok.mp h
      cases found with
      | none => exact ih hprods h
      | some found =>
        cases h
        have hle := walkRight_le hwalk
        have hlen := List.length_pos_iff.mpr hprod
        omega
    · exact ih hprods h

lemma executeParser_pos (hright : ∀ prod ∈ g.productions, prod.right ≠ []) {levels : ℕ} {sym : CfgSymbol ν}
    {idx n : ℕ} {t : PTree ν} (h : g.executeParser toks levels sym idx = .ok (n, some t)) : 0 < n := by
  cases levels with
  | zero => cases h
  | succ levels =>
    rw [CfgParser.executeParser] at h
    split_ifs at h
    · split at h
      · cases h
      · split_ifs at h
        · cases h
          exact one_pos
        · cases h
    · exact tryProductions_pos hright h

lemma derivesIn_of_executeParser {levels : ℕ} {sym : CfgSymbol ν} {idx n : ℕ} {t : Option (PTree ν)}
    (h : g.executeParser toks levels sym idx = .ok (n, t)) (hn : 0 < n) :
    g.DerivesIn levels sym ((toks.drop idx).take n) := by
  induction levels generalizing sym idx n t with
  | zero => cases h
  | succ levels ih =>
    rw [CfgParser.executeParser] at h
    rw [CfgParser.DerivesIn]
    split_ifs at h ⊢ with hterminal
    · cases htok : toks[idx]? with
      | none =>
        rw [htok] at h
        cases h
      | some tok =>
        rw [htok] at h
        dsimp only at h
        split_ifs at h with hname
        · cases h
          refine ⟨tok, ?_, hname⟩
          obtain ⟨hlt, rfl⟩ := List.getElem?_eq_some_iff.mp htok
          rw [List.drop_eq_getElem_cons hlt, List.take_succ_cons, List.take_zero]
        · cases h
          exact absurd hn (Nat.lt_irrefl 0)
    · obtain ⟨prod, hprod, hname, nidx, ts, hwalk, rfl⟩ := tryProductions_eq_ok hn h
      have hexec : ∀ sym idx n t, g.executeParser toks levels sym idx = .ok (n, t) → 0 < n →
          g.DerivesIn levels sym ((toks.drop idx).take n) := fun _ _ _ _ => ih
      obtain ⟨n, rfl, parts, hparts, hall⟩ := walkRight_eq_some hexec hwalk
      rw [Nat.add_sub_cancel_left]
      exact ⟨prod, hprod, hname, parts, hparts, hall⟩

end Derivations

end Bfs.Utils
