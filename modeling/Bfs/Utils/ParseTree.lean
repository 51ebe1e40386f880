import Bfs.Utils.CfgParser

/-! The trees that `executeParser` builds. The function is modelled here with the variables that the
loops share: the indices are `int`s, one vector `submatches` serves all productions of a call, and
`match` is an out parameter that a failed terminal leaves alone. What it returns with a positive count
is a derivation, and for streams of fewer than `2^31` tokens the counts and trees are those of the
parser over natural numbers. -/
namespace Bfs.Utils

open Fallible

variable {ν : Type}

section Model

def wrapInt (i : ℤ) : ℤ := i.bmod (2^32)

/-- `toks.at(idx)`; as a `size_t`, a negative index is behind the end of every vector. -/
def tokAt (toks : List (Tok ν)) (idx : ℤ) : Except CfgErr (Tok ν) :=
  if idx < 0 then .error .outOfRange
  else
    match toks[idx.toNat]? with
    | none => .error .outOfRange
    | some tok => .ok tok

structure ParseVars (ν : Type) where
  nidx : ℤ
  submatch : Option (PTree ν)
  submatches : List (PTree ν)

/-- A call of the parser: a symbol, an index, and what `match` pointed at before. -/
abbrev ParseCall (ν : Type) := CfgSymbol ν → ℤ → Option (PTree ν) → Except CfgErr (ℤ × Option (PTree ν))

def walkLoop (exec : ParseCall ν) :
    List (CfgSymbol ν) → ParseVars ν → Except CfgErr (Bool × ParseVars ν)
  | [], v => .ok (false, v)
  | sym::right, v => do
    let (syms, submatch) ← exec sym v.nidx v.submatch
    if 0 < syms then
      walkLoop exec right ⟨wrapInt (v.nidx + syms), submatch, v.submatches ++ submatch.toList⟩
    else .ok (true, ⟨v.nidx, submatch, []⟩)

variable [DecidableEq ν]

def productionLoop (exec : ParseCall ν) (res : CfgSymbol ν) (idx : ℤ) :
    List (Production ν) → ParseVars ν → Except CfgErr (ℤ × Option (PTree ν))
  | [], _ => .ok (0, none)
  | prod::prods, v =>
    if res.name = prod.left.name then do
      let (failed, v) ← walkLoop exec prod.right { v with nidx := idx }
      if failed then productionLoop exec res idx prods v
      else .ok (wrapInt (v.nidx - idx), some (.node res v.submatches))
    else productionLoop exec res idx prods v

/-- `bfsCfgParser::executeParser` with its variables. The first number is how many levels are left
before the depth is larger than its limit; the loop that collects a log line is left out. -/
def CfgParser.executeParserVars (g : CfgParser ν) (toks : List (Tok ν)) : ℕ → ParseCall ν
  | 0, _, _, _ => .error tooDeep
  | levels+1, res, idx, old =>
    if res.isTerminal then do
      let tok ← tokAt toks idx
      if tok.2.name = res.name then .ok (1, some (.leaf res tok)) else .ok (0, old)
    else productionLoop (g.executeParserVars toks levels) res idx g.productions ⟨idx, none, []⟩

end Model

section Trees

def PTree.symbol : PTree ν → CfgSymbol ν
  | .leaf sym _ => sym
  | .node sym _ => sym

mutual

def PTree.leaves : PTree ν → List (Tok ν)
  | .leaf _ tok => [tok]
  | .node _ ts => leavesAll ts

def leavesAll : List (PTree ν) → List (Tok ν)
  | [] => []
  | t::ts => t.leaves ++ leavesAll ts

end

/-- The tree is a derivation: below a non-terminal stand exactly the symbols of one of its productions,
in their order, and a terminal has a token of its name. -/
inductive CfgParser.Derivation (g : CfgParser ν) : PTree ν → Prop
  | leaf {sym : CfgSymbol ν} {tok : Tok ν} (terminal : sym.isTerminal = true)
      (named : tok.2.name = sym.name) : g.Derivation (.leaf sym tok)
  | node {sym : CfgSymbol ν} {prod : Production ν} {ts : List (PTree ν)}
      (nonterminal : sym.isTerminal = false) (mem : prod ∈ g.productions)
      (named : prod.left.name = sym.name) (right : ts.map PTree.symbol = prod.right)
      (sub : ∀ t ∈ ts, g.Derivation t) : g.Derivation (.node sym ts)

def between (toks : List (Tok ν)) (i j : ℤ) : List (Tok ν) :=
  (toks.drop i.toNat).take (j - i).toNat

lemma between_append {toks : List (Tok ν)} {i j k : ℤ} (hi : 0 ≤ i) (hij : i ≤ j) (hjk : j ≤ k) :
    between toks i j ++ between toks j k = between toks i k := by
  obtain ⟨a, rfl⟩ := Int.eq_ofNat_of_zero_le hi
  obtain ⟨b, rfl⟩ := Int.exists_add_of_le hij
  obtain ⟨c, rfl⟩ := Int.exists_add_of_le hjk
  have h₁ : ((a : ℤ) + b - a).toNat = b := by omega
  have h₂ : ((a : ℤ) + b).toNat = a + b := by omega
  have h₃ : ((a : ℤ) + b + c - (a + b)).toNat = c := by omega
  have h₄ : ((a : ℤ) + b + c - a).toNat = b + c := by omega
  rw [between, between, between, h₁, h₂, h₃, h₄, Int.toNat_natCast, List.take_add, List.drop_drop]

structure CfgParser.Matches (g : CfgParser ν) (toks : List (Tok ν)) (sym : CfgSymbol ν) (i j : ℤ)
    (t : PTree ν) : Prop where
  root : t.symbol = sym
  derivation : g.Derivation t
  start : 0 ≤ i
  consumed : i < j
  stop : j ≤ toks.length
  leaves : t.leaves = between toks i j

end Trees

section Derivations

variable {g : CfgParser ν} {toks : List (Tok ν)}

lemma wrapInt_def (i : ℤ) :
    wrapInt i = if i % 2^32 < 2^31 then i % 2^32 else i % 2^32 - 2^32 := by
  rw [wrapInt, Int.bmod_def]
  rfl

lemma wrapInt_of_range {i : ℤ} (h₁ : -2^31 ≤ i) (h₂ : i < 2^31) : wrapInt i = i := by
  rw [wrapInt_def]
  split_ifs <;> omega

lemma wrapInt_nonneg {i : ℤ} (h₁ : -2^31 ≤ i) (h₂ : i < 2^32) (h : 0 ≤ wrapInt i) :
    wrapInt i = i ∧ i < 2^31 := by
  rw [wrapInt_def] at h ⊢
  split_ifs at h ⊢ <;> omega

lemma wrapInt_sub (i j : ℤ) : wrapInt (wrapInt i - j) = wrapInt (i - j) := by
  rw [wrapInt, wrapInt, wrapInt, Int.bmod_sub_bmod]

lemma wrapInt_range (i : ℤ) : -2^31 ≤ wrapInt i ∧ wrapInt i < 2^31 := by
  rw [wrapInt_def]
  split_ifs <;> omega

lemma between_self (i : ℤ) : between toks i i = [] := by
  rw [between, Int.sub_self, Int.toNat_zero, List.take_zero]

lemma between_one {idx : ℤ} {tok : Tok ν} (h : toks[idx.toNat]? = some tok) :
    between toks idx (idx+1) = [tok] := by
  obtain ⟨hlt, rfl⟩ := List.getElem?_eq_some_iff.mp h
  rw [between, add_sub_cancel_left, List.drop_eq_getElem_cons hlt]
  rfl

lemma tokAt_eq_ok {idx : ℤ} {tok : Tok ν} :
    tokAt toks idx = .ok tok ↔ 0 ≤ idx ∧ toks[idx.toNat]? = some tok := by
  rw [tokAt]
  split_ifs with hneg
  · simp [hneg]
  · cases htok : toks[idx.toNat]? with
    | none => simp
    | some tok' => simp [not_lt.mp hneg]

structure CfgParser.Walked (g : CfgParser ν) (toks : List (Tok ν)) (right : List (CfgSymbol ν))
    (j k : ℤ) (ts : List (PTree ν)) : Prop where
  symbols : ts.map PTree.symbol = right
  derivations : ∀ t ∈ ts, g.Derivation t
  le : j ≤ k
  inside : j < k → 0 ≤ j ∧ k ≤ toks.length
  leaves : leavesAll ts = between toks j k

lemma CfgParser.Walked.nil (j : ℤ) : g.Walked toks [] j j [] where
  symbols := rfl
  derivations := by simp
  le := le_rfl
  inside h := absurd h (lt_irrefl j)
  leaves := by rw [leavesAll, between_self]

lemma CfgParser.Matches.cons {sym : CfgSymbol ν} {right : List (CfgSymbol ν)} {i j k : ℤ}
    {t : PTree ν} {ts : List (PTree ν)} (h : g.Matches toks sym i j t)
    (hs : g.Walked toks right j k ts) : g.Walked toks (sym::right) i k (t::ts) where
  symbols := by rw [List.map_cons, h.root, hs.symbols]
  derivations := by
    intro u hu
    rcases List.mem_cons.mp hu with rfl | hu
    · exact h.derivation
    · exact hs.derivations u hu
  le := le_trans h.consumed.le hs.le
  inside _ := by
    refine ⟨h.start, ?_⟩
    rcases hs.le.lt_or_eq with hlt | rfl
    · exact (hs.inside hlt).2
    · exact h.stop
  leaves := by
    rw [leavesAll, h.leaves, hs.leaves, between_append h.start h.consumed.le hs.le]

def CfgParser.Sound (g : CfgParser ν) (toks : List (Tok ν)) (exec : ParseCall ν) : Prop :=
  ∀ sym i old n t, -2^31 ≤ i → i < 2^31 → exec sym i old = .ok (n, t) → 0 < n →
    n < 2^31 ∧ ∃ tree, t = some tree ∧ g.Matches toks sym i (i+n) tree

/-- `j` is the index without wrapping: once the variable is negative no symbol matches any more, so the
index is wrapped by the last symbol only. -/
lemma walkLoop_walked {exec : ParseCall ν} (hexec : g.Sound toks exec)
    {right : List (CfgSymbol ν)} {v v' : ParseVars ν} {j : ℤ} (hj : -2^31 ≤ j) (hj' : j < 2^32)
    (hv : v.nidx = wrapInt j) (h : walkLoop exec right v = .ok (false, v')) :
    ∃ k ts, g.Walked toks right j k ts ∧ k < 2^32 ∧ v'.nidx = wrapInt k ∧
      v'.submatches = v.submatches ++ ts := by
  induction right generalizing v j with
  | nil =>
    cases h
    exact ⟨j, [], .nil j, hj', hv, (List.append_nil _).symm⟩
  | cons sym right ih =>
    rw [walkLoop] at h
    obtain ⟨⟨syms, submatch⟩, hsym, h⟩ := bind_eq_ok.mp h
    dsimp only at h
    split_ifs at h with hpos
    · obtain ⟨hlow, hhigh⟩ := wrapInt_range j
      rw [← hv] at hlow hhigh
      obtain ⟨hsmall, tree, rfl, hmatch⟩ := hexec sym _ _ syms submatch hlow hhigh hsym hpos
      obtain ⟨hexact, hj''⟩ := wrapInt_nonneg hj hj' (hv ▸ hmatch.start)
      rw [hv, hexact] at hmatch h
      have hstart := hmatch.start
      obtain ⟨k, ts, hwalk, hk, hnidx, hsubs⟩ :=
        ih (j := j + syms) (by omega) (by omega) rfl h
      refine ⟨k, tree::ts, hmatch.cons hwalk, hk, hnidx, ?_⟩
      rw [hsubs, Option.toList_some, List.append_assoc, List.singleton_append]
    · cases h

lemma walkLoop_failed {exec : ParseCall ν} {right : List (CfgSymbol ν)} {v v' : ParseVars ν}
    (h : walkLoop exec right v = .ok (true, v')) : v'.submatches = [] := by
  induction right generalizing v with
  | nil => cases h
  | cons sym right ih =>
    rw [walkLoop] at h
    obtain ⟨⟨syms, submatch⟩, -, h⟩ := bind_eq_ok.mp h
    dsimp only at h
    split_ifs at h with hpos
    · exact ih h
    · cases h
      rfl

variable [DecidableEq ν]

lemma productionLoop_sound {exec : ParseCall ν} (hexec : g.Sound toks exec) {res : CfgSymbol ν}
    (hres : res.isTerminal = false) {idx n : ℤ} (hidx : -2^31 ≤ idx) (hidx' : idx < 2^31)
    {prods : List (Production ν)} (hprods : prods ⊆ g.productions) {v : ParseVars ν}
    (hv : v.submatches = []) {t : Option (PTree ν)} (hn : 0 < n)
    (h : productionLoop exec res idx prods v = .ok (n, t)) :
    n < 2^31 ∧ ∃ tree, t = some tree ∧ g.Matches toks res idx (idx+n) tree := by
  induction prods generalizing v with
  | nil =>
    cases h
    exact absurd hn (lt_irrefl 0)
  | cons prod prods ih =>
    have hrest : prods ⊆ g.productions := fun p hp => hprods (List.mem_cons_of_mem _ hp)
    rw [productionLoop] at h
    split_ifs at h with hname
    · obtain ⟨⟨failed, v'⟩, hwalk, h⟩ := bind_eq_ok.mp h
      cases failed with
      | true => exact ih hrest (walkLoop_failed hwalk) h
      | false =>
        cases h
        obtain ⟨k, ts, hts, hk, hnidx, hsubs⟩ := walkLoop_walked hexec hidx (by omega)
          (wrapInt_of_range hidx hidx').symm hwalk
        dsimp only at hsubs
        rw [hv, List.nil_append] at hsubs
        rw [hnidx, wrapInt_sub] at hn ⊢
        have hle := hts.le
        have hlt : idx < k := by
          rcases hle.lt_or_eq with hlt | rfl
          · exact hlt
          · rw [sub_self] at hn
            exact absurd hn (by decide)
        obtain ⟨hstart, hstop⟩ := hts.inside hlt
        obtain ⟨hexact, hsmall⟩ := wrapInt_nonneg (by omega) (by omega) hn.le
        rw [hexact]
        refine ⟨hsmall, .node res v'.submatches, rfl, ?_⟩
        rw [add_sub_cancel, hsubs]
        exact {
          root := rfl
          derivation := .node hres (hprods List.mem_cons_self) hname.symm hts.symbols hts.derivations
          start := hstart
          consumed := hlt
          stop := hstop
          leaves := by rw [PTree.leaves, hts.leaves] }
    · exact ih hrest hv h

lemma executeParserVars_sound (levels : ℕ) : g.Sound toks (g.executeParserVars toks levels) := by
  induction levels with
  | zero =>
    intro sym i old n t _ _ h
    cases h
  | succ levels ih =>
    intro sym i old n t hlow hi h hn
    rw [CfgParser.executeParserVars] at h
    split_ifs at h with hterminal
    · obtain ⟨tok, htok, h⟩ := bind_eq_ok.mp h
      obtain ⟨hstart, hget⟩ := tokAt_eq_ok.mp htok
      split_ifs at h with hname
      · cases h
        refine ⟨by decide, .leaf sym tok, rfl, ?_⟩
        have hlt := (List.getElem?_eq_some_iff.mp hget).1
        exact {
          root := rfl
          derivation := .leaf hterminal hname
          start := hstart
          consumed := by omega
          stop := by omega
          leaves := by rw [PTree.leaves, between_one hget] }
      · cases h
        exact absurd hn (lt_irrefl 0)
    · have hnonterminal : sym.isTerminal = false := by simpa using hterminal
      exact productionLoop_sound ih hnonterminal hlow hi (fun _ hp => hp) rfl hn h

/-- A positive count comes with a derivation of the symbol, and the leaves of the tree are as many
tokens from the index on. -/
theorem executeParser_derivation (g : CfgParser ν) (toks : List (Tok ν)) (levels : ℕ)
    (res : CfgSymbol ν) (idx : Int32) (old : Option (PTree ν)) (n : ℤ) (tree : Option (PTree ν))
    (h : g.executeParserVars toks levels res idx.toInt old = .ok (n, tree)) (hn : 0 < n) :
    ∃ t, tree = some t ∧ t.symbol = res ∧ g.Derivation t ∧
      0 ≤ idx.toInt ∧ idx.toInt + n ≤ toks.length ∧
      t.leaves = (toks.drop idx.toInt.toNat).take n.toNat := by
  obtain ⟨-, t, rfl, hmatch⟩ := executeParserVars_sound levels res idx.toInt old n tree
    idx.le_toInt idx.toInt_lt h hn
  refine ⟨t, rfl, hmatch.root, hmatch.derivation, hmatch.start, hmatch.stop, ?_⟩
  rw [hmatch.leaves, between, add_sub_cancel_left]

/-- The second production of `s` is tried after the first has matched two tokens and failed. -/
theorem second_alternative_derivation :
    let a : CfgSymbol ℕ := ⟨0, true, none⟩
    let b : CfgSymbol ℕ := ⟨1, true, none⟩
    let s : CfgSymbol ℕ := ⟨2, false, none⟩
    let g : CfgParser ℕ := ⟨[a, b, s], s, b, [⟨s, [a, b, b]⟩, ⟨s, [a, b]⟩]⟩
    let toks : List (Tok ℕ) := [([], a), ([], b), ([], a)]
    ∃ t, some (PTree.node s [.leaf a ([], a), .leaf b ([], b)]) = some t ∧ t.symbol = s ∧
      g.Derivation t ∧ (0 : ℤ) ≤ (0 : Int32).toInt ∧ (0 : Int32).toInt + 2 ≤ toks.length ∧
      t.leaves = (toks.drop (0 : Int32).toInt.toNat).take (2 : ℤ).toNat :=
  executeParser_derivation _ _ 101 _ 0 none 2 _ rfl (by decide)

end Derivations

section Agreement

variable {g : CfgParser ν} {toks : List (Tok ν)}

def Agree (toks : List (Tok ν)) (idx : ℕ) (r : Parsed ν) (r' : Except CfgErr (ℤ × Option (PTree ν))) :
    Prop :=
  match r with
  | .error e => r' = .error e
  | .ok (n, t) => ∃ t', r' = .ok ((n : ℤ), t') ∧ (0 < n → t' = t ∧ idx + n ≤ toks.length)

def AgreeRight (toks : List (Tok ν)) (v : ParseVars ν) (r : Except CfgErr (Option (ℕ × List (PTree ν))))
    (r' : Except CfgErr (Bool × ParseVars ν)) : Prop :=
  match r with
  | .error e => r' = .error e
  | .ok none => ∃ v', r' = .ok (true, v') ∧ v'.submatches = []
  | .ok (some (k, ts)) => v.nidx ≤ k ∧ k ≤ toks.length ∧
      ∃ v', r' = .ok (false, v') ∧ v'.nidx = k ∧ v'.submatches = v.submatches ++ ts

variable {exec : CfgSymbol ν → ℕ → Parsed ν} {exec' : ParseCall ν}

lemma walkLoop_agree (hlen : toks.length < 2^31)
    (hexec : ∀ sym idx old, idx ≤ toks.length → Agree toks idx (exec sym idx) (exec' sym idx old))
    (right : List (CfgSymbol ν)) {idx : ℕ} (hidx : idx ≤ toks.length) {v : ParseVars ν}
    (hv : v.nidx = idx) : AgreeRight toks v (walkRight exec right idx) (walkLoop exec' right v) := by
  induction right generalizing idx v with
  | nil => exact ⟨hv.le, hidx, v, rfl, hv, (List.append_nil _).symm⟩
  | cons sym right ih =>
    have hcall := hexec sym idx v.submatch hidx
    rw [walkRight, walkLoop, hv]
    rcases hres : exec sym idx with e | ⟨n, t⟩
    · rw [hres] at hcall
      rw [error_bind, show exec' sym idx v.submatch = .error e from hcall]
      rfl
    · rw [hres] at hcall
      obtain ⟨t', hres', hpos⟩ := hcall
      rw [hres', ok_bind, ok_bind]
      dsimp only
      by_cases hn : 0 < n
      · obtain ⟨rfl, hstop⟩ := hpos hn
        rw [if_pos hn, if_pos (Int.natCast_pos.mpr hn), ← Nat.cast_add,
          wrapInt_of_range (by omega) (by omega)]
        have hrest := ih hstop (v := ⟨((idx + n : ℕ) : ℤ), t', v.submatches ++ t'.toList⟩) rfl
        rcases hwalk : walkRight exec right (idx + n) with e | _ | ⟨k, ts⟩
        · rw [hwalk] at hrest
          exact hrest
        · rw [hwalk] at hrest
          exact hrest
        · rw [hwalk] at hrest
          obtain ⟨hle, hk, v', hv', hnidx, hsubs⟩ := hrest
          dsimp only at hle
          exact ⟨by omega, hk, v', hv', hnidx, by rw [hsubs, List.append_assoc]⟩
      · rw [if_neg hn, if_neg (by omega)]
        exact ⟨_, rfl, rfl⟩

variable [DecidableEq ν]

lemma productionLoop_agree (hlen : toks.length < 2^31)
    (hexec : ∀ sym idx old, idx ≤ toks.length → Agree toks idx (exec sym idx) (exec' sym idx old))
    (res : CfgSymbol ν) {idx : ℕ} (hidx : idx ≤ toks.length) (prods : List (Production ν))
    {v : ParseVars ν} (hv : v.submatches = []) :
    Agree toks idx (tryProductions exec res idx prods) (productionLoop exec' res idx prods v) := by
  induction prods generalizing v with
  | nil => exact ⟨none, rfl, fun h => absurd h (lt_irrefl 0)⟩
  | cons prod prods ih =>
    rw [tryProductions, productionLoop]
    by_cases hname : prod.left.name = res.name
    · rw [if_pos hname, if_pos hname.symm]
      have hright := walkLoop_agree hlen hexec prod.right hidx (v := { v with nidx := idx }) rfl
      rcases hwalk : walkRight exec prod.right idx with e | _ | ⟨k, ts⟩
      · rw [hwalk] at hright
        rw [show walkLoop exec' prod.right { v with nidx := idx } = .error e from hright]
        rfl
      · rw [hwalk] at hright
        obtain ⟨v', hv', hsubs⟩ := hright
        rw [hv']
        exact ih hsubs
      · rw [hwalk] at hright
        obtain ⟨hle, hk, v', hv', hnidx, hsubs⟩ := hright
        have hle' : idx ≤ k := Int.ofNat_le.mp hle
        have hcount : wrapInt (v'.nidx - idx) = ((k - idx : ℕ) : ℤ) := by
          rw [hnidx, ← Nat.cast_sub hle', wrapInt_of_range (by omega) (by omega)]
        dsimp only at hsubs
        rw [hv, List.nil_append] at hsubs
        rw [hv']
        refine ⟨some (.node res v'.submatches), ?_, ?_⟩
        · rw [ok_bind, ← hcount]
          rfl
        · intro _
          exact ⟨by rw [hsubs], by omega⟩
    · rw [if_neg hname, if_neg (fun h => hname h.symm)]
      exact ih hv

/-- On a stream of fewer than `2^31` tokens nothing is wrapped and nothing is left behind. -/
theorem executeParserVars_agree (hlen : toks.length < 2^31) (levels : ℕ) (sym : CfgSymbol ν) (idx : ℕ)
    (old : Option (PTree ν)) (hidx : idx ≤ toks.length) :
    Agree toks idx (g.executeParser toks levels sym idx)
      (g.executeParserVars toks levels sym idx old) := by
  induction levels generalizing sym idx old with
  | zero => rfl
  | succ levels ih =>
    rw [CfgParser.executeParser, CfgParser.executeParserVars]
    by_cases hterminal : sym.isTerminal = true
    · rw [if_pos hterminal, if_pos hterminal, tokAt, if_neg (by omega), Int.toNat_natCast]
      cases htok : toks[idx]? with
      | none => rfl
      | some tok =>
        rw [ok_bind]
        dsimp only
        have hlt := (List.getElem?_eq_some_iff.mp htok).1
        split_ifs with hname
        · exact ⟨_, rfl, fun _ => ⟨rfl, hlt⟩⟩
        · exact ⟨old, rfl, fun h => absurd h (lt_irrefl 0)⟩
    · rw [if_neg hterminal, if_neg hterminal]
      exact productionLoop_agree hlen ih sym hidx g.productions rfl

theorem second_alternative_agree :
    let a : CfgSymbol ℕ := ⟨0, true, none⟩
    let b : CfgSymbol ℕ := ⟨1, true, none⟩
    let s : CfgSymbol ℕ := ⟨2, false, none⟩
    let g : CfgParser ℕ := ⟨[a, b, s], s, b, [⟨s, [a, b, b]⟩, ⟨s, [a, b]⟩]⟩
    let toks : List (Tok ℕ) := [([], a), ([], b), ([], a)]
    toks.length < 2^31 ∧ Agree toks 0 (g.executeParser toks 101 s 0)
      (g.executeParserVars toks 101 s (0 : ℕ) none) :=
  ⟨by decide, executeParserVars_agree (by decide) 101 _ 0 none (Nat.zero_le _)⟩

end Agreement

end Bfs.Utils
