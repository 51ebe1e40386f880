import Bfs.Utils.CfgStore

/-! The tokens of a text. The loop of `tokenizeData` carries the word it is in; what it makes of a text
is what its words make, one symbol for each of them. -/
namespace Bfs.Utils

open Fallible

section Words

/-- A text without its comments, each from `#` up to the end of its line; the flag tells that a comment
has begun. -/
def stripFrom : Bool → Text → Text
  | _, [] => []
  | true, ch::text => if ch = newline then ch::stripFrom false text else stripFrom true text
  | false, ch::text => if ch = hash then stripFrom true text else ch::stripFrom false text

def stripComments (text : Text) : Text := stripFrom false text

def runs (text : Text) : List Text := (text.splitOnP isSpace).filter (· ≠ [])

def words (text : Text) : List Text := runs (stripComments text)

variable {working : Text} (h : ∀ ch ∈ working, isSpace ch = false)
include h

lemma runs_of_not_space : runs working = if working = [] then [] else [working] := by
  rw [runs, List.splitOnP_eq_singleton h]
  split_ifs with hempty <;> simp [hempty]

lemma runs_append_cons {ch : UInt8} (hch : isSpace ch = true) (text : Text) :
    runs (working ++ ch::text) = if working = [] then runs text else working::runs text := by
  rw [runs, List.splitOnP_append_cons_of_forall_mem h ch hch]
  split_ifs with hempty
  · rw [List.filter_cons_of_neg (by simpa using hempty), runs]
  · rw [List.filter_cons_of_pos (by simpa using hempty), runs]

end Words

section Comments

lemma stripFrom_comment (text : Text) : stripFrom true text =
    match text.dropWhile (· ≠ newline) with
    | [] => []
    | ch::rest => ch::stripFrom false rest := by
  induction text with
  | nil => rfl
  | cons ch text ih =>
    rw [stripFrom]
    split_ifs with hline
    · rw [List.dropWhile_cons_of_neg (by simpa using hline)]
    · rw [List.dropWhile_cons_of_pos (by simpa using hline), ih]

lemma runs_append_comment {working : Text} (h : ∀ ch ∈ working, isSpace ch = false) (text : Text) :
    runs (working ++ stripFrom true text) = if working = []
      then words (text.dropWhile (· ≠ newline)).tail
      else working::words (text.dropWhile (· ≠ newline)).tail := by
  rw [stripFrom_comment]
  cases hdrop : text.dropWhile (· ≠ newline) with
  | nil =>
    rw [List.append_nil, runs_of_not_space h]
    rfl
  | cons ch rest =>
    have hline : ch = newline := by
      have hhead := List.head?_dropWhile_not (· ≠ newline) text
      rw [hdrop] at hhead
      simpa using hhead
    exact runs_append_cons h (by rw [hline]; rfl) _

end Comments

section Loop

variable {ν : Type} (table : List (CfgSymbol ν))

def restOf (ch : UInt8) (text : Text) : Text :=
  if ch = hash then (text.dropWhile (· ≠ newline)).tail else text

lemma length_restOf_le (ch : UInt8) (text : Text) : (restOf ch text).length ≤ text.length := by
  rw [restOf]
  split_ifs
  · rw [List.length_tail]
    have hle := (List.dropWhile_sublist (· ≠ newline) (l := text)).length_le
    omega
  · exact le_rfl

lemma tokenizeFrom_break {ch : UInt8} (hch : isSpace ch = true ∨ ch = hash) (fuel : ℕ)
    (text working : Text) : tokenizeFrom table (fuel + 1) (ch::text) working =
      if working = [] then tokenizeFrom table fuel (restOf ch text) []
      else (do
        let tok ← findSymbol table working
        let toked ← tokenizeFrom table fuel (restOf ch text) []
        .ok (tok::toked)) := by
  have hready : isSpace ch = true ∨ ch = hash ∨ restOf ch text = [] := hch.imp_right .inl
  rw [tokenizeFrom, ← restOf]
  simp only [if_pos hch, and_iff_right hready, ne_eq, ite_not]
  split_ifs with hempty
  · rw [hempty]
  · rfl

lemma tokenizeFrom_char {ch : UInt8} (hspace : isSpace ch = false) (hhash : ch ≠ hash) (fuel : ℕ)
    (text working : Text) : tokenizeFrom table (fuel + 1) (ch::text) working =
      if text = [] then do
        let tok ← findSymbol table (working ++ [ch])
        .ok [tok]
      else tokenizeFrom table fuel text (working ++ [ch]) := by
  rw [tokenizeFrom]
  simp only [hspace, hhash, Bool.false_eq_true, if_false, false_or]
  by_cases htext : text = []
  · have hnil : tokenizeFrom table fuel [] [] = .ok [] := by
      cases fuel <;> rfl
    simp [htext, hnil]
  · simp [htext]

variable {table}

lemma findSymbol_mapM (working : Text) (toks : List Text) :
    (do
      let tok ← findSymbol table working
      let toked ← toks.mapM (findSymbol table)
      .ok (tok::toked)) = (working::toks).mapM (findSymbol table) := by
  rw [List.mapM_cons]
  rfl

variable (table)

lemma tokenizeFrom_eq {fuel : ℕ} {text working : Text} (hfuel : text.length ≤ fuel)
    (h : ∀ ch ∈ working, isSpace ch = false) (hend : text = [] → working = []) :
    tokenizeFrom table fuel text working =
      (runs (working ++ stripComments text)).mapM (findSymbol table) := by
  induction fuel generalizing text working with
  | zero =>
    obtain rfl := List.eq_nil_of_length_eq_zero (Nat.le_zero.mp hfuel)
    rw [hend rfl]
    rfl
  | succ fuel ih =>
    cases text with
    | nil =>
      rw [hend rfl]
      rfl
    | cons ch text =>
      rw [List.length_cons] at hfuel
      by_cases hbreak : isSpace ch = true ∨ ch = hash
      · have hrest : tokenizeFrom table fuel (restOf ch text) [] =
            (words (restOf ch text)).mapM (findSymbol table) :=
          ih ((length_restOf_le ch text).trans (by omega)) (by simp) fun _ => rfl
        have hruns : runs (working ++ stripComments (ch::text)) = if working = []
            then words (restOf ch text) else working::words (restOf ch text) := by
          rw [stripComments, stripFrom, restOf]
          split_ifs with hhash hempty hempty
          · rw [runs_append_comment h, if_pos hempty]
          · rw [runs_append_comment h, if_neg hempty]
          · rw [runs_append_cons h (hbreak.resolve_right hhash), if_pos hempty, words, stripComments]
          · rw [runs_append_cons h (hbreak.resolve_right hhash), if_neg hempty, words, stripComments]
        rw [tokenizeFrom_break table hbreak, hruns, hrest]
        split_ifs
        · rfl
        · exact findSymbol_mapM working _
      · obtain ⟨hspace, hhash⟩ := not_or.mp hbreak
        rw [Bool.not_eq_true] at hspace
        have hword : ∀ c ∈ working ++ [ch], isSpace c = false := by
          intro c hc
          rcases List.mem_append.mp hc with hc | hc
          · exact h c hc
          · rw [List.mem_singleton.mp hc]
            exact hspace
        have hstrip : working ++ stripComments (ch::text) = (working ++ [ch]) ++ stripComments text := by
          rw [stripComments, stripFrom, if_neg hhash, List.append_cons]
          rfl
        rw [tokenizeFrom_char table hspace hhash, hstrip]
        split_ifs with htext
        · rw [htext, stripComments, stripFrom, List.append_nil, runs_of_not_space hword, if_neg (by simp)]
          exact findSymbol_mapM _ []
        · exact ih (by omega) hword fun hnil => absurd hnil htext

end Loop

section Exact

variable {ν : Type}

def Unmatched (table : List (CfgSymbol ν)) (word : Text) : Prop := ∀ sym ∈ table, sym.isSymbol word = false

def Tokenized (table : List (CfgSymbol ν)) (ws : List Text) (toked : List (Tok ν)) : Prop :=
  List.Forall₂ (fun word tok => tok.1 = word ∧ table.find? (·.isSymbol word) = some tok.2) ws toked

def TokensExact (g : CfgParser ν) (text : Text) : Prop :=
  ((¬ ∃ word ∈ words text, Unmatched g.symbolTable word) → ∃ toked,
    Tokenized g.symbolTable (words text) toked ∧
      g.tokenizeData text = .ok (toked ++ [(ascii "END", g.endSymbol)])) ∧
  ((∃ word ∈ words text, Unmatched g.symbolTable word) →
    ∃ msg, g.tokenizeData text = .error (.parserError msg))

variable {table : List (CfgSymbol ν)} {ws : List Text}

lemma findSymbol_eq_ok_iff {word : Text} {tok : Tok ν} : findSymbol table word = .ok tok ↔
    tok.1 = word ∧ table.find? (·.isSymbol word) = some tok.2 := by
  rw [findSymbol]
  cases hfind : table.find? (·.isSymbol word) with
  | none => simp
  | some sym =>
    simp only [Except.ok.injEq, Option.some.injEq, Prod.ext_iff]
    exact and_congr_left' eq_comm

lemma mapM_findSymbol {toked : List (Tok ν)} :
    ws.mapM (findSymbol table) = .ok toked ↔ Tokenized table ws toked := by
  rw [mapM_eq_ok_iff, Tokenized]
  simp only [findSymbol_eq_ok_iff]

lemma unmatched_iff {word : Text} : Unmatched table word ↔ ∀ tok, findSymbol table word ≠ .ok tok := by
  rw [findSymbol]
  cases hfind : table.find? (·.isSymbol word) with
  | none =>
    rw [List.find?_eq_none] at hfind
    simpa [Unmatched] using hfind
  | some sym =>
    have hsym := List.find?_some hfind
    have hmem := List.mem_of_find?_eq_some hfind
    constructor
    · intro hnone
      rw [hnone sym hmem] at hsym
      cases hsym
    · exact fun hno => absurd rfl (hno _)

lemma exists_tokenized_iff :
    (∃ toked, Tokenized table ws toked) ↔ ¬ ∃ word ∈ ws, Unmatched table word := by
  constructor
  · rintro ⟨toked, htoked⟩ ⟨word, hmem, hword⟩
    obtain ⟨e, he⟩ := exists_mapM_error hmem (unmatched_iff.mp hword)
    rw [mapM_findSymbol.mpr htoked] at he
    cases he
  · intro hall
    have hok : ∀ word ∈ ws, ∃ tok, findSymbol table word = .ok tok := by
      intro word hmem
      by_contra hno
      exact hall ⟨word, hmem, unmatched_iff.mpr (not_exists.mp hno)⟩
    obtain ⟨toked, htoked⟩ := exists_mapM_ok hok
    exact ⟨toked, mapM_findSymbol.mp htoked⟩

lemma Tokenized.words_eq {toked : List (Tok ν)} (h : Tokenized table ws toked) :
    ws = toked.map Prod.fst := by
  induction h with
  | nil => rfl
  | cons hword _ ih => rw [List.map_cons, hword.1, ih]

variable (g : CfgParser ν) (text : Text)

lemma tokenizeFrom_words : tokenizeFrom table text.length text [] =
    (words text).mapM (findSymbol table) :=
  tokenizeFrom_eq table le_rfl (by simp) fun _ => rfl

lemma tokenizeData_eq : g.tokenizeData text = ((words (seenText text)).mapM (findSymbol g.symbolTable) >>=
    fun toked => .ok (toked ++ [(ascii "END", g.endSymbol)])) := by
  rw [CfgParser.tokenizeData, tokenizeFrom_words]

variable {g text}

lemma tokenizeData_eq_ok {toked : List (Tok ν)} :
    g.tokenizeData text = .ok (toked ++ [(ascii "END", g.endSymbol)]) ↔
      Tokenized g.symbolTable (words (seenText text)) toked := by
  rw [tokenizeData_eq, bind_eq_ok]
  constructor
  · rintro ⟨toked', htoked, hend⟩
    rw [← List.append_cancel_right (Except.ok.inj hend)]
    exact mapM_findSymbol.mp htoked
  · intro htoked
    exact ⟨toked, mapM_findSymbol.mpr htoked, rfl⟩

lemma tokenizeData_eq_error : (∃ msg, g.tokenizeData text = .error (.parserError msg)) ↔
    ∃ word ∈ words (seenText text), Unmatched g.symbolTable word := by
  constructor
  · rintro ⟨msg, herror⟩
    by_contra hall
    obtain ⟨toked, htoked⟩ := exists_tokenized_iff.mpr hall
    rw [tokenizeData_eq_ok.mpr htoked] at herror
    cases herror
  · rintro ⟨word, hmem, hword⟩
    obtain ⟨e, he⟩ := exists_mapM_error hmem (unmatched_iff.mp hword)
    obtain ⟨msg, rfl⟩ := tokenizeFrom_fails _ _ _ _ e ((tokenizeFrom_words _).trans he)
    exact ⟨msg, by rw [tokenizeData_eq, he, error_bind]⟩

lemma tokensExact_of_words (h : words (seenText text) = words text) : TokensExact g text := by
  rw [TokensExact, tokenizeData_eq_error]
  simp only [tokenizeData_eq_ok, h]
  refine ⟨fun hall => ?_, id⟩
  obtain ⟨toked, htoked⟩ := exists_tokenized_iff.mpr hall
  exact ⟨toked, htoked, htoked⟩

lemma seenText_of_lt (h : text.length < 2^31) : seenText text = text := by
  rw [seenText, intLength, Nat.mod_eq_of_lt (by omega), if_pos h, List.take_length]

theorem tokensExact_of_lt (h : text.length < 2^31) : TokensExact g text :=
  tokensExact_of_words (by rw [seenText_of_lt h])

/-- A text is read up to `(int)rawdata.length()`. The tokens are right iff its words stand there, or an
error is due and one is found there. -/
theorem tokenize_exact_iff (g : CfgParser ν) (text : Text) : TokensExact g text ↔
    words (seenText text) = words text ∨
      (∃ word ∈ words text, Unmatched g.symbolTable word) ∧
        ∃ word ∈ words (seenText text), Unmatched g.symbolTable word := by
  constructor
  · rintro ⟨hok, herror⟩
    simp only [tokenizeData_eq_error, tokenizeData_eq_ok] at hok herror
    by_cases hword : ∃ word ∈ words text, Unmatched g.symbolTable word
    · exact .inr ⟨hword, herror hword⟩
    · obtain ⟨toked, htoked, hseen⟩ := hok hword
      exact .inl (hseen.words_eq.trans htoked.words_eq.symm)
  · rintro (hsame | ⟨hword, hseen⟩)
    · exact tokensExact_of_words hsame
    · exact ⟨fun hall => absurd hword hall, fun _ => tokenizeData_eq_error.mpr hseen⟩

end Exact

section Limit

def letters (n : ℕ) : Text := List.replicate n 97

lemma stripFrom_letters (n : ℕ) : stripFrom false (letters n) = letters n := by
  induction n with
  | zero => rfl
  | succ n ih =>
    rw [letters, List.replicate_succ, stripFrom, if_neg (by decide)]
    exact congrArg _ ih

lemma words_letters {n : ℕ} (hn : n ≠ 0) : words (letters n) = [letters n] := by
  have hspace : ∀ ch ∈ letters n, isSpace ch = false := by
    intro ch hch
    rw [List.eq_of_mem_replicate hch]
    rfl
  rw [words, stripComments, stripFrom_letters, runs_of_not_space hspace, if_neg]
  simpa [letters] using hn

lemma letters_lost {n : ℕ} (hn : n ≠ 0) (hlen : intLength n = 0) :
    cfgParser.tokenizeData (letters n) = .ok [(ascii "END", endSym)] ∧
      words (letters n) = [letters n] ∧ wordSym.isSymbol (letters n) = true ∧
      ¬ TokensExact cfgParser (letters n) := by
  have hseen : words (seenText (letters n)) = [] := by
    rw [seenText, letters, List.length_replicate, hlen, List.take_zero]
    rfl
  have hword : wordSym.isSymbol (letters n) = true := by
    apply (RegExp.isMatch_orlistPlus wordLits false _).mpr
    refine ⟨by simpa [letters] using hn, ?_⟩
    intro ch hch
    rw [List.eq_of_mem_replicate hch]
    decide +kernel
  refine ⟨?_, words_letters hn, hword, ?_⟩
  · have htoked : Tokenized cfgParser.symbolTable (words (seenText (letters n))) [] := by
      rw [hseen]
      exact .nil
    exact tokenizeData_eq_ok.mpr htoked
  · intro hexact
    have hmatched : ¬ ∃ word ∈ words (letters n), Unmatched cfgParser.symbolTable word := by
      rw [words_letters hn]
      rintro ⟨word, hmem, hnone⟩
      rw [List.mem_singleton.mp hmem] at hnone
      have hfalse := hnone wordSym (by simp [cfgParser])
      rw [hword] at hfalse
      cases hfalse
    obtain ⟨toked, htoked, hdata⟩ := hexact.1 hmatched
    have hsame := htoked.words_eq.trans (tokenizeData_eq_ok.mp hdata).words_eq.symm
    rw [words_letters hn, hseen] at hsame
    cases hsame

/-- The length of a text of 2 GiB is negative as an `int`. -/
theorem long_text_lost : cfgParser.tokenizeData (letters (2^31)) = .ok [(ascii "END", endSym)] ∧
    words (letters (2^31)) = [letters (2^31)] ∧ wordSym.isSymbol (letters (2^31)) = true ∧
    ¬ TokensExact cfgParser (letters (2^31)) :=
  letters_lost (by norm_num) (by norm_num [intLength])

end Limit

end Bfs.Utils
