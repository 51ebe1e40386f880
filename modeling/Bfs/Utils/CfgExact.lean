import Bfs.Utils.CfgLoad
import Bfs.Utils.CfgTokens

/-! Texts whose configuration is loaded exactly. What the parser finds in the tokens of a text are the
tokens of a configuration, so a text is loaded as it is meant up to the depth limit; a text that is no
configuration ends in an error of the parser only where the tokenizer or the depth limit stops it. -/
namespace Bfs.Utils

open Fallible

section Tokens

/-- A token as `tokenizeData` makes them. -/
def Known (tok : Tok CfgName) : Prop :=
  tok.2 ∈ cfgParser.symbolTable ∧ tok.2.isSymbol tok.1 = true ∨ tok = endTok

variable {tok : Tok CfgName}

lemma symbolTable_unique {sym sym' : CfgSymbol CfgName} (h : sym ∈ cfgParser.symbolTable)
    (h' : sym' ∈ cfgParser.symbolTable) (hname : sym.name = sym'.name) : sym = sym' := by
  have hnodup : (cfgParser.symbolTable.map CfgSymbol.name).Nodup := by decide
  exact List.inj_on_of_nodup_map hnodup h h' hname

lemma Known.symbol (h : Known tok) {sym : CfgSymbol CfgName} (hmem : sym ∈ cfgParser.symbolTable)
    (hname : tok.2.name = sym.name) (hend : sym.name ≠ .endOfText) :
    tok.2 = sym ∧ sym.isSymbol tok.1 = true := by
  rcases h with ⟨htable, hmatch⟩ | rfl
  · have hsym := symbolTable_unique htable hmem hname
    exact ⟨hsym, hsym ▸ hmatch⟩
  · exact absurd hname.symm hend

lemma Known.punctuation (h : Known tok) {name : CfgName} {ch : UInt8}
    (hmem : terminal name (RegExp.oneLiteral (.normal ch)) ∈ cfgParser.symbolTable)
    (hname : tok.2.name = name) (hend : name ≠ .endOfText) :
    tok = ([ch], terminal name (RegExp.oneLiteral (.normal ch))) := by
  obtain ⟨hsym, hmatch⟩ := h.symbol hmem hname hend
  obtain ⟨c, htext, hlit⟩ := (RegExp.isMatch_oneLiteral _ _).mp hmatch
  have hch : ch = c := by simpa [RegExp.matchLiteral] using hlit
  exact Prod.ext (by rw [htext, hch]) hsym

lemma Known.word (h : Known tok) (hname : tok.2.name = wordSym.name) : tok = wordTok tok.1 :=
  Prod.ext rfl (h.symbol (by simp [cfgParser]) hname (by decide)).1

lemma Known.endTok (h : Known tok) (hname : tok.2.name = endSym.name) : tok = Utils.endTok := by
  rcases h with ⟨htable, hmatch⟩ | h
  · have hsym : tok.2 = endSym := symbolTable_unique htable (by simp [cfgParser]) hname
    rw [hsym] at hmatch
    exact absurd hmatch Bool.false_ne_true
  · exact h

end Tokens

section Derivations

variable {n : ℕ} {toks : List (Tok CfgName)}

def Yields (n : ℕ) (right : List (CfgSymbol CfgName)) (toks : List (Tok CfgName)) : Prop :=
  ∃ parts, toks = parts.flatten ∧ List.Forall₂ (cfgParser.DerivesIn n) right parts

lemma yields_nil (h : Yields n [] toks) : toks = [] := by
  obtain ⟨parts, rfl, hall⟩ := h
  rw [List.forall₂_nil_left_iff.mp hall, List.flatten_nil]

lemma yields_cons {sym : CfgSymbol CfgName} {right : List (CfgSymbol CfgName)}
    (h : Yields n (sym::right) toks) :
    ∃ p q, toks = p ++ q ∧ cfgParser.DerivesIn n sym p ∧ Yields n right q := by
  obtain ⟨parts, rfl, hall⟩ := h
  obtain ⟨p, ps, hp, hps, rfl⟩ := List.forall₂_cons_left_iff.mp hall
  exact ⟨p, ps.flatten, List.flatten_cons, hp, ps, rfl, hps⟩

lemma derivesIn_rights {sym : CfgSymbol CfgName} (hsym : sym.isTerminal = false)
    (h : cfgParser.DerivesIn (n + 1) sym toks) : ∃ right ∈ cfgParser.rights sym, Yields n right toks := by
  rw [CfgParser.DerivesIn, hsym, if_neg Bool.false_ne_true] at h
  obtain ⟨prod, hmem, hname, hyields⟩ := h
  refine ⟨prod.right, ?_, hyields⟩
  exact List.mem_map_of_mem (List.mem_filter.mpr ⟨hmem, decide_eq_true hname⟩)

lemma derivesIn_terminal {sym : CfgSymbol CfgName} (hsym : sym.isTerminal = true)
    (h : cfgParser.DerivesIn n sym toks) : ∃ tok, toks = [tok] ∧ tok.2.name = sym.name := by
  cases n with
  | zero => exact h.elim
  | succ n =>
    rw [CfgParser.DerivesIn, if_pos hsym] at h
    exact h

section Parts

variable (hknown : ∀ tok ∈ toks, Known tok)
include hknown

lemma yields_word {right : List (CfgSymbol CfgName)} (h : Yields n (wordSym::right) toks) :
    ∃ w q, toks = wordTok w::q ∧ (∀ tok ∈ q, Known tok) ∧ Yields n right q := by
  obtain ⟨p, q, rfl, hp, hq⟩ := yields_cons h
  obtain ⟨tok, rfl, hname⟩ := derivesIn_terminal rfl hp
  obtain ⟨htok, hrest⟩ := List.forall_mem_cons.mp hknown
  exact ⟨tok.1, q, by rw [List.singleton_append, ← htok.word hname], hrest, hq⟩

lemma yields_punctuation {name : CfgName} {ch : UInt8} {right : List (CfgSymbol CfgName)}
    (hend : name ≠ .endOfText)
    (hmem : terminal name (RegExp.oneLiteral (.normal ch)) ∈ cfgParser.symbolTable)
    (h : Yields n (terminal name (RegExp.oneLiteral (.normal ch))::right) toks) :
    ∃ q, toks = ([ch], terminal name (RegExp.oneLiteral (.normal ch)))::q ∧ (∀ tok ∈ q, Known tok) ∧
      Yields n right q := by
  obtain ⟨p, q, rfl, hp, hq⟩ := yields_cons h
  obtain ⟨tok, rfl, hname⟩ := derivesIn_terminal rfl hp
  obtain ⟨htok, hrest⟩ := List.forall_mem_cons.mp hknown
  exact ⟨q, by rw [List.singleton_append, htok.punctuation hmem hname hend], hrest, hq⟩

lemma yields_symbol {sym : CfgSymbol CfgName} {right : List (CfgSymbol CfgName)}
    (h : Yields n (sym::right) toks) : ∃ p q, toks = p ++ q ∧ (∀ tok ∈ p, Known tok) ∧
      cfgParser.DerivesIn n sym p ∧ (∀ tok ∈ q, Known tok) ∧ Yields n right q := by
  obtain ⟨p, q, rfl, hp, hq⟩ := yields_cons h
  obtain ⟨hkp, hkq⟩ := List.forall_mem_append.mp hknown
  exact ⟨p, q, rfl, hkp, hp, hkq, hq⟩

end Parts

structure Grammar (n : ℕ) : Prop where
  wordlist : ∀ toks, (∀ tok ∈ toks, Known tok) → cfgParser.DerivesIn n wordlistSym toks →
    ∃ w ws, toks = (w::ws).map wordTok
  config : ∀ toks, (∀ tok ∈ toks, Known tok) → cfgParser.DerivesIn n configSym toks →
    ∃ c : Cfg, toks = c.tokens
  configs : ∀ toks, (∀ tok ∈ toks, Known tok) → cfgParser.DerivesIn n configsSym toks →
    ∃ c cs, toks = tokensOf (c::cs)
  cfglist : ∀ toks name, (∀ tok ∈ toks, Known tok) → cfgParser.DerivesIn n cfglistSym toks →
    ∃ c : Cfg, wordTok name::toks = c.tokens
  cfgstruct : ∀ toks name, (∀ tok ∈ toks, Known tok) → cfgParser.DerivesIn n cfgstructSym toks →
    ∃ c : Cfg, wordTok name::toks = c.tokens

section Step

variable (hn : Grammar n) (hknown : ∀ tok ∈ toks, Known tok)
include hn hknown

lemma grammar_wordlist (h : cfgParser.DerivesIn (n + 1) wordlistSym toks) :
    ∃ w ws, toks = (w::ws).map wordTok := by
  obtain ⟨right, hright, hyields⟩ := derivesIn_rights rfl h
  have hrights : right ∈ [[wordSym, wordlistSym], [wordSym]] := hright
  rcases List.mem_pair.mp hrights with rfl | rfl
  · obtain ⟨w, q, rfl, hq, hrest⟩ := yields_word hknown hyields
    obtain ⟨p, q, rfl, hp, hlist, -, hnil⟩ := yields_symbol hq hrest
    obtain ⟨w', ws, rfl⟩ := hn.wordlist p hp hlist
    exact ⟨w, w'::ws, by rw [yields_nil hnil, List.append_nil]; rfl⟩
  · obtain ⟨w, q, rfl, -, hnil⟩ := yields_word hknown hyields
    exact ⟨w, [], by rw [yields_nil hnil, List.map_singleton]⟩

lemma grammar_configs (h : cfgParser.DerivesIn (n + 1) configsSym toks) :
    ∃ c cs, toks = tokensOf (c::cs) := by
  obtain ⟨right, hright, hyields⟩ := derivesIn_rights rfl h
  have hrights : right ∈ [[configSym, configsSym], [configSym]] := hright
  rcases List.mem_pair.mp hrights with rfl | rfl
  · obtain ⟨p, q, rfl, hp, hconfig, hq, hrest⟩ := yields_symbol hknown hyields
    obtain ⟨p', q, rfl, hp', hconfigs, -, hnil⟩ := yields_symbol hq hrest
    obtain ⟨c, rfl⟩ := hn.config p hp hconfig
    obtain ⟨c', cs, rfl⟩ := hn.configs p' hp' hconfigs
    exact ⟨c, c'::cs, by rw [yields_nil hnil, List.append_nil, tokensOf.eq_2 c]⟩
  · obtain ⟨p, q, rfl, hp, hconfig, -, hnil⟩ := yields_symbol hknown hyields
    obtain ⟨c, rfl⟩ := hn.config p hp hconfig
    exact ⟨c, [], by rw [yields_nil hnil, tokensOf, tokensOf]⟩

lemma grammar_cfglist (name : Text) (h : cfgParser.DerivesIn (n + 1) cfglistSym toks) :
    ∃ c : Cfg, wordTok name::toks = c.tokens := by
  obtain ⟨right, hright, hyields⟩ := derivesIn_rights rfl h
  have hrights : right ∈ [[openListSym, wordlistSym, closeListSym],
    [openListSym, configsSym, closeListSym]] := hright
  rcases List.mem_pair.mp hrights with rfl | rfl
  · obtain ⟨q, rfl, hq, hrest⟩ := yields_punctuation hknown (by decide) (by decide) hyields
    obtain ⟨p, q, rfl, hp, hlist, hq, hrest⟩ := yields_symbol hq hrest
    obtain ⟨q, rfl, -, hnil⟩ := yields_punctuation hq (by decide) (by decide) hrest
    obtain ⟨w, ws, rfl⟩ := hn.wordlist p hp hlist
    exact ⟨.words name w ws, by rw [yields_nil hnil, Cfg.tokens]; rfl⟩
  · obtain ⟨q, rfl, hq, hrest⟩ := yields_punctuation hknown (by decide) (by decide) hyields
    obtain ⟨p, q, rfl, hp, hlist, hq, hrest⟩ := yields_symbol hq hrest
    obtain ⟨q, rfl, -, hnil⟩ := yields_punctuation hq (by decide) (by decide) hrest
    obtain ⟨c, cs, rfl⟩ := hn.configs p hp hlist
    exact ⟨.list name c cs, by rw [yields_nil hnil, Cfg.tokens, tokensOf, List.append_assoc]; rfl⟩

lemma grammar_cfgstruct (name : Text) (h : cfgParser.DerivesIn (n + 1) cfgstructSym toks) :
    ∃ c : Cfg, wordTok name::toks = c.tokens := by
  obtain ⟨right, hright, hyields⟩ := derivesIn_rights rfl h
  have hrights : right ∈ [[openStructSym, configsSym, closeStructSym]] := hright
  obtain rfl := List.mem_singleton.mp hrights
  obtain ⟨q, rfl, hq, hrest⟩ := yields_punctuation hknown (by decide) (by decide) hyields
  obtain ⟨p, q, rfl, hp, hlist, hq, hrest⟩ := yields_symbol hq hrest
  obtain ⟨q, rfl, -, hnil⟩ := yields_punctuation hq (by decide) (by decide) hrest
  obtain ⟨c, cs, rfl⟩ := hn.configs p hp hlist
  exact ⟨.struct name c cs, by rw [yields_nil hnil, Cfg.tokens, tokensOf, List.append_assoc]; rfl⟩

lemma grammar_config (h : cfgParser.DerivesIn (n + 1) configSym toks) : ∃ c : Cfg, toks = c.tokens := by
  obtain ⟨right, hright, hyields⟩ := derivesIn_rights rfl h
  have hrights : right ∈ [[wordSym, cfglistSym], [wordSym, cfgstructSym], [wordSym, colonSym, wordSym]] :=
    hright
  rcases List.mem_cons.mp hrights with rfl | hrights
  · obtain ⟨name, q, rfl, hq, hrest⟩ := yields_word hknown hyields
    obtain ⟨p, q, rfl, hp, hlist, -, hnil⟩ := yields_symbol hq hrest
    rw [yields_nil hnil, List.append_nil]
    exact hn.cfglist p name hp hlist
  rcases List.mem_pair.mp hrights with rfl | rfl
  · obtain ⟨name, q, rfl, hq, hrest⟩ := yields_word hknown hyields
    obtain ⟨p, q, rfl, hp, hstruct, -, hnil⟩ := yields_symbol hq hrest
    rw [yields_nil hnil, List.append_nil]
    exact hn.cfgstruct p name hp hstruct
  · obtain ⟨name, q, rfl, hq, hrest⟩ := yields_word hknown hyields
    obtain ⟨q, rfl, hq, hrest⟩ := yields_punctuation hq (by decide) (by decide) hrest
    obtain ⟨value, q, rfl, -, hnil⟩ := yields_word hq hrest
    exact ⟨.value name value, by rw [yields_nil hnil, Cfg.tokens]; rfl⟩

end Step

lemma grammar (n : ℕ) : Grammar n := by
  induction n with
  | zero =>
    exact ⟨fun _ _ h => h.elim, fun _ _ h => h.elim, fun _ _ h => h.elim, fun _ _ _ h => h.elim,
      fun _ _ _ h => h.elim⟩
  | succ n ih =>
    exact ⟨fun _ => grammar_wordlist ih, fun _ => grammar_config ih, fun _ => grammar_configs ih,
      fun _ name hknown => grammar_cfglist ih hknown name,
      fun _ name hknown => grammar_cfgstruct ih hknown name⟩

end Derivations

section Exact

def Spells (text : Text) (doc : Document) : Prop :=
  Tokenized cfgParser.symbolTable (words text) (tokensOf (doc.first::doc.rest))

variable {text : Text}

lemma Tokenized.unique {ws : List Text} {toked toked' : List (Tok CfgName)}
    (h : Tokenized cfgParser.symbolTable ws toked) (h' : Tokenized cfgParser.symbolTable ws toked') :
    toked = toked' :=
  Except.ok.inj ((mapM_findSymbol.mpr h).symm.trans (mapM_findSymbol.mpr h'))

lemma Spells.load {doc : Document} (h : Spells (seenText text) doc) :
    loadConfiguration text = within doc.height (maxRecursionDepth + 1) doc.item := by
  have htokens : cfgParser.tokenizeData text = .ok doc.tokens := tokenizeData_eq_ok.mpr h
  have hparse := doc.resolves (maxRecursionDepth + 1)
  rw [loadConfiguration, CfgParser.parseData, htokens, ok_bind, show cfgParser.startSymbol = startSym from rfl,
    hparse, within, within]
  split_ifs
  · simp only [ok_bind, doc.createConfiguration_tree]
    rfl
  · rfl

lemma known_of_tokenized {ws : List Text} {toked : List (Tok CfgName)}
    (h : Tokenized cfgParser.symbolTable ws toked) :
    ∀ tok ∈ toked, tok.2 ∈ cfgParser.symbolTable ∧ tok.2.isSymbol tok.1 = true := by
  induction h with
  | nil => simp
  | cons hword _ ih => exact List.forall_mem_cons.mpr ⟨findSymbol_eq_ok (findSymbol_eq_ok_iff.mpr hword), ih⟩

lemma spells_of_executeParser {toked : List (Tok CfgName)}
    (htoked : Tokenized cfgParser.symbolTable (words (seenText text)) toked) {levels n : ℕ}
    {t : PTree CfgName} (h : cfgParser.executeParser (toked ++ [endTok]) levels startSym 0 = .ok (n, some t)) :
    ∃ doc, Spells (seenText text) doc := by
  have hmatched := known_of_tokenized htoked
  have hpos := executeParser_pos (by decide) h
  have hderives := derivesIn_of_executeParser h hpos
  rw [List.drop_zero] at hderives
  have hknown : ∀ tok ∈ (toked ++ [endTok]).take n, Known tok := by
    intro tok htok
    rcases List.mem_append.mp (List.mem_of_mem_take htok) with htok | htok
    · exact .inl (hmatched tok htok)
    · exact .inr (List.mem_singleton.mp htok)
  cases levels with
  | zero => exact hderives.elim
  | succ levels =>
    obtain ⟨right, hright, hyields⟩ := derivesIn_rights rfl hderives
    have hrights : right ∈ [[configsSym, endSym]] := hright
    obtain rfl := List.mem_singleton.mp hrights
    obtain ⟨p, q, htake, hp, hconfigs, hq, hrest⟩ := yields_symbol hknown hyields
    obtain ⟨e, q', rfl, he, hnil⟩ := yields_cons hrest
    obtain ⟨tok, rfl, hname⟩ := derivesIn_terminal rfl he
    obtain ⟨c, cs, rfl⟩ := (grammar levels).configs p hp hconfigs
    have htok : tok = endTok := (hq tok (by simp)).endTok hname
    rw [yields_nil hnil, List.append_nil, htok] at htake
    -- no token of a word is an end, so that the tree ends with the tokens
    have hall : toked.length < n := by
      by_contra hle
      rw [List.take_append_of_le_length (Nat.not_lt.mp hle)] at htake
      have hmem : endTok ∈ toked.take n := by
        rw [htake]
        simp
      exact absurd (hmatched endTok (List.mem_of_mem_take hmem)).2 Bool.false_ne_true
    rw [List.take_of_length_le (by simpa using hall)] at htake
    rw [List.append_cancel_right htake] at htoked
    exact ⟨⟨c, cs⟩, htoked⟩

lemma load_eq_of_tokenized {toked : List (Tok CfgName)}
    (htoked : Tokenized cfgParser.symbolTable (words (seenText text)) toked) :
    (∃ doc, Spells (seenText text) doc) ∨ loadConfiguration text = .error .nullPointer ∨
      ∃ e, cfgParser.executeParser (toked ++ [endTok]) (maxRecursionDepth + 1) startSym 0 = .error e ∧
        loadConfiguration text = .error e := by
  have htokens : cfgParser.tokenizeData text = .ok (toked ++ [endTok]) := tokenizeData_eq_ok.mpr htoked
  rw [loadConfiguration, CfgParser.parseData, htokens, ok_bind, show cfgParser.startSymbol = startSym from rfl]
  cases hparse : cfgParser.executeParser (toked ++ [endTok]) (maxRecursionDepth + 1) startSym 0 with
  | error e => exact .inr (.inr ⟨e, rfl, rfl⟩)
  | ok r =>
    obtain ⟨n, t⟩ := r
    cases t with
    | none => exact .inr (.inl rfl)
    | some t => exact .inl (spells_of_executeParser htoked hparse)

lemma load_of_unmatched (h : ∃ word ∈ words (seenText text), Unmatched cfgParser.symbolTable word) :
    ∃ msg, loadConfiguration text = .error (.parserError msg) := by
  obtain ⟨msg, herror⟩ := tokenizeData_eq_error.mpr h
  exact ⟨msg, by rw [loadConfiguration, CfgParser.parseData, herror]; rfl⟩

lemma load_of_tooDeep {toked : List (Tok CfgName)}
    (htoked : Tokenized cfgParser.symbolTable (words (seenText text)) toked)
    (h : cfgParser.executeParser (toked ++ [endTok]) (maxRecursionDepth + 1) startSym 0 = .error tooDeep) :
    loadConfiguration text = .error tooDeep := by
  have htokens : cfgParser.tokenizeData text = .ok (toked ++ [endTok]) := tokenizeData_eq_ok.mpr htoked
  rw [loadConfiguration, CfgParser.parseData, htokens, ok_bind,
    show cfgParser.startSymbol = startSym from rfl, h]
  rfl

lemma refused_iff : (∃ msg, loadConfiguration text = .error (.parserError msg)) ↔
    (∃ word ∈ words (seenText text), Unmatched cfgParser.symbolTable word) ∨
      ∃ toked, Tokenized cfgParser.symbolTable (words (seenText text)) toked ∧
        cfgParser.executeParser (toked ++ [endTok]) (maxRecursionDepth + 1) startSym 0 = .error tooDeep := by
  constructor
  · rintro ⟨msg, hmsg⟩
    by_cases hword : ∃ word ∈ words (seenText text), Unmatched cfgParser.symbolTable word
    · exact .inl hword
    · obtain ⟨toked, htoked⟩ := exists_tokenized_iff.mpr hword
      refine .inr ⟨toked, htoked, ?_⟩
      rcases load_eq_of_tokenized htoked with ⟨doc, hdoc⟩ | hnull | ⟨e, he, hload⟩
      · have hparse := doc.resolves (maxRecursionDepth + 1)
        rw [hdoc.load, within] at hmsg
        rw [show doc.tokens = toked ++ [endTok] from congrArg (· ++ [endTok]) (hdoc.unique htoked), within]
          at hparse
        split_ifs at hmsg hparse
        exact hparse
      · rw [hnull] at hmsg
        cases hmsg
      · rw [hload] at hmsg
        rcases executeParser_fails _ _ _ _ _ e he with rfl | rfl
        · exact he
        · cases hmsg
  · rintro (hword | ⟨toked, htoked, hdeep⟩)
    · exact load_of_unmatched hword
    · exact ⟨_, load_of_tooDeep htoked hdeep⟩

/-- A query of the configuration in a text returns what the text says under that path, or what the glued
reading of the path says. -/
theorem loaded_query_iff {doc : Document} (hspells : Spells (seenText text) doc)
    (hheight : doc.height ≤ maxRecursionDepth + 1) (hnamed : doc.item.WellNamed) :
    ∃ it, loadConfiguration text = .ok it ∧ ∀ seg path y, it.queryConfig (queryText seg path) = .ok y ↔
      doc.item.Denotes intLength (seg::path) y ∨ doc.item.Glued intLength (seg::path) y := by
  refine ⟨doc.item, ?_, fun seg path y => queryConfig_reads hnamed seg path⟩
  rw [hspells.load, within_of_le hheight]

theorem loaded_query_value : ∃ it, loadConfiguration (ascii "a : b") = .ok it ∧
    it.queryConfig (ascii "a") = .ok (.mk .value (ascii "a") (ascii "b") []) := by
  have hspells : Spells (seenText (ascii "a : b")) ⟨.value (ascii "a") (ascii "b"), []⟩ :=
    mapM_findSymbol.mp rfl
  obtain ⟨it, hload, hquery⟩ := loaded_query_iff hspells (by decide) (.single nameA rfl .childless)
  exact ⟨it, hload, (hquery (.name nameA) [] _).mpr
    (.inl (.name (List.mem_cons_self ..) rfl (.here _)))⟩

end Exact

end Bfs.Utils
