import Bfs.Utils.CfgStore

/-! Which texts are loaded as they are meant. A configuration is a tree of items; its tokens, its items
and the depth to which the parser goes for it are read off the tree. -/
namespace Bfs.Utils

open Fallible

section Configurations

inductive Cfg
  | value (name value : Text)
  | words (name first : Text) (rest : List Text)
  | list (name : Text) (first : Cfg) (rest : List Cfg)
  | struct (name : Text) (first : Cfg) (rest : List Cfg)

def wordTok (w : Text) : Tok CfgName := (w, wordSym)
def colonTok : Tok CfgName := (ascii ":", colonSym)
def openListTok : Tok CfgName := (ascii "[", openListSym)
def closeListTok : Tok CfgName := (ascii "]", closeListSym)
def openStructTok : Tok CfgName := (ascii "\x7b", openStructSym)
def closeStructTok : Tok CfgName := (ascii "\x7d", closeStructSym)
def endTok : Tok CfgName := (ascii "END", endSym)

mutual

def Cfg.tokens : Cfg → List (Tok CfgName)
  | .value name value => [wordTok name, colonTok, wordTok value]
  | .words name first rest =>
    wordTok name::openListTok::((first::rest).map wordTok ++ [closeListTok])
  | .list name first rest =>
    wordTok name::openListTok::(first.tokens ++ (tokensOf rest ++ [closeListTok]))
  | .struct name first rest =>
    wordTok name::openStructTok::(first.tokens ++ (tokensOf rest ++ [closeStructTok]))

def tokensOf : List Cfg → List (Tok CfgName)
  | [] => []
  | c::cs => c.tokens ++ tokensOf cs

end

mutual

def Cfg.item : Cfg → CfgItem
  | .value name value => .mk .value name value []
  | .words name first rest => .mk .list name [] (wordItems name (first::rest))
  | .list name first rest => .mk .list name [] (first.item::itemsOf rest)
  | .struct name first rest => .mk .struct name [] (first.item::itemsOf rest)

def itemsOf : List Cfg → List CfgItem
  | [] => []
  | c::cs => c.item::itemsOf cs

end

mutual

def Cfg.height : Cfg → ℕ
  | .value _ _ => 3
  | .words _ _ rest => rest.length + 5
  | .list _ first rest => 3 + max first.height (heightOf rest)
  | .struct _ first rest => 3 + max first.height (heightOf rest)

def heightOf : List Cfg → ℕ
  | [] => 3
  | c::cs => 1 + max c.height (heightOf cs)

end

structure Document where
  first : Cfg
  rest : List Cfg

namespace Document

def tokens (doc : Document) : List (Tok CfgName) := tokensOf (doc.first::doc.rest) ++ [endTok]

def item (doc : Document) : CfgItem := .mk .struct (ascii "START") [] (itemsOf (doc.first::doc.rest))

def height (doc : Document) : ℕ := 1 + heightOf (doc.first::doc.rest)

end Document

end Configurations

section Trees

def wordsTree (first : Text) : List Text → PTree CfgName
  | [] => .node wordlistSym [.leaf wordSym (wordTok first)]
  | w::ws => .node wordlistSym [.leaf wordSym (wordTok first), wordsTree w ws]

def configsTree (first : PTree CfgName) : List (PTree CfgName) → PTree CfgName
  | [] => .node configsSym [first]
  | t::ts => .node configsSym [first, configsTree t ts]

mutual

def Cfg.tree : Cfg → PTree CfgName
  | .value name value =>
    .node configSym [.leaf wordSym (wordTok name), .leaf colonSym colonTok, .leaf wordSym (wordTok value)]
  | .words name first rest =>
    .node configSym [.leaf wordSym (wordTok name), .node cfglistSym
      [.leaf openListSym openListTok, wordsTree first rest, .leaf closeListSym closeListTok]]
  | .list name first rest =>
    .node configSym [.leaf wordSym (wordTok name), .node cfglistSym
      [.leaf openListSym openListTok, configsTree first.tree (treesOf rest),
        .leaf closeListSym closeListTok]]
  | .struct name first rest =>
    .node configSym [.leaf wordSym (wordTok name), .node cfgstructSym
      [.leaf openStructSym openStructTok, configsTree first.tree (treesOf rest),
        .leaf closeStructSym closeStructTok]]

def treesOf : List Cfg → List (PTree CfgName)
  | [] => []
  | c::cs => c.tree::treesOf cs

end

def Document.tree (doc : Document) : PTree CfgName :=
  .node startSym [configsTree doc.first.tree (treesOf doc.rest), .leaf endSym endTok]

lemma wordValues_wordsTree (first : Text) (rest : List Text) :
    wordValues (wordsTree first rest) = .ok (first::rest) := by
  induction rest generalizing first with
  | nil => rw [wordsTree, wordValues]; rfl
  | cons w ws ih =>
    rw [wordsTree, wordValues, ih, ok_bind]
    rfl

lemma configsTree_symbol (first : PTree CfgName) (ts : List (PTree CfgName)) :
    (configsTree first ts).symbol = configsSym := by
  cases ts <;> rfl

lemma createConfiguration_walk {sym : CfgSymbol CfgName} (h : sym.name ≠ .config)
    (ts : List (PTree CfgName)) : createConfiguration (.node sym ts) = createConfigurations ts := by
  rw [createConfiguration.eq_def]
  exact if_neg h

lemma createConfiguration_configsTree {first : PTree CfgName} {ts : List (PTree CfgName)}
    {items more : List CfgItem} (hfirst : createConfiguration first = .ok items)
    (hts : createConfigurations ts = .ok more) :
    createConfiguration (configsTree first ts) = .ok (items ++ more) := by
  induction ts generalizing first items more with
  | nil =>
    cases hts
    rw [configsTree, createConfiguration_walk (by decide), createConfigurations, hfirst, ok_bind]
    rfl
  | cons t ts ih =>
    rw [createConfigurations] at hts
    obtain ⟨items', ht, hts⟩ := bind_eq_ok.mp hts
    obtain ⟨more', hmore, hts⟩ := bind_eq_ok.mp hts
    cases hts
    rw [configsTree, createConfiguration_walk (by decide), createConfigurations, hfirst, ok_bind,
      createConfigurations, ih ht hmore, ok_bind]
    simp [createConfigurations, ok_bind]

section Brackets

variable {left right el : PTree CfgName} {name : Tok CfgName}

lemma createConfiguration_words (hel : el.symbol.name = .wordlist) :
    createConfiguration (.node configSym [.leaf wordSym name, .node cfglistSym [left, el, right]]) =
      wordValues el >>= fun values => .ok [.mk .list name.1 [] (wordItems name.1 values)] := by
  rw [createConfiguration.eq_def]
  exact if_pos hel

lemma createConfiguration_list (hel : el.symbol.name ≠ .wordlist) :
    createConfiguration (.node configSym [.leaf wordSym name, .node cfglistSym [left, el, right]]) =
      createConfiguration (.node cfglistSym [left, el, right]) >>= fun items =>
        .ok [.mk .list name.1 [] items] := by
  rw [createConfiguration.eq_def]
  exact if_neg hel

lemma createConfiguration_struct :
    createConfiguration (.node configSym [.leaf wordSym name, .node cfgstructSym [left, el, right]]) =
      createConfiguration (.node cfgstructSym [left, el, right]) >>= fun items =>
        .ok [.mk .struct name.1 [] items] := by
  rw [createConfiguration.eq_def]
  rfl

lemma createConfiguration_between {sym leftSym rightSym : CfgSymbol CfgName} (hsym : sym.name ≠ .config)
    (hleft : leftSym.name ≠ .config) (hright : rightSym.name ≠ .config) (ltok rtok : Tok CfgName)
    {items : List CfgItem} (hel : createConfiguration el = .ok items) :
    createConfiguration (.node sym [.leaf leftSym ltok, el, .leaf rightSym rtok]) = .ok items := by
  have hopen : createConfiguration (.leaf leftSym ltok) = .ok [] := by
    rw [createConfiguration, if_neg hleft]
  have hclose : createConfiguration (.leaf rightSym rtok) = .ok [] := by
    rw [createConfiguration, if_neg hright]
  rw [createConfiguration_walk hsym]
  simp [createConfigurations, hopen, hel, hclose, ok_bind]

end Brackets

mutual

lemma Cfg.createConfiguration_tree : ∀ c : Cfg, createConfiguration c.tree = .ok [c.item]
  | .value name value => by
    rw [Cfg.tree, createConfiguration, Cfg.item]
    rfl
  | .words name first rest => by
    have hsym : (wordsTree first rest).symbol.name = .wordlist := by
      cases rest <;> rfl
    rw [Cfg.tree, createConfiguration_words hsym, wordValues_wordsTree, ok_bind, Cfg.item]
    rfl
  | .list name first rest => by
    have hbody := createConfiguration_configsTree first.createConfiguration_tree
      (createConfigurations_treesOf rest)
    have hsym : (configsTree first.tree (treesOf rest)).symbol.name ≠ .wordlist := by
      rw [configsTree_symbol]
      decide
    rw [Cfg.tree, createConfiguration_list hsym,
      createConfiguration_between (by decide) (by decide) (by decide) _ _ hbody, ok_bind, Cfg.item]
    rfl
  | .struct name first rest => by
    have hbody := createConfiguration_configsTree first.createConfiguration_tree
      (createConfigurations_treesOf rest)
    rw [Cfg.tree, createConfiguration_struct,
      createConfiguration_between (by decide) (by decide) (by decide) _ _ hbody, ok_bind, Cfg.item]
    rfl

lemma createConfigurations_treesOf : ∀ cs : List Cfg, createConfigurations (treesOf cs) = .ok (itemsOf cs)
  | [] => by rw [treesOf, createConfigurations, itemsOf]
  | c::cs => by
    rw [treesOf, createConfigurations, c.createConfiguration_tree, ok_bind,
      createConfigurations_treesOf cs, itemsOf]
    rfl

end

lemma Document.createConfiguration_tree (doc : Document) :
    createConfiguration doc.tree = .ok (itemsOf (doc.first::doc.rest)) := by
  have hbody := createConfiguration_configsTree doc.first.createConfiguration_tree
    (createConfigurations_treesOf doc.rest)
  have hend : createConfiguration (.leaf endSym endTok) = .ok [] := by
    rw [createConfiguration]
    rfl
  rw [Document.tree, createConfiguration_walk (by decide), itemsOf]
  simp [createConfigurations, hbody, hend, ok_bind]

end Trees

section Parsing

variable {toks rest : List (Tok CfgName)} {idx : ℕ}

lemma getElem?_of_drop {tok : Tok CfgName} (h : toks.drop idx = tok::rest) : toks[idx]? = some tok := by
  rw [← List.head?_drop, h, List.head?_cons]

lemma drop_add_of_drop {ts : List (Tok CfgName)} (h : toks.drop idx = ts ++ rest) :
    toks.drop (idx + ts.length) = rest := by
  rw [← List.drop_drop, h, List.drop_left]

lemma drop_succ_of_drop {tok : Tok CfgName} (h : toks.drop idx = tok::rest) :
    toks.drop (idx + 1) = rest := by
  rw [← List.drop_drop, h, List.drop_succ_cons, List.drop_zero]

lemma CfgParser.Resolves.of_eq {g : CfgParser CfgName} {sym : CfgSymbol CfgName} {h k m n : ℕ}
    {t : Option (PTree CfgName)} (hs : g.Resolves toks sym idx h (m, t)) (hh : h = k) (hm : m = n) :
    g.Resolves toks sym idx k (n, t) := by
  rw [← hh, ← hm]
  exact hs

section Terminals

variable (sym : CfgSymbol CfgName) {tok : Tok CfgName} (hsym : sym.isTerminal = true)
  (h : toks.drop idx = tok::rest)
include hsym h

lemma resolves_of_drop (hname : tok.2.name = sym.name) :
    cfgParser.Resolves toks sym idx 1 (1, some (.leaf sym tok)) :=
  resolves_match hsym (getElem?_of_drop h) hname

lemma walks_none_of_drop (hname : tok.2.name ≠ sym.name) (right : List (CfgSymbol CfgName)) :
    cfgParser.Walks toks (sym::right) idx 1 none :=
  (resolves_miss hsym (getElem?_of_drop h) hname).fail right

end Terminals

section Failures

variable {tok : Tok CfgName} (h : toks.drop idx = tok::rest)
include h

lemma resolves_wordlist_none (hname : tok.2.name ≠ .word) :
    cfgParser.Resolves toks wordlistSym idx 2 (0, none) := by
  have hword := walks_none_of_drop wordSym rfl h hname
  exact ((hword _).next ((hword _).next (tries_nil _ _))).resolves rfl rfl

lemma resolves_config_none (hname : tok.2.name ≠ .word) :
    cfgParser.Resolves toks configSym idx 2 (0, none) := by
  have hword := walks_none_of_drop wordSym rfl h hname
  exact ((hword _).next ((hword _).next ((hword _).next (tries_nil _ _)))).resolves rfl rfl

lemma resolves_configs_none (hname : tok.2.name ≠ .word) :
    cfgParser.Resolves toks configsSym idx 3 (0, none) := by
  have hconfig := (resolves_config_none h hname).fail
  exact ((hconfig _).next ((hconfig _).next (tries_nil _ _))).resolves rfl rfl

lemma resolves_cfglist_none (hname : tok.2.name ≠ .openList) :
    cfgParser.Resolves toks cfglistSym idx 2 (0, none) := by
  have hopen := walks_none_of_drop openListSym rfl h hname
  exact ((hopen _).next ((hopen _).next (tries_nil _ _))).resolves rfl rfl

lemma resolves_cfgstruct_none (hname : tok.2.name ≠ .openStruct) :
    cfgParser.Resolves toks cfgstructSym idx 2 (0, none) := by
  have hopen := walks_none_of_drop openStructSym rfl h hname
  exact ((hopen _).next (tries_nil _ _)).resolves rfl rfl

end Failures

lemma resolves_wordlist {tok : Tok CfgName} (hname : tok.2.name ≠ .word) (first : Text) (ws : List Text)
    (h : toks.drop idx = (first::ws).map wordTok ++ tok::rest) :
    cfgParser.Resolves toks wordlistSym idx (ws.length + 3)
      (ws.length + 1, some (wordsTree first ws)) := by
  induction ws generalizing first idx with
  | nil =>
    have hword := resolves_of_drop wordSym rfl h rfl
    have hmore := hword.cons_none one_pos ((resolves_wordlist_none (drop_succ_of_drop h) hname).fail [])
    have hlast := (hword.cons one_pos (walks_nil _)).first wordlistSym []
    exact ((hmore.next hlast).resolves rfl rfl).of_eq rfl (by simp)
  | cons w ws ih =>
    have hword := resolves_of_drop wordSym rfl h rfl
    have hwords := (ih w (drop_succ_of_drop h)).cons (Nat.succ_pos _) (walks_nil _)
    have hmore := (hword.cons one_pos hwords).first wordlistSym [[wordSym]]
    refine (hmore.resolves rfl rfl).of_eq ?_ ?_
    · simp
    · simp; omega

def Cfg.Parses (c : Cfg) : Prop :=
  ∀ (toks : List (Tok CfgName)) (idx : ℕ) (rest : List (Tok CfgName)), toks.drop idx = c.tokens ++ rest →
    cfgParser.Resolves toks configSym idx c.height (c.tokens.length, some c.tree)

lemma Cfg.tokens_pos (c : Cfg) : 0 < c.tokens.length := by
  cases c <;> simp [Cfg.tokens]

lemma tokensOf_pos (c : Cfg) (cs : List Cfg) : 0 < (tokensOf (c::cs)).length := by
  rw [tokensOf, List.length_append]
  exact Nat.add_pos_left c.tokens_pos _

lemma Cfg.height_ge (c : Cfg) : 3 ≤ c.height := by
  cases c <;> simp only [Cfg.height] <;> omega

lemma resolves_configs {tok : Tok CfgName} (hname : tok.2.name ≠ .word) {first : Cfg} {cs : List Cfg}
    (hfirst : first.Parses) (hcs : ∀ c ∈ cs, c.Parses)
    (h : toks.drop idx = tokensOf (first::cs) ++ tok::rest) :
    cfgParser.Resolves toks configsSym idx (heightOf (first::cs))
      ((tokensOf (first::cs)).length, some (configsTree first.tree (treesOf cs))) := by
  rw [tokensOf, List.append_assoc] at h
  have hhead := hfirst toks idx _ h
  have htail := drop_add_of_drop h
  induction cs generalizing first idx with
  | nil =>
    have hmore := hhead.cons_none first.tokens_pos ((resolves_configs_none htail hname).fail [])
    have hlast := (hhead.cons first.tokens_pos (walks_nil _)).first configsSym []
    refine ((hmore.next hlast).resolves rfl rfl).of_eq ?_ ?_
    · simp [heightOf]; omega
    · simp [tokensOf]
  | cons c cs ih =>
    rw [tokensOf, List.append_assoc] at htail
    have hitems := (ih (hcs c List.mem_cons_self) (fun d hd => hcs d (List.mem_cons_of_mem _ hd)) htail
      (hcs c List.mem_cons_self toks _ _ htail) (drop_add_of_drop htail))
    have hmore := (hhead.cons first.tokens_pos (hitems.cons (tokensOf_pos c cs) (walks_nil _))).first
      configsSym [[configSym]]
    refine (hmore.resolves rfl rfl).of_eq ?_ ?_
    · rw [heightOf.eq_2 first]; omega
    · simp only [tokensOf, List.length_append]; omega

lemma Cfg.tokens_eq (c : Cfg) :
    ∃ name tok ts, c.tokens = wordTok name::tok::ts ∧ tok.2.name ≠ .word ∧ tok.2.name ≠ .closeList := by
  cases c with
  | value name value => exact ⟨name, colonTok, [wordTok value], rfl, by decide, by decide⟩
  | words name first rest => exact ⟨name, openListTok, _, rfl, by decide, by decide⟩
  | list name first rest => exact ⟨name, openListTok, _, rfl, by decide, by decide⟩
  | struct name first rest => exact ⟨name, openStructTok, _, rfl, by decide, by decide⟩

section Items

variable {name : Text} (h : toks.drop idx = wordTok name::rest)
include h

lemma resolves_config_list {t : PTree CfgName} {k n : ℕ} (hk : 0 < k) (hn : 0 < n)
    (hlist : cfgParser.Resolves toks cfglistSym (idx + 1) k (n, some t)) :
    cfgParser.Resolves toks configSym idx (k + 1) (n + 1, some (.node configSym [.leaf wordSym (wordTok name), t])) := by
  have hright := (resolves_of_drop wordSym rfl h rfl).cons one_pos (hlist.cons hn (walks_nil _))
  refine ((hright.first configSym [[wordSym, cfgstructSym], [wordSym, colonSym, wordSym]]).resolves
    rfl rfl).of_eq ?_ ?_
  · omega
  · omega

lemma resolves_config_struct {t : PTree CfgName} {k n : ℕ} (hk : 2 ≤ k) (hn : 0 < n)
    (hlist : cfgParser.Resolves toks cfglistSym (idx + 1) 2 (0, none))
    (hstruct : cfgParser.Resolves toks cfgstructSym (idx + 1) k (n, some t)) :
    cfgParser.Resolves toks configSym idx (k + 1) (n + 1, some (.node configSym [.leaf wordSym (wordTok name), t])) := by
  have hword := resolves_of_drop wordSym rfl h rfl
  have hright := (hword.cons one_pos (hstruct.cons hn (walks_nil _))).first configSym
    [[wordSym, colonSym, wordSym]]
  refine (((hword.cons_none one_pos (hlist.fail [])).next hright).resolves rfl rfl).of_eq ?_ ?_
  · omega
  · omega

end Items

lemma resolves_config_value {name value : Text}
    (h : toks.drop idx = wordTok name::colonTok::wordTok value::rest) :
    cfgParser.Resolves toks configSym idx 3 (3, some (Cfg.value name value).tree) := by
  have hword := resolves_of_drop wordSym rfl h rfl
  have hcolon := resolves_of_drop colonSym rfl (drop_succ_of_drop h) rfl
  have hvalue := resolves_of_drop wordSym rfl (drop_succ_of_drop (drop_succ_of_drop h)) rfl
  have hlist := hword.cons_none one_pos
    ((resolves_cfglist_none (drop_succ_of_drop h) (by decide)).fail [])
  have hstruct := hword.cons_none one_pos
    ((resolves_cfgstruct_none (drop_succ_of_drop h) (by decide)).fail [])
  have hright := (hword.cons one_pos (hcolon.cons one_pos (hvalue.cons one_pos (walks_nil _)))).first
    configSym []
  exact ((hlist.next (hstruct.next hright)).resolves rfl rfl).of_eq rfl (by omega)

lemma resolves_cfglist_words {first : Text} {ws : List Text}
    (h : toks.drop idx = openListTok::((first::ws).map wordTok ++ closeListTok::rest)) :
    cfgParser.Resolves toks cfglistSym idx (ws.length + 4) (ws.length + 3, some (.node cfglistSym
      [.leaf openListSym openListTok, wordsTree first ws, .leaf closeListSym closeListTok])) := by
  have hopen := resolves_of_drop openListSym rfl h rfl
  have hwords := resolves_wordlist (by decide) first ws (drop_succ_of_drop h)
  have hrest := drop_add_of_drop (drop_succ_of_drop h)
  rw [List.length_map, List.length_cons] at hrest
  have hclose := resolves_of_drop closeListSym rfl hrest rfl
  have hright := (hopen.cons one_pos (hwords.cons (Nat.succ_pos _) (hclose.cons one_pos (walks_nil _)))).first
    cfglistSym [[openListSym, configsSym, closeListSym]]
  refine (hright.resolves rfl rfl).of_eq ?_ ?_
  · omega
  · omega

section Chains

variable {first : Cfg} {cs : List Cfg} (hfirst : first.Parses) (hcs : ∀ c ∈ cs, c.Parses)
include hfirst hcs

lemma walks_bracket {opening closing : Tok CfgName} (hopen : opening.2.isTerminal = true)
    (hclose : closing.2.isTerminal = true) (hname : closing.2.name ≠ .word)
    (h : toks.drop idx = opening::(tokensOf (first::cs) ++ closing::rest)) :
    cfgParser.Walks toks [opening.2, configsSym, closing.2] idx (heightOf (first::cs))
      (some (idx + ((tokensOf (first::cs)).length + 2), [.leaf opening.2 opening,
        configsTree first.tree (treesOf cs), .leaf closing.2 closing])) := by
  have hitems := resolves_configs hname hfirst hcs (drop_succ_of_drop h)
  have hlast := resolves_of_drop closing.2 hclose (drop_add_of_drop (drop_succ_of_drop h)) rfl
  have hwalk := (resolves_of_drop opening.2 hopen h rfl).cons one_pos
    (hitems.cons (tokensOf_pos first cs) (hlast.cons one_pos (walks_nil _)))
  have hheight : max 1 (max (heightOf (first::cs)) (max 1 0)) = heightOf (first::cs) := by
    rw [heightOf]; omega
  have hidx : idx + 1 + (tokensOf (first::cs)).length + 1 = idx + ((tokensOf (first::cs)).length + 2) := by
    omega
  rw [hheight, hidx] at hwalk
  exact hwalk

lemma resolves_cfglist_configs
    (h : toks.drop idx = openListTok::(tokensOf (first::cs) ++ closeListTok::rest)) :
    cfgParser.Resolves toks cfglistSym idx (1 + heightOf (first::cs)) ((tokensOf (first::cs)).length + 2,
      some (.node cfglistSym [.leaf openListSym openListTok, configsTree first.tree (treesOf cs),
        .leaf closeListSym closeListTok])) := by
  have hopen := resolves_of_drop openListSym rfl h rfl
  obtain ⟨name, tok, ts, htokens, hword, hclose⟩ := first.tokens_eq
  have hnext : toks.drop (idx + 1) =
      [name].map wordTok ++ tok::(ts ++ (tokensOf cs ++ closeListTok::rest)) := by
    rw [drop_succ_of_drop h, tokensOf, htokens]
    simp
  have hwords := (resolves_wordlist hword name [] hnext).cons_none (Nat.succ_pos _)
    (walks_none_of_drop closeListSym rfl (drop_add_of_drop hnext) hclose [])
  have hitems := (walks_bracket hfirst hcs rfl rfl (by decide) h).first cfglistSym []
  have hheight := first.height_ge
  refine (((hopen.cons_none one_pos hwords).next hitems).resolves rfl rfl).of_eq ?_ ?_
  · rw [heightOf, List.length_nil]; omega
  · omega

lemma resolves_cfgstruct
    (h : toks.drop idx = openStructTok::(tokensOf (first::cs) ++ closeStructTok::rest)) :
    cfgParser.Resolves toks cfgstructSym idx (1 + heightOf (first::cs)) ((tokensOf (first::cs)).length + 2,
      some (.node cfgstructSym [.leaf openStructSym openStructTok, configsTree first.tree (treesOf cs),
        .leaf closeStructSym closeStructTok])) := by
  have hitems := (walks_bracket hfirst hcs rfl rfl (by decide) h).first cfgstructSym []
  refine (hitems.resolves rfl rfl).of_eq ?_ ?_
  · omega
  · omega

end Chains

mutual

lemma Cfg.parses : ∀ c : Cfg, c.Parses
  | .value name value => by
    intro toks idx rest h
    rw [Cfg.tokens] at h
    exact resolves_config_value h
  | .words name first ws => by
    intro toks idx rest h
    rw [Cfg.tokens, List.cons_append, List.cons_append, List.append_assoc] at h
    have hlist := resolves_cfglist_words (drop_succ_of_drop h)
    refine (resolves_config_list h (Nat.succ_pos _) (Nat.succ_pos _) hlist).of_eq ?_ ?_
    · rw [Cfg.height]
    · simp [Cfg.tokens]
  | .list name first cs => by
    intro toks idx rest h
    rw [Cfg.tokens, List.cons_append, List.cons_append, ← List.append_assoc, List.append_assoc] at h
    have hlist := resolves_cfglist_configs first.parses (allParse cs) (drop_succ_of_drop h)
    refine (resolves_config_list h (by omega) (Nat.succ_pos _) hlist).of_eq ?_ ?_
    · rw [Cfg.height, heightOf]; omega
    · simp [Cfg.tokens, tokensOf]; omega
  | .struct name first cs => by
    intro toks idx rest h
    rw [Cfg.tokens, List.cons_append, List.cons_append, ← List.append_assoc, List.append_assoc] at h
    have hstruct := resolves_cfgstruct first.parses (allParse cs) (drop_succ_of_drop h)
    have hlist := resolves_cfglist_none (drop_succ_of_drop h) (by decide)
    refine (resolves_config_struct h ?_ (Nat.succ_pos _) hlist hstruct).of_eq ?_ ?_
    · rw [heightOf]; omega
    · rw [Cfg.height, heightOf]; omega
    · simp [Cfg.tokens, tokensOf]; omega

lemma allParse : ∀ cs : List Cfg, ∀ c ∈ cs, c.Parses
  | [] => by simp
  | c::cs => List.forall_mem_cons.mpr ⟨c.parses, allParse cs⟩

end

lemma Document.resolves (doc : Document) :
    cfgParser.Resolves doc.tokens startSym 0 doc.height (doc.tokens.length, some doc.tree) := by
  have h : doc.tokens.drop 0 = tokensOf (doc.first::doc.rest) ++ [endTok] := rfl
  have hitems := resolves_configs (by decide) doc.first.parses (allParse doc.rest) h
  have hend := resolves_of_drop endSym rfl (drop_add_of_drop h) rfl
  have hright := (hitems.cons (tokensOf_pos _ _) (hend.cons one_pos (walks_nil _))).first startSym []
  refine (hright.resolves rfl rfl).of_eq ?_ ?_
  · rw [Document.height, heightOf]; omega
  · simp [Document.tokens]

end Parsing

end Bfs.Utils
