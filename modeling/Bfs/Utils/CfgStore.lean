import Bfs.Utils.CfgItem
import Bfs.Utils.ParseTree

/-! Loading a configuration, `bfsCfgStore`: the grammar, the tree of items made from a parse tree, and
the texts on which the parser with its limit of depth finds what the text says. -/
namespace Bfs.Utils

open Fallible

section Model

inductive CfgName
  | start
  | endOfText
  | colon
  | openList
  | closeList
  | openStruct
  | closeStruct
  | word
  | configs
  | config
  | cfglist
  | cfgstruct
  | wordlist
  deriving DecidableEq

def CfgName.text : CfgName → Text
  | start => ascii "START"
  | endOfText => ascii "END"
  | colon => ascii ":"
  | openList => ascii "["
  | closeList => ascii "]"
  | openStruct => ascii "\x7b"
  | closeStruct => ascii "\x7d"
  | word => ascii "WORD"
  | configs => ascii "CONFIGS"
  | config => ascii "CONFIG"
  | cfglist => ascii "CFGLIST"
  | cfgstruct => ascii "CFGSTRUCT"
  | wordlist => ascii "WORDLIST"

def nonTerminal (name : CfgName) : CfgSymbol CfgName := ⟨name, false, none⟩

def terminal (name : CfgName) (re : RegExp) : CfgSymbol CfgName := ⟨name, true, some re⟩

def startSym := nonTerminal .start
def endSym : CfgSymbol CfgName := ⟨.endOfText, true, none⟩
def colonSym := terminal .colon (RegExp.oneLiteral (.normal 58))
def openListSym := terminal .openList (RegExp.oneLiteral (.normal 91))
def closeListSym := terminal .closeList (RegExp.oneLiteral (.normal 93))
def openStructSym := terminal .openStruct (RegExp.oneLiteral (.normal 123))
def closeStructSym := terminal .closeStruct (RegExp.oneLiteral (.normal 125))

def wordLits : List RegExp.Literal := [.word, .normal 46, .normal 43, .normal 47, .normal 61]

def wordSym := terminal .word (RegExp.orlistPlus wordLits false)
def configsSym := nonTerminal .configs
def configSym := nonTerminal .config
def cfglistSym := nonTerminal .cfglist
def cfgstructSym := nonTerminal .cfgstruct
def wordlistSym := nonTerminal .wordlist

/-- The machines are those of the expressions in `createParser`. -/
example : RegExp.setExpression (ascii ":") = .ok (RegExp.oneLiteral (.normal 58)) ∧
    RegExp.setExpression (ascii "\\[") = .ok (RegExp.oneLiteral (.normal 91)) ∧
    RegExp.setExpression (ascii "\\]") = .ok (RegExp.oneLiteral (.normal 93)) ∧
    RegExp.setExpression (ascii "\\\x7b") = .ok (RegExp.oneLiteral (.normal 123)) ∧
    RegExp.setExpression (ascii "\\\x7d") = .ok (RegExp.oneLiteral (.normal 125)) ∧
    RegExp.setExpression (ascii "[\\w\\.\\+\\/=]+") = .ok (RegExp.orlistPlus wordLits false) := by
  decide +kernel

/-- `bfsCfgStore::createParser`. -/
def cfgParser : CfgParser CfgName where
  symbolTable := [startSym, endSym, colonSym, openListSym, closeListSym, openStructSym, closeStructSym,
    wordSym, configsSym, configSym, cfglistSym, cfgstructSym, wordlistSym]
  startSymbol := startSym
  endSymbol := endSym
  productions := [
    ⟨startSym, [configsSym, endSym]⟩,
    ⟨configsSym, [configSym, configsSym]⟩,
    ⟨configsSym, [configSym]⟩,
    ⟨configSym, [wordSym, cfglistSym]⟩,
    ⟨configSym, [wordSym, cfgstructSym]⟩,
    ⟨configSym, [wordSym, colonSym, wordSym]⟩,
    ⟨cfglistSym, [openListSym, wordlistSym, closeListSym]⟩,
    ⟨cfglistSym, [openListSym, configsSym, closeListSym]⟩,
    ⟨cfgstructSym, [openStructSym, configsSym, closeStructSym]⟩,
    ⟨wordlistSym, [wordSym, wordlistSym]⟩,
    ⟨wordlistSym, [wordSym]⟩]

variable {ν : Type}

def PTree.ntmatch : PTree ν → List (PTree ν)
  | .leaf _ _ => []
  | .node _ ntmatch => ntmatch

/-- `get<0>(tree->matched)`. -/
def PTree.text : PTree ν → Text
  | .leaf _ matched => matched.1
  | .node _ _ => []

def badParseTree : CfgErr := .parserError (ascii "Bad parse tree")

def wordValues : PTree CfgName → Except CfgErr (List Text)
  | .node _ (word::el::_) => do
    let values ← wordValues el
    .ok (word.text::values)
  | .node _ [word] => .ok [word.text]
  | _ => .error .outOfRange

def wordItems (tag : Text) (values : List Text) : List CfgItem :=
  values.zipIdx.map fun (value, idx) =>
    .mk .value (tag ++ ascii ("[" ++ toString idx ++ "]")) value []

mutual

/-- `bfsCfgStore::createConfiguration`: the items that are added to the context. -/
def createConfiguration : PTree CfgName → Except CfgErr (List CfgItem)
  | .leaf sym _ => if sym.name = .config then .error .nullPointer else .ok []
  | .node sym ts =>
    if sym.name = .config then
      match ts with
      | name::kind::rest =>
        if name.symbol.name ≠ .word then .error badParseTree
        else if kind.symbol.name = .colon then
          match rest with
          | [value] => .ok [.mk .value name.text value.text []]
          | _ => .error badParseTree
        else if kind.symbol.name = .cfglist then
          match kind.ntmatch[1]? with
          | none => .error .outOfRange
          | some el =>
            if el.symbol.name = .wordlist then do
              let values ← wordValues el
              .ok [.mk .list name.text [] (wordItems name.text values)]
            else do
              let items ← createConfiguration kind
              .ok [.mk .list name.text [] items]
        else if kind.symbol.name = .cfgstruct then do
          let items ← createConfiguration kind
          .ok [.mk .struct name.text [] items]
        else .error (.parserError (ascii "Bad parse tree, weird config" ++ kind.symbol.name.text))
      | _ => .error .nullPointer
    else createConfigurations ts

def createConfigurations : List (PTree CfgName) → Except CfgErr (List CfgItem)
  | [] => .ok []
  | tree::trees => do
    let items ← createConfiguration tree
    let more ← createConfigurations trees
    .ok (items ++ more)

end

/-- `bfsCfgStore::loadConfigurationFile` on the text of the file. The parse tree is printed before it is
used, and is not tested. -/
def loadConfiguration (text : Text) : Except CfgErr CfgItem := do
  match ← cfgParser.parseData text with
  | none => .error .nullPointer
  | some ptree => do
    let items ← createConfiguration ptree
    .ok (.mk .struct (ascii "START") [] items)

end Model

end Bfs.Utils
