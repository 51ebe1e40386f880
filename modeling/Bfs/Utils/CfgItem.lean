import Bfs.Lib.Fallible
import Bfs.Utils.CfgParser

/-! Queries to a tree of configuration items, `bfsCfgItem::queryConfig`. A query is read from its text
piece by piece; here it is compared with the path that the text spells. -/
namespace Bfs.Utils

open Fallible

section Model

/-- `bfsCfgItemType_t`. -/
inductive CfgItemType
  | value
  | list
  | struct
  deriving DecidableEq

/-- Class `bfsCfgItem`. -/
inductive CfgItem
  | mk (itype : CfgItemType) (configName value : Text) (subItems : List CfgItem)

def CfgItem.configName : CfgItem → Text
  | .mk _ configName _ _ => configName

def CfgItem.subItems : CfgItem → List CfgItem
  | .mk _ _ _ subItems => subItems

/-- What a query can end with: `bfsCfgError`, and the two exceptions of `stoi`. -/
inductive QueryErr
  | cfgError (msg : Text)
  | invalidArgument
  | outOfRange
  deriving DecidableEq

def CfgItem.getSubItemByName (it : CfgItem) (cfgnm : Text) : Except QueryErr CfgItem :=
  match it.subItems.find? (·.configName = cfgnm) with
  | some sub => .ok sub
  | none => .error (.cfgError (ascii "Subvalue name not found getSubItem : " ++ cfgnm ++ ascii " in " ++
      it.configName))

/-- `(int)subItems.size()`. -/
def intSize (n : ℕ) : ℤ := if n % 2^32 < 2^31 then (n % 2^32 : ℕ) else (n % 2^32 : ℕ) - 2^32

def CfgItem.getSubItemByIndex (it : CfgItem) (idx : ℤ) : Except QueryErr CfgItem :=
  if idx < 0 ∨ intSize it.subItems.length ≤ idx then
    .error (.cfgError (ascii ("Index out of range in getSubItem : " ++ toString idx ++ " in ") ++
      it.configName))
  else
    match it.subItems[idx.toNat]? with
    | some sub => .ok sub
    | none => .error .outOfRange

def dot : UInt8 := 46
def leftBracket : UInt8 := 91
def rightBracket : UInt8 := 93
def minus : UInt8 := 45
def plus : UInt8 := 43

def isDigit (ch : UInt8) : Bool := decide (48 ≤ ch.toNat ∧ ch.toNat ≤ 57)

def digitsValue (ds : Text) : ℕ := ds.foldl (fun v d => 10 * v + (d.toNat - 48)) 0

def splitSign : Text → Bool × Text
  | [] => (false, [])
  | ch::text => if ch = minus then (true, text) else if ch = plus then (false, text) else (false, ch::text)

/-- `stoi` in base ten. -/
def stoi (text : Text) : Except QueryErr ℤ :=
  let (negative, text) := splitSign (text.dropWhile isSpace)
  let digits := text.takeWhile isDigit
  let v : ℤ := if negative then -digitsValue digits else digitsValue digits
  if digits = [] then .error .invalidArgument
  else if v < -2^31 ∨ 2^31 ≤ v then .error .outOfRange
  else .ok v

/-- Not one of the characters that `find_first_of(".[")` looks for. -/
def isPlain (ch : UInt8) : Bool := ch ≠ dot && ch ≠ leftBracket

def afterBracket (cfgtag : Text) : Text :=
  if rightBracket ∈ cfgtag then (cfgtag.dropWhile (· ≠ rightBracket)).tail else cfgtag

/-- What is left to query in an indexed item of this name; `none` if it is the item itself. -/
def afterAlias (name : Text) : Text → Except QueryErr (Option Text)
  | [] => .ok none
  | ch::cfgtag =>
    if ch = dot then
      if name <+: cfgtag then
        match cfgtag.drop name.length with
        | [] => .ok none
        | ch::cfgtag => if ch = dot then .ok (some cfgtag) else .ok (some (ch::cfgtag))
      else .error (.cfgError (ascii "Name mismatch in array index"))
    else if ch = leftBracket then .error (.cfgError (ascii "Next arrays not currently supported."))
    else .ok (some (ch::cfgtag))

lemma CfgItem.sizeOf_lt_of_mem {it sub : CfgItem} (h : sub ∈ it.subItems) : sizeOf sub < sizeOf it := by
  cases it with
  | mk itype configName value subItems =>
    have hlt := List.sizeOf_lt_of_mem h
    simp only [CfgItem.subItems] at hlt
    simp only [CfgItem.mk.sizeOf_spec]
    omega

lemma CfgItem.getSubItemByName_mem {it sub : CfgItem} {cfgnm : Text}
    (h : it.getSubItemByName cfgnm = .ok sub) : sub ∈ it.subItems ∧ sub.configName = cfgnm := by
  rw [getSubItemByName] at h
  cases hfind : it.subItems.find? (·.configName = cfgnm) with
  | none =>
    rw [hfind] at h
    cases h
  | some found =>
    rw [hfind] at h
    cases h
    exact ⟨List.mem_of_find?_eq_some hfind, by simpa using List.find?_some hfind⟩

lemma CfgItem.getSubItemByIndex_eq_ok {it sub : CfgItem} {idx : ℤ} :
    it.getSubItemByIndex idx = .ok sub ↔
      0 ≤ idx ∧ idx < intSize it.subItems.length ∧ it.subItems[idx.toNat]? = some sub := by
  rw [getSubItemByIndex]
  split_ifs with hrange
  · constructor
    · intro h
      cases h
    · rintro ⟨h₁, h₂, -⟩
      omega
  · push Not at hrange
    cases hget : it.subItems[idx.toNat]? with
    | none => simp
    | some found => simp [hrange]

/-- `bfsCfgItem::queryConfig`; each call goes to an item below this one. -/
def CfgItem.queryConfig (it : CfgItem) (cfgtag : Text) : Except QueryErr CfgItem :=
  match cfgtag.dropWhile isPlain with
  | [] => it.getSubItemByName cfgtag
  | ch::rest =>
    if ch = dot then
      match _hsub : it.getSubItemByName (cfgtag.takeWhile isPlain) with
      | .error e => .error e
      | .ok subitem => if rest = [] then .ok subitem else subitem.queryConfig rest
    else
      match stoi rest with
      | .error e => .error e
      | .ok idx =>
        match _hsub : it.getSubItemByName (cfgtag.takeWhile isPlain) with
        | .error e => .error e
        | .ok subitem =>
          match _hindex : subitem.getSubItemByIndex idx with
          | .error e => .error e
          | .ok indexitem =>
            match afterAlias indexitem.configName (afterBracket cfgtag) with
            | .error e => .error e
            | .ok none => .ok indexitem
            | .ok (some rest) => indexitem.queryConfig rest
termination_by sizeOf it
decreasing_by
  · exact sizeOf_lt_of_mem (getSubItemByName_mem _hsub).1
  · have hlt := sizeOf_lt_of_mem (getSubItemByName_mem _hsub).1
    have hlt' := sizeOf_lt_of_mem (List.mem_of_getElem? (getSubItemByIndex_eq_ok.mp _hindex).2.2)
    omega

end Model

section Paths

structure QueryName where
  text : Text
  ne_nil : text ≠ []
  plain : ∀ ch ∈ text, ch ≠ dot ∧ ch ≠ leftBracket ∧ ch ≠ rightBracket

structure QueryIndex where
  digits : Text
  ne_nil : digits ≠ []
  digit : ∀ ch ∈ digits, isDigit ch = true

def QueryIndex.value (i : QueryIndex) : ℕ := digitsValue i.digits

inductive Segment
  | name (n : QueryName)
  | indexed (n : QueryName) (i : QueryIndex)

def Segment.text : Segment → Text
  | .name n => n.text
  | .indexed n i => n.text ++ leftBracket :: (i.digits ++ [rightBracket])

def queryText : Segment → List Segment → Text
  | seg, [] => seg.text
  | seg, seg'::path => seg.text ++ dot :: queryText seg' path

/-- The item that a path denotes, where `bound` says how many indices of a list can be used. Behind an
index the name of the indexed item is repeated before the path goes on. -/
inductive CfgItem.Denotes (bound : ℕ → ℕ) : CfgItem → List Segment → CfgItem → Prop
  | here (it : CfgItem) : Denotes bound it [] it
  | name {it sub y : CfgItem} {n : QueryName} {path : List Segment} (mem : sub ∈ it.subItems)
      (named : sub.configName = n.text) (rest : Denotes bound sub path y) :
      Denotes bound it (.name n :: path) y
  | index {it sub x : CfgItem} {n : QueryName} {i : QueryIndex} (mem : sub ∈ it.subItems)
      (named : sub.configName = n.text) (lt : i.value < bound sub.subItems.length)
      (get : sub.subItems[i.value]? = some x) : Denotes bound it [.indexed n i] x
  | indexed {it sub x y : CfgItem} {n m : QueryName} {i : QueryIndex} {path : List Segment}
      (mem : sub ∈ it.subItems) (named : sub.configName = n.text)
      (lt : i.value < bound sub.subItems.length) (get : sub.subItems[i.value]? = some x)
      (repeated : x.configName = m.text) (rest : Denotes bound x path y) :
      Denotes bound it (.indexed n i :: .name m :: path) y

/-- A text is read along a path on which the name of an indexed item is not repeated: the next segment
only begins with it, and the rest of that segment is taken for a segment of its own. -/
inductive CfgItem.Glued (bound : ℕ → ℕ) : CfgItem → List Segment → CfgItem → Prop
  | here {it sub x y : CfgItem} {n : QueryName} {i : QueryIndex} {seg seg' : Segment}
      {path : List Segment} (mem : sub ∈ it.subItems) (named : sub.configName = n.text)
      (lt : i.value < bound sub.subItems.length) (get : sub.subItems[i.value]? = some x)
      (begins : seg.text = x.configName ++ seg'.text) (rest : Denotes bound x (seg' :: path) y) :
      Glued bound it (.indexed n i :: seg :: path) y
  | again {it sub x y : CfgItem} {n : QueryName} {i : QueryIndex} {seg seg' : Segment}
      {path : List Segment} (mem : sub ∈ it.subItems) (named : sub.configName = n.text)
      (lt : i.value < bound sub.subItems.length) (get : sub.subItems[i.value]? = some x)
      (begins : seg.text = x.configName ++ seg'.text) (rest : Glued bound x (seg' :: path) y) :
      Glued bound it (.indexed n i :: seg :: path) y
  | name {it sub y : CfgItem} {n : QueryName} {path : List Segment} (mem : sub ∈ it.subItems)
      (named : sub.configName = n.text) (rest : Glued bound sub path y) :
      Glued bound it (.name n :: path) y
  | indexed {it sub x y : CfgItem} {n m : QueryName} {i : QueryIndex} {path : List Segment}
      (mem : sub ∈ it.subItems) (named : sub.configName = n.text)
      (lt : i.value < bound sub.subItems.length) (get : sub.subItems[i.value]? = some x)
      (repeated : x.configName = m.text) (rest : Glued bound x path y) :
      Glued bound it (.indexed n i :: .name m :: path) y

inductive CfgItem.WellNamed : CfgItem → Prop
  | intro {it : CfgItem} (distinct : (it.subItems.map configName).Nodup)
      (named : ∀ sub ∈ it.subItems, ∃ n : QueryName, sub.configName = n.text)
      (sub : ∀ sub ∈ it.subItems, WellNamed sub) : WellNamed it

end Paths

section Reading

def CfgItem.queryWithin (it : CfgItem) : Option Text → Except QueryErr CfgItem
  | none => .ok it
  | some cfgtag => it.queryConfig cfgtag

/-- The query in terms of `bind`. -/
lemma CfgItem.queryConfig_eq (it : CfgItem) (cfgtag : Text) :
    it.queryConfig cfgtag =
      match cfgtag.dropWhile isPlain with
      | [] => it.getSubItemByName cfgtag
      | ch::rest =>
        if ch = dot then do
          let subitem ← it.getSubItemByName (cfgtag.takeWhile isPlain)
          if rest = [] then .ok subitem else subitem.queryConfig rest
        else (do
          let idx ← stoi rest
          let subitem ← it.getSubItemByName (cfgtag.takeWhile isPlain)
          let indexitem ← subitem.getSubItemByIndex idx
          let rest ← afterAlias indexitem.configName (afterBracket cfgtag)
          indexitem.queryWithin rest) := by
  rw [queryConfig]
  split
  · rfl
  · rename_i ch rest _
    by_cases hdot : ch = dot
    · rw [if_pos hdot, if_pos hdot]
      split
      · rename_i heq
        rw [heq, error_bind]
      · rename_i heq
        rw [heq, ok_bind]
    · rw [if_neg hdot, if_neg hdot]
      split
      · rename_i heq
        rw [heq, error_bind]
      · rename_i heq
        rw [heq, ok_bind]
        split
        · rename_i heq
          rw [heq, error_bind]
        · rename_i heq
          rw [heq, ok_bind]
          split
          · rename_i heq
            rw [heq, error_bind]
          · rename_i heq
            rw [heq, ok_bind]
            split <;> rename_i heq <;> rw [heq] <;> rfl

lemma QueryName.isPlain {n : QueryName} {ch : UInt8} (h : ch ∈ n.text) : isPlain ch = true := by
  obtain ⟨h₁, h₂, -⟩ := n.plain ch h
  simp [Utils.isPlain, h₁, h₂]

def Stops (t : Text) : Prop := ∀ ch ∈ t.head?, isPlain ch = false

lemma takeWhile_name (n : QueryName) {t : Text} (ht : Stops t) : (n.text ++ t).takeWhile isPlain = n.text := by
  rw [List.takeWhile_append_of_pos fun ch h => n.isPlain h]
  cases t with
  | nil => simp
  | cons ch t => rw [List.takeWhile_cons_of_neg (by simpa using ht ch rfl), List.append_nil]

lemma dropWhile_name (n : QueryName) {t : Text} (ht : Stops t) : (n.text ++ t).dropWhile isPlain = t := by
  rw [List.dropWhile_append_of_pos fun ch h => n.isPlain h]
  cases t with
  | nil => rfl
  | cons ch t => rw [List.dropWhile_cons_of_neg (by simpa using ht ch rfl)]

def Segment.qname : Segment → QueryName
  | .name n => n
  | .indexed n _ => n

def Segment.indexText : Segment → Text
  | .name _ => []
  | .indexed _ i => leftBracket :: (i.digits ++ [rightBracket])

lemma Segment.text_eq (seg : Segment) : seg.text = seg.qname.text ++ seg.indexText := by
  cases seg with
  | name n => exact (List.append_nil _).symm
  | indexed n i => rfl

def pathText : List Segment → Text
  | [] => []
  | seg::path => dot :: queryText seg path

lemma queryText_eq (seg : Segment) (path : List Segment) :
    queryText seg path = seg.qname.text ++ (seg.indexText ++ pathText path) := by
  rw [← List.append_assoc, ← seg.text_eq]
  cases path with
  | nil => exact (List.append_nil _).symm
  | cons seg' path => rfl

lemma stops_pathText (path : List Segment) : Stops (pathText path) := by
  cases path with
  | nil => intro ch h; cases h
  | cons seg path => intro ch h; cases h; rfl

lemma stops_indexText (seg : Segment) (path : List Segment) : Stops (seg.indexText ++ pathText path) := by
  cases seg with
  | name n => exact stops_pathText path
  | indexed n i => intro ch h; cases h; rfl

lemma prefix_name {a m : QueryName} {t : Text} (ht : Stops t) (h : a.text <+: m.text ++ t) :
    a.text <+: m.text := by
  rcases List.prefix_or_prefix_of_prefix h (List.prefix_append m.text t) with h' | ⟨u, hu⟩
  · exact h'
  · rw [← hu, List.prefix_append_right_inj] at h
    cases u with
    | nil => rw [← hu, List.append_nil]
    | cons ch u =>
      obtain ⟨v, rfl⟩ := h
      have hplain : isPlain ch = true := a.isPlain (by rw [← hu]; simp)
      rw [ht ch rfl] at hplain
      cases hplain

lemma CfgItem.getSubItemByName_eq_ok {it sub : CfgItem} {cfgnm : Text}
    (hdistinct : (it.subItems.map configName).Nodup) :
    it.getSubItemByName cfgnm = .ok sub ↔ sub ∈ it.subItems ∧ sub.configName = cfgnm := by
  constructor
  · exact getSubItemByName_mem
  · rintro ⟨hmem, rfl⟩
    rw [getSubItemByName]
    cases hfind : it.subItems.find? (·.configName = sub.configName) with
    | none => exact absurd (List.find?_eq_none.mp hfind sub hmem) (by simp)
    | some found =>
      have hname : found.configName = sub.configName := by simpa using List.find?_some hfind
      have heq := List.inj_on_of_nodup_map hdistinct (List.mem_of_find?_eq_some hfind) hmem hname
      rw [heq]

lemma lt_intSize {n v : ℕ} : (v : ℤ) < intSize n ↔ v < intLength n := by
  rw [intSize, intLength]
  split_ifs <;> omega

lemma stoi_index (i : QueryIndex) (t : Text) :
    stoi (i.digits ++ rightBracket :: t) =
      if 2^31 ≤ i.value then .error .outOfRange else .ok (i.value : ℤ) := by
  obtain ⟨d, ds, hds⟩ := List.exists_cons_of_ne_nil i.ne_nil
  have hd : isDigit d = true := i.digit d (by rw [hds]; exact List.mem_cons_self)
  have hrange : 48 ≤ d.toNat ∧ d.toNat ≤ 57 := by simpa [isDigit] using hd
  have hspace : isSpace d = false := by
    have h32 : d ≠ 32 := by
      rintro rfl
      exact absurd hrange.1 (by decide)
    simp only [isSpace, beq_eq_false_iff_ne.mpr h32, Bool.false_or, decide_eq_false_iff_not]
    omega
  have hsign : splitSign (d :: (ds ++ rightBracket :: t)) = (false, d :: (ds ++ rightBracket :: t)) := by
    have h₁ : d ≠ minus := by
      rintro rfl
      exact absurd hrange.1 (by decide)
    have h₂ : d ≠ plus := by
      rintro rfl
      exact absurd hrange.1 (by decide)
    rw [splitSign, if_neg h₁, if_neg h₂]
  have htake : (i.digits ++ rightBracket :: t).takeWhile isDigit = i.digits := by
    rw [List.takeWhile_append_of_pos i.digit, List.takeWhile_cons_of_neg (by decide), List.append_nil]
  have hskip : (i.digits ++ rightBracket :: t).dropWhile isSpace = i.digits ++ rightBracket :: t := by
    rw [hds, List.cons_append, List.dropWhile_cons_of_neg (by simp [hspace])]
  rw [stoi, hskip]
  rw [hds, List.cons_append, hsign]
  rw [hds, List.cons_append] at htake
  dsimp only
  rw [htake, ← hds]
  rw [if_neg i.ne_nil, if_neg Bool.false_ne_true]
  by_cases hbig : 2^31 ≤ i.value
  · have hbig' : (2^31 : ℤ) ≤ i.value := by exact_mod_cast hbig
    rw [if_pos hbig, if_pos (Or.inr (by exact hbig'))]
  · rw [if_neg hbig, if_neg]
    · rfl
    · rw [QueryIndex.value] at hbig
      omega

lemma rightBracket_not_mem_digits (i : QueryIndex) : rightBracket ∉ i.digits := by
  intro h
  exact absurd (i.digit _ h) (by decide)

lemma afterBracket_indexed (n : QueryName) (i : QueryIndex) (t : Text) :
    afterBracket (n.text ++ leftBracket :: (i.digits ++ rightBracket :: t)) = t := by
  have hfront : ∀ ch ∈ n.text ++ leftBracket :: i.digits, decide (ch ≠ rightBracket) = true := by
    intro ch hch
    rcases List.mem_append.mp hch with h | h
    · exact decide_eq_true (n.plain ch h).2.2
    · rcases List.mem_cons.mp h with rfl | h
      · rfl
      · exact decide_eq_true fun heq => rightBracket_not_mem_digits i (heq ▸ h)
  have heq : n.text ++ leftBracket :: (i.digits ++ rightBracket :: t) =
      (n.text ++ leftBracket :: i.digits) ++ rightBracket :: t := by simp
  rw [afterBracket, if_pos (by rw [heq]; simp), heq, List.dropWhile_append_of_pos hfront,
    List.dropWhile_cons_of_neg (by simp), List.tail_cons]

lemma queryText_eq_append (seg : Segment) (path : List Segment) :
    queryText seg path = seg.text ++ pathText path := by
  rw [queryText_eq, seg.text_eq, List.append_assoc]

lemma queryText_ne_nil (seg : Segment) (path : List Segment) : queryText seg path ≠ [] := by
  rw [queryText_eq]
  exact List.append_ne_nil_of_left_ne_nil seg.qname.ne_nil _

variable {it x y : CfgItem}

lemma queryConfig_name (n : QueryName) (path : List Segment) :
    it.queryConfig (queryText (.name n) path) =
      it.getSubItemByName n.text >>= fun sub =>
        match path with
        | [] => .ok sub
        | seg::path => sub.queryConfig (queryText seg path) := by
  have htext : queryText (.name n) path = n.text ++ pathText path := queryText_eq_append ..
  rw [CfgItem.queryConfig_eq, htext, dropWhile_name n (stops_pathText path),
    takeWhile_name n (stops_pathText path)]
  cases path with
  | nil =>
    dsimp only [pathText]
    rw [List.append_nil]
    cases it.getSubItemByName n.text <;> rfl
  | cons seg path =>
    dsimp only [pathText]
    rw [if_pos rfl]
    simp only [if_neg (queryText_ne_nil seg path)]

/-- A segment with an index leads to an item of the sub item, if the index is below the size of the list
as an `int`. -/
lemma queryConfig_indexed (n : QueryName) (i : QueryIndex) (path : List Segment) :
    it.queryConfig (queryText (.indexed n i) path) = .ok y ↔
      ∃ sub x, it.getSubItemByName n.text = .ok sub ∧ i.value < intLength sub.subItems.length ∧
        sub.subItems[i.value]? = some x ∧
        (afterAlias x.configName (pathText path) >>= x.queryWithin) = .ok y := by
  have htext : queryText (.indexed n i) path =
      n.text ++ leftBracket :: (i.digits ++ rightBracket :: pathText path) := by
    rw [queryText_eq_append, Segment.text]
    simp
  have hstop : Stops (leftBracket :: (i.digits ++ rightBracket :: pathText path)) := by
    intro ch h
    cases h
    rfl
  rw [CfgItem.queryConfig_eq, htext, dropWhile_name n hstop, takeWhile_name n hstop]
  dsimp only
  rw [if_neg (by decide), stoi_index, afterBracket_indexed]
  constructor
  · intro h
    obtain ⟨idx, hidx, h₁⟩ := bind_eq_ok.mp h
    obtain ⟨sub, hsub, h₂⟩ := bind_eq_ok.mp h₁
    obtain ⟨x, hx, h₃⟩ := bind_eq_ok.mp h₂
    split_ifs at hidx
    cases hidx
    obtain ⟨-, hlt, hget⟩ := CfgItem.getSubItemByIndex_eq_ok.mp hx
    exact ⟨sub, x, hsub, lt_intSize.mp hlt, hget, h₃⟩
  · rintro ⟨sub, x, hsub, hlt, hget, h⟩
    have hsmall : i.value < 2^31 := by
      rw [intLength] at hlt
      split_ifs at hlt <;> omega
    have hx : sub.getSubItemByIndex i.value = .ok x :=
      CfgItem.getSubItemByIndex_eq_ok.mpr ⟨by omega, lt_intSize.mpr hlt, hget⟩
    rw [if_neg (by omega), ok_bind, hsub, ok_bind, hx, ok_bind]
    exact h

lemma queryConfig_bracket (h : it.WellNamed) (t : Text) : it.queryConfig (leftBracket :: t) ≠ .ok y := by
  intro hok
  rw [CfgItem.queryConfig_eq] at hok
  have hplain : ¬isPlain leftBracket = true := by decide
  rw [List.dropWhile_cons_of_neg hplain, List.takeWhile_cons_of_neg hplain] at hok
  dsimp only at hok
  rw [if_neg (by decide)] at hok
  obtain ⟨idx, -, hok⟩ := bind_eq_ok.mp hok
  obtain ⟨sub, hsub, -⟩ := bind_eq_ok.mp hok
  obtain ⟨hmem, hname⟩ := CfgItem.getSubItemByName_mem hsub
  cases h with
  | intro _ named _ =>
    obtain ⟨n, hn⟩ := named sub hmem
    exact n.ne_nil (hn ▸ hname)

def Segment.rename (r : QueryName) : Segment → Segment
  | .name _ => .name r
  | .indexed _ i => .indexed r i

lemma Segment.text_rename (seg : Segment) (r : QueryName) :
    (seg.rename r).text = r.text ++ seg.indexText := by
  rw [text_eq]
  cases seg <;> rfl

lemma afterAlias_of_mismatch {a : Text} {t : Text} (h : ¬a <+: t) :
    afterAlias a (dot :: t) = .error (.cfgError (ascii "Name mismatch in array index")) := by
  rw [afterAlias, if_pos rfl, if_neg h]

lemma afterAlias_append (a t : Text) :
    afterAlias a (dot :: (a ++ t)) =
      match t with
      | [] => .ok none
      | ch::t => if ch = dot then .ok (some t) else .ok (some (ch::t)) := by
  rw [afterAlias, if_pos rfl, if_pos (List.prefix_append a t), List.drop_left]
  cases t <;> rfl

lemma queryWithin_path (h : x.WellNamed) {a : QueryName} (seg : Segment) (path : List Segment) :
    (afterAlias a.text (dot :: queryText seg path) >>= x.queryWithin) = .ok y ↔
      (∃ m, seg = .name m ∧ a.text = m.text ∧
        match path with
        | [] => x = y
        | seg'::path => x.queryConfig (queryText seg' path) = .ok y) ∨
      ∃ seg', seg.text = a.text ++ seg'.text ∧ x.queryConfig (queryText seg' path) = .ok y := by
  by_cases hprefix : a.text <+: seg.qname.text
  · obtain ⟨r, hr⟩ := hprefix
    have htext : seg.text = a.text ++ (r ++ seg.indexText) := by
      rw [seg.text_eq, ← hr, List.append_assoc]
    rw [queryText_eq, ← hr, List.append_assoc, afterAlias_append]
    cases r with
    | nil =>
      rw [List.nil_append]
      rw [List.append_nil] at hr
      rw [List.nil_append] at htext
      cases seg with
      | name m =>
        have hnot : ¬∃ seg' : Segment, Segment.text (.name m) = a.text ++ seg'.text ∧
            x.queryConfig (queryText seg' path) = .ok y := by
          rintro ⟨seg', hseg, -⟩
          rw [htext, List.append_right_inj, seg'.text_eq] at hseg
          exact seg'.qname.ne_nil (List.append_eq_nil_iff.mp hseg.symm).1
        rw [or_iff_left hnot]
        cases path with
        | nil =>
          constructor
          · intro h
            cases h
            exact ⟨m, rfl, hr, rfl⟩
          · rintro ⟨-, -, -, rfl⟩
            rfl
        | cons seg' path =>
          constructor
          · intro h
            exact ⟨m, rfl, hr, h⟩
          · rintro ⟨-, -, -, h⟩
            exact h
      | indexed m i =>
        constructor
        · intro hok
          exact absurd hok (queryConfig_bracket h _)
        · rintro (⟨m', hm, -⟩ | ⟨seg', hseg, -⟩)
          · cases hm
          · -- A segment does not begin with a bracket.
            rw [htext, List.append_right_inj] at hseg
            obtain ⟨ch, t, ht⟩ := List.exists_cons_of_ne_nil seg'.qname.ne_nil
            have hch := (seg'.qname.plain ch (ht ▸ List.mem_cons_self)).2.1
            rw [seg'.text_eq, ht] at hseg
            exact absurd (List.cons.inj hseg).1.symm hch
    | cons ch r =>
      have hplain : ∀ c ∈ ch::r, c ≠ dot ∧ c ≠ leftBracket ∧ c ≠ rightBracket := by
        intro c hc
        exact seg.qname.plain c (hr ▸ List.mem_append_right _ hc)
      let r' : QueryName := ⟨ch::r, List.cons_ne_nil ch r, hplain⟩
      have hrest : queryText (seg.rename r') path = ch::r ++ (seg.indexText ++ pathText path) := by
        rw [queryText_eq_append, Segment.text_rename, List.append_assoc]
      rw [List.cons_append]
      dsimp only
      rw [if_neg (hplain ch List.mem_cons_self).1, ok_bind, CfgItem.queryWithin, ← List.cons_append,
        ← hrest]
      constructor
      · intro hok
        exact Or.inr ⟨seg.rename r', by rw [htext, Segment.text_rename], hok⟩
      · rintro (⟨m, rfl, hm, -⟩ | ⟨seg', hseg, hok⟩)
        · have hnil := hr.trans hm.symm
          simp at hnil
        · rw [htext, List.append_right_inj] at hseg
          rw [queryText_eq_append, Segment.text_rename, hseg, ← queryText_eq_append]
          exact hok
  · have hfail : ¬a.text <+: queryText seg path := by
      rw [queryText_eq]
      exact fun h => hprefix (prefix_name (stops_indexText seg path) h)
    rw [afterAlias_of_mismatch hfail]
    constructor
    · intro h
      cases h
    · rintro (⟨m, rfl, hm, -⟩ | ⟨seg', hseg, -⟩)
      · exact absurd (hm ▸ List.prefix_refl _) hprefix
      · rw [seg.text_eq] at hseg
        have hstop : Stops seg.indexText := by
          have := stops_indexText seg []
          rwa [pathText, List.append_nil] at this
        exact absurd (prefix_name hstop ⟨_, hseg.symm⟩) hprefix

def CfgItem.Reads (it : CfgItem) (path : List Segment) (y : CfgItem) : Prop :=
  it.Denotes intLength path y ∨ it.Glued intLength path y

lemma reads_nil : it.Reads [] y ↔ it = y := by
  constructor
  · rintro (h | h)
    · cases h
      rfl
    · cases h
  · rintro rfl
    exact Or.inl (.here it)

lemma reads_name {n : QueryName} {path : List Segment} :
    it.Reads (.name n :: path) y ↔
      ∃ sub, (sub ∈ it.subItems ∧ sub.configName = n.text) ∧ sub.Reads path y := by
  constructor
  · rintro (h | h)
    · cases h with
      | name mem named rest => exact ⟨_, ⟨mem, named⟩, Or.inl rest⟩
    · cases h with
      | name mem named rest => exact ⟨_, ⟨mem, named⟩, Or.inr rest⟩
  · rintro ⟨sub, ⟨mem, named⟩, rest | rest⟩
    · exact Or.inl (.name mem named rest)
    · exact Or.inr (.name mem named rest)

lemma reads_index {n : QueryName} {i : QueryIndex} :
    it.Reads [.indexed n i] y ↔
      ∃ sub x, (sub ∈ it.subItems ∧ sub.configName = n.text) ∧
        i.value < intLength sub.subItems.length ∧ sub.subItems[i.value]? = some x ∧ x = y := by
  constructor
  · rintro (h | h)
    · cases h with
      | index mem named lt get => exact ⟨_, _, ⟨mem, named⟩, lt, get, rfl⟩
    · cases h
  · rintro ⟨sub, x, ⟨mem, named⟩, lt, get, rfl⟩
    exact Or.inl (.index mem named lt get)

lemma reads_alias {n : QueryName} {i : QueryIndex} {seg : Segment} {path : List Segment} :
    it.Reads (.indexed n i :: seg :: path) y ↔
      ∃ sub x, (sub ∈ it.subItems ∧ sub.configName = n.text) ∧
        i.value < intLength sub.subItems.length ∧ sub.subItems[i.value]? = some x ∧
        ((∃ m, seg = .name m ∧ x.configName = m.text ∧ x.Reads path y) ∨
          ∃ seg' : Segment, seg.text = x.configName ++ seg'.text ∧ x.Reads (seg'::path) y) := by
  constructor
  · rintro (h | h)
    · cases h with
      | indexed mem named lt get repeated rest =>
        exact ⟨_, _, ⟨mem, named⟩, lt, get, Or.inl ⟨_, rfl, repeated, Or.inl rest⟩⟩
    · cases h with
      | here mem named lt get begins rest =>
        exact ⟨_, _, ⟨mem, named⟩, lt, get, Or.inr ⟨_, begins, Or.inl rest⟩⟩
      | again mem named lt get begins rest =>
        exact ⟨_, _, ⟨mem, named⟩, lt, get, Or.inr ⟨_, begins, Or.inr rest⟩⟩
      | indexed mem named lt get repeated rest =>
        exact ⟨_, _, ⟨mem, named⟩, lt, get, Or.inl ⟨_, rfl, repeated, Or.inr rest⟩⟩
  · rintro ⟨sub, x, ⟨mem, named⟩, lt, get, ⟨m, rfl, repeated, rest | rest⟩ | ⟨seg', begins, rest | rest⟩⟩
    · exact Or.inl (.indexed mem named lt get repeated rest)
    · exact Or.inr (.indexed mem named lt get repeated rest)
    · exact Or.inr (.here mem named lt get begins rest)
    · exact Or.inr (.again mem named lt get begins rest)

lemma queryConfig_reads (h : it.WellNamed) (seg : Segment) (path : List Segment) :
    it.queryConfig (queryText seg path) = .ok y ↔ it.Reads (seg::path) y := by
  induction hk : path.length using Nat.strong_induction_on generalizing it seg path y with
  | h k ih =>
    subst hk
    obtain ⟨distinct, named, hsubs⟩ := h
    cases seg with
    | name n =>
      rw [queryConfig_name, bind_eq_ok, reads_name]
      simp only [CfgItem.getSubItemByName_eq_ok distinct]
      apply exists_congr
      intro sub
      apply and_congr_right
      rintro ⟨hmem, -⟩
      cases path with
      | nil => rw [reads_nil, Except.ok.injEq]
      | cons seg' path => exact ih path.length (by simp) (hsubs sub hmem) seg' path rfl
    | indexed n i =>
      rw [queryConfig_indexed]
      simp only [CfgItem.getSubItemByName_eq_ok distinct]
      cases path with
      | nil =>
        rw [reads_index]
        simp only [pathText, afterAlias, ok_bind, CfgItem.queryWithin, Except.ok.injEq]
      | cons seg' path =>
        rw [reads_alias]
        apply exists_congr
        intro sub
        apply exists_congr
        intro x
        apply and_congr_right
        rintro ⟨hmem, -⟩
        apply and_congr_right
        intro _
        apply and_congr_right
        intro hget
        obtain ⟨-, hnamed, hbelow⟩ := hsubs sub hmem
        have hx := List.mem_of_getElem? hget
        obtain ⟨a, ha⟩ := hnamed x hx
        rw [pathText, ha, queryWithin_path (hbelow x hx)]
        apply or_congr
        · apply exists_congr
          intro m
          apply and_congr_right
          rintro rfl
          apply and_congr_right
          intro _
          cases path with
          | nil => exact reads_nil.symm
          | cons seg' path => exact ih path.length (by simp) (hbelow x hx) seg' path rfl
        · apply exists_congr
          intro seg''
          apply and_congr_right
          intro _
          exact ih path.length (by simp) (hbelow x hx) seg'' path rfl

end Reading

section Exactness

variable {it y y' : CfgItem} {path : List Segment}

lemma CfgItem.Denotes.mono {b c : ℕ → ℕ} (hbc : ∀ n, b n ≤ c n) (h : it.Denotes b path y) :
    it.Denotes c path y := by
  induction h with
  | here it => exact .here it
  | name mem named _ ih => exact .name mem named ih
  | index mem named lt get => exact .index mem named (lt_of_lt_of_le lt (hbc _)) get
  | indexed mem named lt get repeated _ ih =>
    exact .indexed mem named (lt_of_lt_of_le lt (hbc _)) get repeated ih

lemma CfgItem.WellNamed.of_mem {sub : CfgItem} (h : it.WellNamed) (hsub : sub ∈ it.subItems) :
    sub.WellNamed := by
  obtain ⟨-, -, hsubs⟩ := h
  exact hsubs sub hsub

lemma CfgItem.Denotes.not_glued {b c : ℕ → ℕ} (hnamed : it.WellNamed) (h : it.Denotes b path y) :
    ¬it.Glued c path y' := by
  induction h with
  | here it => rintro ⟨⟩
  | name mem named _ ih =>
    obtain ⟨distinct, -, hsubs⟩ := hnamed
    intro hglued
    cases hglued with
    | name mem' named' rest =>
      have heq := List.inj_on_of_nodup_map distinct mem mem' (named.trans named'.symm)
      exact ih (hsubs _ mem) (heq ▸ rest)
  | index => rintro ⟨⟩
  | @indexed it sub x y n m i path mem named lt get repeated _ ih =>
    obtain ⟨distinct, -, hsubs⟩ := hnamed
    intro hglued
    have hsame : ∀ {sub'}, sub' ∈ it.subItems → configName sub' = n.text → sub' = sub :=
      fun mem' named' => List.inj_on_of_nodup_map distinct mem' mem (named'.trans named.symm)
    -- The next segment is the name of the item, so nothing is left of it behind that name.
    have hbegins : ∀ seg' : Segment, Segment.text (.name m) ≠ x.configName ++ seg'.text := by
      intro seg' heq
      rw [Segment.text, ← repeated, List.self_eq_append_right, seg'.text_eq] at heq
      exact seg'.qname.ne_nil (List.append_eq_nil_iff.mp heq).1
    cases hglued with
    | here mem' named' _ get' begins =>
      cases hsame mem' named'
      cases get.symm.trans get'
      exact hbegins _ begins
    | again mem' named' _ get' begins =>
      cases hsame mem' named'
      cases get.symm.trans get'
      exact hbegins _ begins
    | indexed mem' named' _ get' _ rest =>
      cases hsame mem' named'
      cases get.symm.trans get'
      exact ih ((hsubs _ mem).of_mem (List.mem_of_getElem? get)) rest

def CfgItem.Exact (it : CfgItem) (seg : Segment) (path : List Segment) : Prop :=
  ∀ y, it.queryConfig (queryText seg path) = .ok y ↔ it.Denotes id (seg::path) y

lemma intLength_le (n : ℕ) : intLength n ≤ n := by
  rw [intLength]
  split_ifs
  · exact Nat.mod_le n (2^32)
  · exact Nat.zero_le n

/-- A query is exact unless it uses an index that the size of its list as an `int` excludes, or is read
with a segment glued to the name of an indexed item. -/
theorem query_exact_iff (it : CfgItem) (h : it.WellNamed) (seg : Segment) (path : List Segment) :
    it.Exact seg path ↔
      (∀ y, it.Denotes id (seg::path) y → it.Denotes intLength (seg::path) y) ∧
        ¬∃ y, it.Glued intLength (seg::path) y := by
  constructor
  · intro hexact
    constructor
    · intro y hy
      rcases (queryConfig_reads h seg path).mp ((hexact y).mpr hy) with hread | hglued
      · exact hread
      · exact absurd hglued (hy.not_glued h)
    · rintro ⟨y, hglued⟩
      have hok := (queryConfig_reads h seg path).mpr (Or.inr hglued)
      exact ((hexact y).mp hok).not_glued h hglued
  · rintro ⟨hrange, hglued⟩ y
    rw [queryConfig_reads h seg path]
    constructor
    · rintro (hread | hread)
      · exact hread.mono intLength_le
      · exact absurd ⟨y, hread⟩ hglued
    · intro hy
      exact Or.inl (hrange y hy)

def sampleTree : CfgItem :=
  .mk .struct [] [] [.mk .list (ascii "l") [] [.mk .struct (ascii "a") []
    [.mk .value (ascii "b") (ascii "1") []]]]

def nameL : QueryName := ⟨ascii "l", by decide +kernel, by decide +kernel⟩
def nameA : QueryName := ⟨ascii "a", by decide +kernel, by decide +kernel⟩
def nameB : QueryName := ⟨ascii "b", by decide +kernel, by decide +kernel⟩
def nameAB : QueryName := ⟨ascii "ab", by decide +kernel, by decide +kernel⟩
def index0 : QueryIndex := ⟨ascii "0", by decide +kernel, by decide +kernel⟩

lemma CfgItem.WellNamed.single {t : CfgItemType} {n v : Text} {sub : CfgItem} (q : QueryName)
    (hq : sub.configName = q.text) (h : sub.WellNamed) : (CfgItem.mk t n v [sub]).WellNamed := by
  refine .intro (List.nodup_singleton _) ?_ ?_
  · intro sub' hsub
    cases List.mem_singleton.mp hsub
    exact ⟨q, hq⟩
  · intro sub' hsub
    cases List.mem_singleton.mp hsub
    exact h

lemma CfgItem.WellNamed.childless {t : CfgItemType} {n v : Text} : (CfgItem.mk t n v []).WellNamed :=
  .intro .nil (by rintro _ ⟨⟩) (by rintro _ ⟨⟩)

lemma sampleTree_wellNamed : sampleTree.WellNamed :=
  .single nameL rfl (.single nameA rfl (.single nameB rfl .childless))

theorem sampleTree_exact :
    sampleTree.WellNamed ∧ sampleTree.Exact (.indexed nameL index0) [.name nameA, .name nameB] := by
  refine ⟨sampleTree_wellNamed, (query_exact_iff _ sampleTree_wellNamed _ _).mpr ⟨?_, ?_⟩⟩
  · intro y hy
    cases hy with
    | indexed mem named _ get repeated rest =>
      cases rest with
      | name mem' named' rest =>
        cases rest
        cases List.mem_singleton.mp mem
        exact .indexed mem named (by decide +kernel) get repeated (.name mem' named' (.here _))
  · rintro ⟨y, hglued⟩
    have hdenotes : sampleTree.Denotes id [.indexed nameL index0, .name nameA, .name nameB]
        (.mk .value (ascii "b") (ascii "1") []) :=
      .indexed List.mem_cons_self rfl (by decide +kernel) rfl rfl
        (.name List.mem_cons_self rfl (.here _))
    exact hdenotes.not_glued sampleTree_wellNamed hglued

/-- The query `l[0].ab` returns the value `b`, though `ab` is not the name of the item `l[0]`. -/
theorem glued_query_answered :
    sampleTree.WellNamed ∧ queryText (.indexed nameL index0) [.name nameAB] = ascii "l[0].ab" ∧
      sampleTree.queryConfig (ascii "l[0].ab") = .ok (.mk .value (ascii "b") (ascii "1") []) ∧
      ¬∃ y, sampleTree.Denotes id [.indexed nameL index0, .name nameAB] y := by
  have htext : queryText (.indexed nameL index0) [.name nameAB] = ascii "l[0].ab" := by
    decide +kernel
  refine ⟨sampleTree_wellNamed, htext, ?_, ?_⟩
  · rw [← htext, queryConfig_reads sampleTree_wellNamed]
    have hb : (CfgItem.mk .struct (ascii "a") [] [.mk .value (ascii "b") (ascii "1") []]).Denotes
        intLength [.name nameB] (.mk .value (ascii "b") (ascii "1") []) :=
      .name List.mem_cons_self rfl (.here _)
    exact Or.inr (.here List.mem_cons_self rfl (by decide +kernel) rfl (by decide +kernel) hb)
  · rintro ⟨y, hy⟩
    cases hy with
    | indexed mem _ _ get repeated _ =>
      cases List.mem_singleton.mp mem
      cases get
      exact absurd repeated (by decide +kernel)

end Exactness

end Bfs.Utils
