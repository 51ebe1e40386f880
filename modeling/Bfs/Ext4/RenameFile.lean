import Bfs.Ext4.Handles

/-! The rename of the lwext4 backend: one entry of the open file table is changed, a file at the target is
removed, and then lwext4 renames. -/
namespace Bfs.Ext4
open Bfs.Rpc

section Model

abbrev Names (β : Type) := Path → Option (Kind × β)

/-- What `ext4_fremove`, `ext4_frename` and `ext4_all_time_set` return, if they are called; 0 is `EOK`. -/
structure Answers where
  removed : Int32
  renamed : Int32
  touched : Int32

variable {α β : Type}

/-- What stands at `path` and below, seen from there; the rest begins with a slash. -/
def behind (path q : Path) : Option Path :=
  if path.isPrefixOf q then
    match q.drop path.length with
    | [] => some []
    | b :: rest => if b = 47 then some (b :: rest) else none
  else none

def Names.moved (files : Names β) (frPath toPath : Path) : Names β := fun q =>
  match behind toPath q with
  | some rest => files (frPath ++ rest)
  | none => if (behind frPath q).isSome then none else files q

def Names.removed (files : Names β) (path : Path) : Names β := Function.update files path none

/-- `ext4_inode_exist` for a regular file. -/
def Names.hasFile (files : Names β) (path : Path) : Bool := (files path).any fun n => n.1 = .file

def Names.cleared (files : Names β) (path : Path) : Names β :=
  if files.hasFile path then files.removed path else files

def HandleTab.renamePath (s : HandleTab α) (frPath toPath : Path) : HandleTab α :=
  match s.openFileTab.toList.find? fun e => e.2.path = frPath with
  | none => s
  | some (fh, _) =>
    { s with openFileTab := s.openFileTab.modify fh fun of => { of with path := toPath } }

/-- `__do_lwext4_rename`. -/
def doLwext4Rename (s : HandleTab α) (files : Names β) (frPath toPath : Path) (a : Answers) :
    Option (Int32 × HandleTab α × Names β) :=
  if s.locked then none
  else
    let s := s.renamePath frPath toPath
    if files.hasFile toPath ∧ a.removed ≠ 0 then some (a.removed, s, files)
    else
      let files := files.cleared toPath
      if a.renamed ≠ 0 then some (a.renamed, s, files)
      else
        let files := files.moved frPath toPath
        if a.touched ≠ 0 then some (bfsFailure, s, files) else some (0, s, files)

end Model

section Property

variable {α β : Type}

def Answers.Possible (a : Answers) (files : Names β) (frPath toPath : Path) : Prop :=
  a.renamed = 0 → behind toPath frPath = none ∧ files.cleared toPath frPath ≠ none ∧
    files.cleared toPath toPath = none

def HandleTab.pathOf (s : HandleTab α) (fh : UInt64) : Option Path := s.openFileTab[fh]?.map OpenFile.path

def RenameExact (s : HandleTab α) (files : Names β) (frPath toPath : Path) (ret : Int32)
    (s' : HandleTab α) (files' : Names β) : Prop :=
  (ret ≠ 0 → files' = files ∧ ∀ fh, s'.pathOf fh = s.pathOf fh) ∧
    (ret = 0 → files' = (files.removed toPath).moved frPath toPath ∧
      ∀ fh, s'.pathOf fh = (s.pathOf fh).map fun p => if p = frPath then toPath else p)

def Answers.FailsFirst (a : Answers) (files : Names β) (toPath : Path) : Prop :=
  if files.hasFile toPath then a.removed ≠ 0 else a.renamed ≠ 0

def Answers.Succeeds (a : Answers) (files : Names β) (toPath : Path) : Prop :=
  (files.hasFile toPath → a.removed = 0) ∧ a.renamed = 0 ∧ a.touched = 0

end Property

section Handles

variable {α : Type} {s : HandleTab α} {frPath toPath : Path}

lemma renamePath_cases (s : HandleTab α) (frPath toPath : Path) :
    ((∀ fh, s.pathOf fh ≠ some frPath) ∧ s.renamePath frPath toPath = s) ∨
      ∃ fh₀, s.pathOf fh₀ = some frPath ∧ ∀ fh, (s.renamePath frPath toPath).pathOf fh =
        if fh = fh₀ then some toPath else s.pathOf fh := by
  rw [HandleTab.renamePath]
  cases hfind : s.openFileTab.toList.find? fun e => e.2.path = frPath with
  | none =>
    refine .inl ⟨?_, rfl⟩
    intro fh hfh
    obtain ⟨of, hof, hpath⟩ := Option.map_eq_some_iff.mp hfh
    have hmem := Std.TreeMap.mem_toList_iff_getElem?_eq_some.mpr hof
    exact (List.find?_eq_none.mp hfind) (fh, of) hmem (by simpa using hpath)
  | some e =>
    obtain ⟨fh₀, of⟩ := e
    have hpath : of.path = frPath := by simpa using List.find?_some hfind
    have hof := Std.TreeMap.mem_toList_iff_getElem?_eq_some.mp (List.mem_of_find?_eq_some hfind)
    refine .inr ⟨fh₀, ?_, ?_⟩
    · rw [HandleTab.pathOf, hof, Option.map_some, hpath]
    · intro fh
      simp only [HandleTab.pathOf, Std.TreeMap.getElem?_modify]
      by_cases hfh : fh = fh₀
      · rw [if_pos (Std.compare_eq_iff_eq.mpr hfh.symm), if_pos hfh, hof]
        rfl
      · rw [if_neg fun hc => hfh (Std.compare_eq_iff_eq.mp hc).symm, if_neg hfh]

lemma renamePath_same_iff :
    (∀ fh, (s.renamePath frPath toPath).pathOf fh = s.pathOf fh) ↔
      frPath = toPath ∨ ∀ fh, s.pathOf fh ≠ some frPath := by
  rcases renamePath_cases s frPath toPath with ⟨hnone, heq⟩ | ⟨fh₀, hfh₀, heq⟩
  · rw [heq]
    exact iff_of_true (fun _ => rfl) (.inr hnone)
  · constructor
    · intro hsame
      have hto := heq fh₀
      rw [hsame, if_pos rfl, hfh₀, Option.some.injEq] at hto
      exact .inl hto
    · rintro (hpath | hnone) fh
      · rw [heq]
        split_ifs with hfh
        · rw [hfh, hfh₀, hpath]
        · rfl
      · exact absurd hfh₀ (hnone fh₀)

lemma renamePath_all_iff (hne : frPath ≠ toPath) :
    (∀ fh, (s.renamePath frPath toPath).pathOf fh =
        (s.pathOf fh).map fun p => if p = frPath then toPath else p) ↔
      ∀ fh fh', s.pathOf fh = some frPath → s.pathOf fh' = some frPath → fh = fh' := by
  have hkeep : ∀ fh, s.pathOf fh ≠ some frPath →
      ((s.pathOf fh).map fun p => if p = frPath then toPath else p) = s.pathOf fh := by
    intro fh hfh
    cases hp : s.pathOf fh with
    | none => rfl
    | some p =>
      have hpne : p ≠ frPath := by
        rintro rfl
        exact hfh hp
      rw [Option.map_some, if_neg hpne]
  rcases renamePath_cases s frPath toPath with ⟨hnone, heq⟩ | ⟨fh₀, hfh₀, heq⟩
  · rw [heq]
    exact iff_of_true (fun fh => (hkeep fh (hnone fh)).symm) fun fh _ hfh => absurd hfh (hnone fh)
  · constructor
    · have hall : (∀ fh, (s.renamePath frPath toPath).pathOf fh =
          (s.pathOf fh).map fun p => if p = frPath then toPath else p) →
          ∀ fh, s.pathOf fh = some frPath → fh = fh₀ := by
        intro h fh hfh
        by_contra hfh₀'
        have hto := h fh
        rw [heq, if_neg hfh₀', hfh, Option.map_some, if_pos rfl, Option.some.injEq] at hto
        exact hne hto
      intro h fh fh' hfh hfh'
      rw [hall h fh hfh, hall h fh' hfh']
    · intro hone fh
      rw [heq]
      split_ifs with hfh
      · rw [hfh, hfh₀, Option.map_some, if_pos rfl]
      · rw [hkeep fh fun hpath => hfh (hone fh fh₀ hpath hfh₀)]

end Handles

section Files

variable {β : Type} {files : Names β} {frPath toPath : Path}

lemma behind_self (path : Path) : behind path path = some [] := by
  simp [behind]

lemma removed_ne (hfound : files.hasFile toPath = true) : files.removed toPath ≠ files := by
  intro heq
  have hat := congrFun heq toPath
  rw [Names.removed, Function.update_self] at hat
  rw [Names.hasFile, ← hat] at hfound
  cases hfound

lemma cleared_of_hasFile (hfound : files.hasFile toPath = true) :
    files.cleared toPath = files.removed toPath := if_pos hfound

lemma cleared_of_not (hfound : ¬files.hasFile toPath = true) : files.cleared toPath = files :=
  if_neg hfound

lemma moved_cleared_ne (hbehind : behind toPath frPath = none)
    (hfrom : files.cleared toPath frPath ≠ none) :
    (files.cleared toPath).moved frPath toPath ≠ files := by
  intro heq
  have hat := congrFun heq frPath
  rw [Names.moved, hbehind, behind_self] at hat
  have hfiles : files.cleared toPath frPath = files frPath := by
    rw [Names.cleared]
    split_ifs
    · have hne : frPath ≠ toPath := by
        rintro rfl
        rw [behind_self] at hbehind
        cases hbehind
      rw [Names.removed, Function.update_of_ne hne]
    · rfl
  rw [hfiles, ← hat] at hfrom
  exact hfrom rfl

lemma cleared_eq_removed (hto : files.cleared toPath toPath = none) :
    files.cleared toPath = files.removed toPath := by
  by_cases hfound : files.hasFile toPath = true
  · exact cleared_of_hasFile hfound
  · rw [cleared_of_not hfound] at hto ⊢
    rw [Names.removed, ← hto, Function.update_eq_self]

end Files

section Cases

variable {α β : Type} {s s' : HandleTab α} {files : Names β} {frPath toPath : Path} {a : Answers}
  {ret : Int32}

lemma renameExact_error_iff (hret : ret ≠ 0) :
    RenameExact s files frPath toPath ret (s.renamePath frPath toPath) files ↔
      frPath = toPath ∨ ∀ fh, s.pathOf fh ≠ some frPath := by
  rw [← renamePath_same_iff]
  exact ⟨fun h => (h.1 hret).2, fun h => ⟨fun _ => ⟨rfl, h⟩, fun hzero => absurd hzero hret⟩⟩

lemma not_renameExact_error (hret : ret ≠ 0) {files' : Names β} (hfiles : files' ≠ files) :
    ¬RenameExact s files frPath toPath ret s' files' := fun h => hfiles (h.1 hret).1

lemma renameExact_ok_iff (hbehind : behind toPath frPath = none)
    (hto : files.cleared toPath toPath = none) :
    RenameExact s files frPath toPath 0 (s.renamePath frPath toPath)
        ((files.cleared toPath).moved frPath toPath) ↔
      ∀ fh fh', s.pathOf fh = some frPath → s.pathOf fh' = some frPath → fh = fh' := by
  have hne : frPath ≠ toPath := by
    rintro rfl
    rw [behind_self] at hbehind
    cases hbehind
  rw [← renamePath_all_iff hne, cleared_eq_removed hto]
  exact ⟨fun h => (h.2 rfl).2, fun h => ⟨fun hzero => absurd rfl hzero, fun _ => ⟨rfl, h⟩⟩⟩

lemma forall_eq_some_iff {r : Int32 × HandleTab α × Names β}
    {P : Int32 → HandleTab α → Names β → Prop} :
    (∀ ret s' files', some r = some (ret, s', files') → P ret s' files') ↔ P r.1 r.2.1 r.2.2 :=
  ⟨fun h => h _ _ _ rfl, by rintro h _ _ _ ⟨⟩; exact h⟩

lemma rename_target_kept (hlocked : ¬s.locked = true)
    (hremoved : files.hasFile toPath = true ∧ a.removed ≠ 0) :
    doLwext4Rename s files frPath toPath a = some (a.removed, s.renamePath frPath toPath, files) := by
  rw [doLwext4Rename, if_neg hlocked]
  exact if_pos hremoved

lemma rename_refused (hlocked : ¬s.locked = true)
    (hremoved : ¬(files.hasFile toPath = true ∧ a.removed ≠ 0)) (hrenamed : a.renamed ≠ 0) :
    doLwext4Rename s files frPath toPath a =
      some (a.renamed, s.renamePath frPath toPath, files.cleared toPath) := by
  rw [doLwext4Rename, if_neg hlocked]
  exact (if_neg hremoved).trans (if_pos hrenamed)

lemma rename_untouched (hlocked : ¬s.locked = true)
    (hremoved : ¬(files.hasFile toPath = true ∧ a.removed ≠ 0)) (hrenamed : a.renamed = 0)
    (htouched : a.touched ≠ 0) : doLwext4Rename s files frPath toPath a =
      some (bfsFailure, s.renamePath frPath toPath, (files.cleared toPath).moved frPath toPath) := by
  rw [doLwext4Rename, if_neg hlocked]
  exact (if_neg hremoved).trans ((if_neg (not_not.mpr hrenamed)).trans (if_pos htouched))

lemma rename_done (hlocked : ¬s.locked = true)
    (hremoved : ¬(files.hasFile toPath = true ∧ a.removed ≠ 0)) (hrenamed : a.renamed = 0)
    (htouched : a.touched = 0) : doLwext4Rename s files frPath toPath a =
      some (0, s.renamePath frPath toPath, (files.cleared toPath).moved frPath toPath) := by
  rw [doLwext4Rename, if_neg hlocked]
  exact (if_neg hremoved).trans
    ((if_neg (not_not.mpr hrenamed)).trans (if_neg (not_not.mpr htouched)))

end Cases

/-- A rename keeps everything on failure and is exact on success, for all answers of lwext4, if and only
if it fails before a file is changed, with no handle on the source or equal paths, or succeeds with at
most one handle on the source. -/
theorem rename_exact_iff {α β : Type} (s : HandleTab α) (files : Names β) (frPath toPath : Path)
    (a : Answers) (ha : a.Possible files frPath toPath) :
    (∀ ret s' files', doLwext4Rename s files frPath toPath a = some (ret, s', files') →
        RenameExact s files frPath toPath ret s' files') ↔
      s.locked = true ∨
      (a.FailsFirst files toPath ∧ (frPath = toPath ∨ ∀ fh, s.pathOf fh ≠ some frPath)) ∨
      (a.Succeeds files toPath ∧
        ∀ fh fh', s.pathOf fh = some frPath → s.pathOf fh' = some frPath → fh = fh') := by
  by_cases hlocked : s.locked = true
  · refine iff_of_true ?_ (.inl hlocked)
    intro ret s' files' heq
    rw [doLwext4Rename, if_pos hlocked] at heq
    cases heq
  rw [or_iff_right hlocked]
  by_cases hremoved : files.hasFile toPath = true ∧ a.removed ≠ 0
  · -- the target is not removed
    have hfirst : a.FailsFirst files toPath := by
      rw [Answers.FailsFirst, if_pos hremoved.1]
      exact hremoved.2
    have hsucc : ¬a.Succeeds files toPath := fun h => hremoved.2 (h.1 hremoved.1)
    rw [or_iff_left fun h => hsucc h.1, and_iff_right hfirst, rename_target_kept hlocked hremoved,
      forall_eq_some_iff, renameExact_error_iff hremoved.2]
  by_cases hrenamed : a.renamed = 0
  · obtain ⟨hbehind, hfrom, hto⟩ := ha hrenamed
    have hfirst : ¬a.FailsFirst files toPath := by
      rw [Answers.FailsFirst]
      split_ifs with hfound
      · exact fun hne => hremoved ⟨hfound, hne⟩
      · exact fun hne => hne hrenamed
    rw [or_iff_right fun h => hfirst h.1]
    by_cases htouched : a.touched = 0
    · have hsucc : a.Succeeds files toPath :=
        ⟨fun hfound => by_contra fun hne => hremoved ⟨hfound, hne⟩, hrenamed, htouched⟩
      rw [rename_done hlocked hremoved hrenamed htouched, forall_eq_some_iff,
        renameExact_ok_iff hbehind hto, and_iff_right hsucc]
    · rw [rename_untouched hlocked hremoved hrenamed htouched, forall_eq_some_iff]
      have hfail : bfsFailure ≠ 0 := by decide
      exact iff_of_false (not_renameExact_error hfail (moved_cleared_ne hbehind hfrom))
        fun h => htouched h.1.2.2
  · have hsucc : ¬a.Succeeds files toPath := fun h => hrenamed h.2.1
    rw [rename_refused hlocked hremoved hrenamed, forall_eq_some_iff, or_iff_left fun h => hsucc h.1]
    by_cases hfound : files.hasFile toPath = true
    · rw [cleared_of_hasFile hfound]
      refine iff_of_false (not_renameExact_error hrenamed (removed_ne hfound)) fun h => ?_
      rw [Answers.FailsFirst, if_pos hfound] at h
      exact hremoved ⟨hfound, h.1⟩
    · have hfirst : a.FailsFirst files toPath := by
        rw [Answers.FailsFirst, if_neg hfound]
        exact hrenamed
      rw [cleared_of_not hfound, renameExact_error_iff hrenamed, and_iff_right hfirst]

def oneHandle : HandleTab Unit := (HandleTab.init Unit).added .file [47, 97] ()

def oneFile : Names ℕ := fun q => if q = [47, 97] then some (.file, 1) else none

theorem rename_exact_new_path :
    (Answers.mk 0 0 0).Possible oneFile [47, 97] [47, 98] ∧
      ∀ ret s' files', doLwext4Rename oneHandle oneFile [47, 97] [47, 98] ⟨0, 0, 0⟩ =
        some (ret, s', files') → RenameExact oneHandle oneFile [47, 97] [47, 98] ret s' files' := by
  have hpos : (Answers.mk 0 0 0).Possible oneFile [47, 97] [47, 98] := fun _ => by decide
  refine ⟨hpos, (rename_exact_iff _ _ _ _ _ hpos).mpr (.inr (.inr ⟨⟨fun _ => rfl, rfl, rfl⟩, ?_⟩))⟩
  have hone : ∀ fh, oneHandle.pathOf fh = some [47, 97] → fh = (HandleTab.init Unit).next .file := by
    intro fh hfh
    by_contra hne
    have hget := HandleTab.getElem?_added (s := HandleTab.init Unit) .file [47, 97] () rfl fh
    rw [if_neg hne] at hget
    rw [HandleTab.pathOf, oneHandle, hget] at hfh
    simp [HandleTab.init] at hfh
  intro fh fh' hfh hfh'
  rw [hone fh hfh, hone fh' hfh']

/-- A file that is renamed to its own path is removed, and the rename then finds nothing (`ENOENT`). -/
theorem rename_to_itself_removes :
    (Answers.mk 0 2 0).Possible oneFile [47, 97] [47, 97] ∧
      doLwext4Rename oneHandle oneFile [47, 97] [47, 97] ⟨0, 2, 0⟩ =
        some (2, oneHandle.renamePath [47, 97] [47, 97], oneFile.removed [47, 97]) ∧
      oneFile [47, 97] = some (.file, 1) ∧ oneFile.removed [47, 97] [47, 97] = none ∧
      ¬RenameExact oneHandle oneFile [47, 97] [47, 97] 2 (oneHandle.renamePath [47, 97] [47, 97])
        (oneFile.removed [47, 97]) := by
  refine ⟨fun h => absurd h (by decide), rfl, rfl, rfl, ?_⟩
  exact not_renameExact_error (by decide) (removed_ne rfl)

end Bfs.Ext4
