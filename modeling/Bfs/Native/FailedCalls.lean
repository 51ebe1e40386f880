import Bfs.Native.AccessDecision

/-! Refused calls of `bfs_unlink`, `bfs_rmdir` and `bfs_rename`: which of them leave the volume as it
was. -/
namespace Bfs.Native
open ByteSeq Bfs.Fs Fallible

section Keeping

variable {α β : Type} {s : FsState}

def KeepsRefused (x : FsM α) (s : FsState) : Prop :=
  ∀ ⦃e s'⦄, x s = (.error e, s') → e.isClient = true → s' = s

lemma InternalProg.keepsRefused {x : FsM α} (hx : InternalProg x) : KeepsRefused x s := by
  intro e s' h hclient
  rw [hx h] at hclient
  cases hclient

lemma KeepsRefused.reads_bind {f : FsState → Except FsErr α} {g : α → FsM β}
    (h : ∀ a, f s = .ok a → KeepsRefused (g a) s) : KeepsRefused (Prog.reads f >>= g) s := by
  intro e s' hrun hclient
  rcases Prog.reads_bind_eq_error.mp hrun with ⟨-, rfl⟩ | ⟨a, ha, hrun⟩
  · rfl
  · exact h a ha hrun hclient

lemma KeepsRefused.require_bind {p : Prop} [Decidable p] {e : FsErr} {g : Unit → FsM β}
    (h : p → KeepsRefused (g ()) s) : KeepsRefused (Prog.require p e >>= g) s := by
  intro e' s' hrun hclient
  by_cases hp : p
  · rw [Prog.require_bind_of hp] at hrun
    exact h hp hrun hclient
  · rw [Prog.require_bind_of_not hp] at hrun
    cases hrun
    rfl

end Keeping

section Calls

inductive Removal
  | unlink (path : Name)
  | rmdir (path : Name)
  | rename (frPath toPath : Name)

def Removal.exec (uid : UInt32) : Removal → FsM Unit
  | .unlink path => bfsUnlink uid path
  | .rmdir path => bfsRmdir uid path
  | .rename frPath toPath => bfsRename uid frPath toPath

def Admits (s : FsState) (uid : UInt32) (path : Name) : Prop :=
  (∀ e, getDe s uid path = .error e → e.isClient = false) ∧
    ∀ d r, getDe s uid path = .ok (some d) → readInode s d.ino = .ok r → r.denies uid = false

def Removal.Early (uid : UInt32) (s : FsState) : Removal → Prop
  | .unlink _ | .rmdir _ => True
  | .rename frPath toPath =>
    ∀ newI s₁, renameSource uid frPath s = (.ok newI, s₁) → Admits s₁ uid toPath

variable {s s₁ : FsState} {uid : UInt32} {path toPath : Name} {newI : UInt64}

lemma keepsRefused_removeFile (hs : s.Tree) {p : DirEntry × Inode}
    (hp : accessFile s uid path = .ok p) : KeepsRefused (removeFile uid path p.1 p.2) s := by
  intro e s' h hclient
  rw [removeFile_internal hs hp h] at hclient
  cases hclient

lemma keepsRefused_renameTarget : KeepsRefused (renameTarget uid toPath newI) s := by
  apply KeepsRefused.reads_bind
  intro found _
  cases found with
  | none =>
    exact KeepsRefused.reads_bind fun par _ => (addDentry_internal par newI toPath).keepsRefused
  | some d =>
    apply KeepsRefused.reads_bind
    intro r _
    apply KeepsRefused.require_bind
    intro _
    exact InternalProg.keepsRefused (Prog.Raises.bind (deallocIno_internal r) fun _ =>
      rewriteDentry_internal d d.deName newI)

lemma Admits.internal (h : Admits s uid toPath) {e : FsErr} {s' : FsState}
    (hrun : renameTarget uid toPath newI s = (.error e, s')) : e.isClient = false := by
  rcases Prog.reads_bind_eq_error.mp hrun with ⟨hget, -⟩ | ⟨found, hget, hrun⟩
  · exact h.1 e hget
  · cases found with
    | none =>
      have hroot : toPath ≠ rootPath := by
        rintro rfl
        cases hget
      obtain ⟨f, hf⟩ := entryOf_dirname (getDe_eq_ok hget).2
      rcases Prog.reads_bind_eq_error.mp hrun with ⟨hpar, -⟩ | ⟨par, -, hrun⟩
      · refine parentInode_internal ?_ (not_denied_parent hget hroot) e hpar
        rw [hf]
        exact Fails.ok f
      · exact addDentry_internal par newI toPath hrun
    | some d =>
      rcases Prog.reads_bind_eq_error.mp hrun with ⟨hr, -⟩ | ⟨r, hr, hrun⟩
      · exact readInode_internal s d.ino e hr
      · rw [Prog.require_bind_of (h.2 d r hget hr)] at hrun
        exact Prog.Raises.bind (deallocIno_internal r)
          (fun _ => rewriteDentry_internal d d.deName newI) hrun

lemma admits_of_internal
    (h : ∀ e s', renameTarget uid toPath newI s = (.error e, s') → e.isClient = false) :
    Admits s uid toPath := by
  constructor
  · intro e hget
    exact h e s (Prog.reads_bind_of_error hget)
  · intro d r hget hr
    by_contra hden
    have hrun : renameTarget uid toPath newI s =
        (.error (.accessDenied "Permission denied on target file\n"), s) := by
      refine (Prog.reads_bind_of_ok (f := fun s => getDe s uid toPath) hget).trans ?_
      refine (Prog.reads_bind_of_ok (f := fun s => readInode s d.ino) hr).trans ?_
      exact Prog.require_bind_of_not hden
    exact absurd (h _ _ hrun) (by decide)

lemma readInode_of_parentInode (hs : s.Tree) {denied : String} {par : Inode}
    (h : parentInode s uid path denied = .ok par) :
    par.iNo ≠ 0 ∧ readInode s par.iNo = .ok par := by
  obtain ⟨found, hget, h⟩ := bind_eq_ok.mp h
  cases found with
  | none => cases h
  | some d =>
    obtain ⟨r, hr, h⟩ := bind_eq_ok.mp h
    split_ifs at h
    cases h
    have hown := hs.own (reached_of_entryOf (getDe_eq_ok hget).2) hr
    refine ⟨?_, by rw [hown]; exact hr⟩
    obtain ⟨c, -, hr⟩ := bind_eq_ok.mp hr
    dsimp only at hr
    split_ifs at hr with hzero
    cases hr
    exact hzero

lemma renameSource_ne (hs : s.Tree) {frPath : Name}
    (h : renameSource uid frPath s = (.ok newI, s₁)) : s₁ ≠ s := by
  obtain ⟨⟨par, de, r⟩, hchecks, h⟩ := Prog.reads_bind_eq_ok.mp h
  obtain ⟨_, t, hclear, h⟩ := Prog.bind_eq_ok.mp h
  cases h
  obtain ⟨_, t', -, hwrite⟩ := Prog.bind_eq_ok.mp hclear
  obtain ⟨c, hc, hwrite⟩ := Prog.reads_bind_eq_ok.mp hwrite
  obtain ⟨husable, rfl⟩ := writeBlk_eq_ok.mp hwrite
  unfold renameChecks at hchecks
  split_ifs at hchecks
  obtain ⟨par', hpar, hchecks⟩ := bind_eq_ok.mp hchecks
  obtain ⟨⟨de', r'⟩, -, hchecks⟩ := bind_eq_ok.mp hchecks
  dsimp only at hchecks
  split_ifs at hchecks
  cases hchecks
  obtain ⟨hino, hread⟩ := readInode_of_parentInode hs hpar
  have hnew : readInode (t'.setBlk (itabBlkLoc par.iNo) (Inode.serialize
      { par with iLinksCount := par.iLinksCount - 1 } c (itabBlkOff par.iNo))) par.iNo =
      .ok { par with iLinksCount := par.iLinksCount - 1 } := by
    rw [readInode, readBlk_setBlk husable, if_pos rfl, ok_bind, Inode.deserialize_serialize_at,
      if_pos rfl, if_neg hino]
  intro heq
  rw [heq, hread] at hnew
  have hlinks := congrArg Inode.iLinksCount (Except.ok.inj hnew)
  exact absurd hlinks.symm (by simp)

/-- Over every tree, a refused call leaves the volume as it was if and only if a rename is refused for
its source only. -/
theorem refused_removal_keeps_iff (hs : s.Tree) (uid : UInt32) (c : Removal) :
    KeepsRefused (c.exec uid) s ↔ c.Early uid s := by
  cases c with
  | unlink path =>
    refine ⟨fun _ => trivial, fun _ => KeepsRefused.reads_bind ?_⟩
    rintro ⟨de, r⟩ hp
    exact KeepsRefused.require_bind fun _ => KeepsRefused.require_bind fun _ =>
      KeepsRefused.require_bind fun _ => keepsRefused_removeFile hs hp
  | rmdir path =>
    refine ⟨fun _ => trivial, fun _ => KeepsRefused.reads_bind ?_⟩
    rintro ⟨de, r⟩ hp
    exact KeepsRefused.require_bind fun _ => KeepsRefused.require_bind fun _ =>
      KeepsRefused.require_bind fun _ => keepsRefused_removeFile hs hp
  | rename frPath toPath =>
    constructor
    · intro hkeep newI s₁ hsrc
      apply admits_of_internal
      intro e s' h
      by_contra hclient
      rw [Bool.not_eq_false] at hclient
      obtain rfl := keepsRefused_renameTarget h hclient
      exact renameSource_ne hs hsrc (hkeep ((Prog.bind_of_ok hsrc).trans h) hclient)
    · intro hearly e s' h hclient
      rcases Prog.bind_eq_error.mp h with h | ⟨newI, s₁, hsrc, h⟩
      · refine KeepsRefused.reads_bind ?_ h hclient
        rintro ⟨par, de, r⟩ -
        exact InternalProg.keepsRefused
          (Prog.Raises.bind (clearDentry_internal de par) fun _ => Prog.Raises.pure _)
      · rw [(hearly newI s₁ hsrc).internal h] at hclient
        cases hclient

theorem refused_unlink_keeps :
    privateVolume.Tree ∧ KeepsRefused ((Removal.unlink pathA).exec 1002) privateVolume :=
  ⟨privateVolume_tree, (refused_removal_keeps_iff privateVolume_tree 1002 (.unlink pathA)).mpr trivial⟩

end Calls

section Example

def pathB : Name := [slash, 98]

/-- The volume with the private file as `/a` and a second file as `/b`, which is open to everyone. -/
def twoFiles : FsState where
  numBlks := 8192
  disk := fun b =>
    if b = 6 then
      some ((Inode.new 9 1002 (ifreg ||| 0o777) 0 0).serialize (privateFile.serialize
        (Inode.serialize { sharedRoot with iLinksCount := 4 } zeroBlk (itabBlkOff rootIno))
        (itabBlkOff 8)) (itabBlkOff 9))
    else if b = 6313 then
      some (Dirent.serialize ⟨9, pathB⟩ (Dirent.serialize ⟨8, pathA⟩ (dotBlk rootIno rootIno)
        (dentryBlkOff 2)) (dentryBlkOff 3))
    else none
  sb := ⟨1878, 1877, 99990, 6314⟩
  openFileTab := []
  nextFd := 3

/-- The rename of `/b` to the name of the private file is refused, and `/b` is gone. -/
theorem refused_rename_loses_source :
    (bfsRename 1002 pathB pathA twoFiles).1 =
        .error (.accessDenied "Permission denied on target file\n") ∧
      getDe twoFiles 1002 pathB = .ok (some ⟨pathB, 9, 6313, 3⟩) ∧
      getDe (bfsRename 1002 pathB pathA twoFiles).2 1002 pathB = .ok none := by
  decide +kernel

end Example

end Bfs.Native
