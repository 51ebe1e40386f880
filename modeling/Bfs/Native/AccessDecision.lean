import Bfs.Native.Access

/-! The decision of every operation on a path, over every tree: it is refused exactly by the inodes
that it tests. -/
namespace Bfs.Native
open ByteSeq Bfs.Fs Fallible

section Tree

inductive FsState.Reached (s : FsState) : UInt64 → Prop
  | root : s.Reached rootIno
  | entry {ino : UInt64} {r : Inode} {nm : Name} {d : DirEntry} :
    s.Reached ino → dirInode s ino = .ok r → dirEntry s r nm = .ok (some d) → s.Reached d.ino

/-- A file tree: entries lead to inodes with their own numbers, and the indirect block of a directory
is a data block, if there is one. -/
structure FsState.Tree (s : FsState) : Prop where
  own : ∀ ⦃ino r⦄, s.Reached ino → readInode s ino = .ok r → r.iNo = ino
  indirect : ∀ ⦃ino r⦄, s.Reached ino → readInode s ino = .ok r → r.isDir = true →
    r.indirect.toNat = 0 ∨ s.dataStart ≤ r.indirect.toNat

variable {s : FsState} {ino : UInt64}

lemma FsState.Reached.nameWalk (h : s.Reached ino) {nms : List Name} {de : Option DirEntry}
    {d : DirEntry} (hne : nms ≠ []) (hw : nameWalk s ino nms de = .ok (some d)) :
    s.Reached d.ino := by
  induction nms generalizing ino de with
  | nil => exact absurd rfl hne
  | cons nm nms ih =>
    rw [Native.nameWalk] at hw
    obtain ⟨r, hr, hw⟩ := bind_eq_ok.mp hw
    obtain ⟨found, hfound, hw⟩ := bind_eq_ok.mp hw
    cases found with
    | none => cases hw
    | some d₁ =>
      have hd₁ : s.Reached d₁.ino := .entry h hr hfound
      cases nms with
      | nil =>
        cases hw
        exact hd₁
      | cons nm₂ nms => exact ih hd₁ (List.cons_ne_nil _ _) hw

end Tree

section Shrunk

structure Shrunk (s s₁ : FsState) : Prop where
  numBlks : s₁.numBlks = s.numBlks
  blk : ∀ b, b = 0 ∨ s.dataStart ≤ b → readBlk s₁ b = readBlk s b
  inode : ∀ ⦃ino r⦄, readInode s₁ ino = .ok r → readInode s ino = .ok r

variable {s s₁ : FsState}

lemma Shrunk.dataStart (h : Shrunk s s₁) : s₁.dataStart = s.dataStart :=
  congrArg dataRelStartBlkNum h.numBlks

lemma Shrunk.checkBlks (h : Shrunk s s₁) (hd : DeHandler) (links : ℕ) (vbids : List UInt64)
    (st : Scan) : checkBlks s₁ hd links vbids st = checkBlks s hd links vbids st := by
  induction vbids generalizing st with
  | nil => rfl
  | cons vbid vbids ih =>
    rw [Native.checkBlks, Native.checkBlks, h.dataStart]
    split_ifs with hlt
    · rfl
    · rw [h.blk vbid.toNat (.inr (Nat.not_lt.mp hlt))]
      simp only [ih]

lemma Shrunk.dirEntry (h : Shrunk s s₁) {r : Inode} (nm : Name)
    (hr : r.isDir = true → r.indirect.toNat = 0 ∨ s.dataStart ≤ r.indirect.toNat) :
    dirEntry s₁ r nm = dirEntry s r nm := by
  unfold Native.dirEntry
  by_cases hdir : r.isDir = true
  · have hdirect : scanDirect s₁ (.getDe nm) r Scan.start = scanDirect s (.getDe nm) r Scan.start := by
      rw [scanDirect, scanDirect, h.checkBlks]
    have hindirect : scanIndirect s₁ (.getDe nm) r = scanIndirect s (.getDe nm) r := by
      funext st
      rw [scanIndirect, scanIndirect, h.blk _ (hr hdir)]
      simp only [h.checkBlks]
    rw [hdirect, hindirect]
  · rw [if_pos (by simp [hdir]), if_pos (by simp [hdir])]

lemma Shrunk.dirInode (h : Shrunk s s₁) {ino : UInt64} {r : Inode}
    (hr : dirInode s₁ ino = .ok r) : dirInode s ino = .ok r := by
  obtain ⟨r', hr', hno⟩ := bind_eq_ok.mp hr
  rw [Native.dirInode, h.inode hr', ok_bind]
  exact hno

lemma Shrunk.walk (h : Shrunk s s₁) (hs : s.Tree) {ino : UInt64} (hino : s.Reached ino)
    (nms : List Name) (de : Option DirEntry) :
    dirsFrom s₁ ino nms ⊆ dirsFrom s ino nms ∧
      ∀ d, nameWalk s₁ ino nms de = .ok (some d) → nameWalk s ino nms de = .ok (some d) := by
  induction nms generalizing ino de with
  | nil => exact ⟨List.Subset.refl _, fun d hd => hd⟩
  | cons nm nms ih =>
    rw [dirsFrom, dirsFrom, nameWalk, nameWalk]
    cases hr : Native.dirInode s₁ ino with
    | error e => exact ⟨List.nil_subset _, fun d hd => by cases hd⟩
    | ok r =>
      have hr' := h.dirInode hr
      have hentry := h.dirEntry nm (hs.indirect hino (readInode_of_dirInode hr'))
      simp only [hr', ok_bind, hentry]
      cases hfound : Native.dirEntry s r nm with
      | error e => simp
      | ok found =>
        cases found with
        | none => simp
        | some d =>
          obtain ⟨hsub, hwalk⟩ := ih (hino.entry hr' hfound) (some d)
          exact ⟨List.cons_subset_cons _ hsub, hwalk⟩

lemma rootDe_ino : (rootDe s).ino = rootIno := rfl

lemma Shrunk.entryOf (h : Shrunk s s₁) (hs : s.Tree) {path : Name} {d : DirEntry}
    (hd : entryOf s₁ path = .ok (some d)) :
    ∃ d', entryOf s path = .ok (some d') ∧ d'.ino = d.ino := by
  unfold Native.entryOf at hd ⊢
  split_ifs at hd ⊢ with hrel hroot
  · cases hd
  · obtain rfl : rootDe s₁ = d := Option.some.inj (Except.ok.inj hd)
    exact ⟨rootDe s, rfl, rootDe_ino.trans rootDe_ino.symm⟩
  · obtain ⟨f, hf, hd⟩ := bind_eq_ok.mp hd
    cases f with
    | none => cases hd
    | some d' =>
      rw [(h.walk hs .root _ _).2 d' hf]
      exact ⟨d, hd, rfl⟩

lemma Shrunk.onPath_subset (h : Shrunk s s₁) (hs : s.Tree) (path : Name) :
    onPath s₁ path ⊆ onPath s path := by
  intro r hr
  rcases List.mem_append.mp hr with hr | hr
  · apply List.mem_append_left
    unfold ancestors at hr ⊢
    split_ifs at hr ⊢ with hrel
    · cases hr
    · exact (h.walk hs .root _ none).1 hr
  · apply List.mem_append_right
    unfold target at hr ⊢
    split at hr
    · rename_i d hd
      obtain ⟨d', hd', hino⟩ := h.entryOf hs hd
      simp only [hd', hino]
      cases hread : readInode s₁ d.ino with
      | error e =>
        rw [hread] at hr
        cases hr
      | ok r' =>
        rw [hread] at hr
        rw [h.inode hread]
        exact hr
    · cases hr

lemma Shrunk.nameWalk_internal (h : Shrunk s s₁) (hs : s.Tree) {ino : UInt64} (hino : s.Reached ino)
    {nms : List Name} {de found : Option DirEntry} (hw : nameWalk s ino nms de = .ok found) :
    Internal (nameWalk s₁ ino nms de) := by
  induction nms generalizing ino de with
  | nil => exact Fails.ok _
  | cons nm nms ih =>
    obtain ⟨r, hr, hw⟩ := bind_eq_ok.mp hw
    obtain ⟨f, hf, hw⟩ := bind_eq_ok.mp hw
    apply Fails.bind (dirInode_internal s₁ ino)
    intro r' hr'
    obtain rfl : r' = r := Except.ok.inj ((h.dirInode hr').symm.trans hr)
    rw [h.dirEntry nm (hs.indirect hino (readInode_of_dirInode hr)), hf, ok_bind]
    cases f with
    | none => exact Fails.ok _
    | some d => exact ih (hino.entry hr hf) hw

lemma Shrunk.entryOf_internal (h : Shrunk s s₁) (hs : s.Tree) {path : Name}
    {found : Option DirEntry} (hd : Native.entryOf s path = .ok found) : Internal (Native.entryOf s₁ path) := by
  unfold Native.entryOf
  split_ifs with hrel hroot
  · exact Fails.ok _
  · exact Fails.ok _
  · obtain ⟨f, hf⟩ := nameWalk_of_entryOf (not_not.mp hrel) hroot hd
    apply Fails.bind (h.nameWalk_internal hs .root hf)
    intro f' _
    cases f' with
    | none => exact Fails.ok _
    | some d =>
      dsimp only
      split_ifs
      exacts [Fails.ok _, Fails.ok _]

lemma deallocIno_shrunk {r : Inode} {u : Unit} (h : deallocIno r s = (.ok u, s₁)) : Shrunk s s₁ := by
  have hge := dataStart_ge s
  obtain ⟨-, h⟩ := Prog.require_bind_eq_ok.mp h
  rw [Prog.gets_bind_apply] at h
  obtain ⟨c, -, h⟩ := Prog.reads_bind_eq_ok.mp h
  obtain ⟨hbits, h⟩ := Prog.require_bind_eq_ok.mp h
  obtain ⟨_, t₁, hbm, h⟩ := Prog.bind_eq_ok.mp h
  obtain ⟨husable, rfl⟩ := writeBlk_eq_ok.mp hbm
  obtain ⟨_, t₂, hfree, h⟩ := Prog.bind_eq_ok.mp h
  obtain ⟨k, rfl⟩ := deleteInodeIblks_eq_ok hfree
  obtain ⟨_, t₃, hinode, h⟩ := Prog.bind_eq_ok.mp h
  obtain ⟨c₀, hc₀, hinode⟩ := Prog.reads_bind_eq_ok.mp hinode
  obtain ⟨-, rfl⟩ := writeBlk_eq_ok.mp hinode
  cases h
  have hloc : ibmBlkLoc r.iNo = 2 := by
    rw [ibmBlkLoc, hbits]
    rfl
  have hitab := itabBlkLoc_eq r.iNo
  rw [blkSzBits_eq] at hbits
  rw [hloc] at husable hc₀ ⊢
  set t := (s.setBlk 2 (clearBit (r.iNo.toNat % blkSzBits) c)).addFree k
  have hread : ∀ b, b ≠ 2 → readBlk t b = readBlk s b := by
    intro b hb
    have := readBlk_setBlk husable (clearBit (r.iNo.toNat % blkSzBits) c) b
    rw [if_neg hb] at this
    exact this
  have hnew := fun b => readBlk_setBlk (readBlk_eq_ok.mp hc₀).1
    (Inode.serialize { r with iNo := 0 } c₀ (itabBlkOff r.iNo)) b
  refine ⟨rfl, ?_, ?_⟩
  · intro b hb
    refine (hnew b).trans ?_
    rw [if_neg (by omega), hread b (by omega)]
  · intro ino r' hr'
    have hino := itabBlkLoc_eq ino
    obtain ⟨c₁, hc₁, hr'⟩ := bind_eq_ok.mp hr'
    have hc₁' := (hnew (itabBlkLoc ino)).symm.trans hc₁
    by_cases hsame : itabBlkLoc ino = itabBlkLoc r.iNo
    · rw [if_pos hsame] at hc₁'
      cases hc₁'
      rw [Inode.deserialize_serialize_at] at hr'
      split_ifs at hr' with hoff
      · simp at hr'
      · rw [readInode, hsame, ← hread _ (by omega), hc₀]
        exact hr'
    · rw [if_neg hsame, hread _ (by omega)] at hc₁'
      rw [readInode, hc₁']
      exact hr'

end Shrunk

section Operations

inductive PathOp
  | getattr (path : Name)
  | openFile (path : Name)
  | opendir (path : Name)
  | chmod (path : Name) (mode : UInt32)
  | unlink (path : Name)
  | rmdir (path : Name)
  | create (path : Name) (mode : UInt32)
  | mkdir (path : Name) (mode : UInt32)
  | rename (frPath toPath : Name)
  deriving DecidableEq

def PathOp.exec (uid : UInt32) : PathOp → FsM Unit
  | .getattr path => do let _ ← Prog.reads (bfsGetattr · uid path)
  | .openFile path => do let _ ← bfsOpen uid path
  | .opendir path => do let _ ← bfsOpendir uid path
  | .chmod path mode => Prog.reads (bfsChmod · uid path mode)
  | .unlink path => bfsUnlink uid path
  | .rmdir path => bfsRmdir uid path
  | .create path mode => do let _ ← bfsCreate uid path mode
  | .mkdir path mode => bfsMkdir uid path mode
  | .rename frPath toPath => bfsRename uid frPath toPath

/-- The inodes on the paths of an operation: the ancestors and the targets. The second path of a rename
is looked up when the source has been taken out of its directory. -/
def PathOp.named (uid : UInt32) (s : FsState) : PathOp → List Inode
  | .getattr path | .openFile path | .opendir path | .chmod path _ | .unlink path | .rmdir path
  | .create path _ | .mkdir path _ => onPath s path
  | .rename frPath toPath => onPath s frPath ++ onPath (renameSource uid frPath s).2 toPath

def PathOp.tested (uid : UInt32) (s : FsState) : PathOp → List Inode
  | .getattr path | .openFile path | .opendir path | .chmod path _ | .unlink path | .rmdir path =>
    if Name.Fits path then onPath s path else []
  | .create path _ | .mkdir path _ => if Name.Fits path then ancestors s path else []
  | .rename frPath toPath =>
    if Name.Fits frPath then
      onPath s frPath ++
        match renameSource uid frPath s with
        | (.ok _, s') => onPath s' toPath
        | (.error _, _) => []
    else []

variable {s : FsState} {uid : UInt32} {path : Name}

lemma denied_ite {p : Prop} [Decidable p] {rs : List Inode} :
    Denied uid (if p then rs else []) ↔ p ∧ Denied uid rs := by
  split_ifs with h
  · simp [h]
  · simp [h, not_denied_nil]

lemma refused_accessFile_bind {α : Type} {g : DirEntry × Inode → FsM α}
    (hg : ∀ p, accessFile s uid path = .ok p → ¬Refused (g p s).1) :
    Refused ((Prog.reads (accessFile · uid path) >>= g) s).1 ↔
      Denied uid (if Name.Fits path then onPath s path else []) := by
  rw [refused_reads_bind, refused_accessFile, denied_ite]
  constructor
  · rintro (h | ⟨p, hp, h⟩)
    · exact h
    · exact absurd h (hg p hp)
  · exact .inl

lemma removeFile_internal (hs : s.Tree) {p : DirEntry × Inode} (hp : accessFile s uid path = .ok p)
    {e : FsErr} {s' : FsState} (h : removeFile uid path p.1 p.2 s = (.error e, s')) :
    e.isClient = false := by
  rcases Prog.bind_eq_error.mp h with h | ⟨u, s₁, hfree, h⟩
  · exact deallocIno_internal p.2 h
  · obtain ⟨hnot, d, hget⟩ := accessFile_eq_ok hp
    have hshrunk := deallocIno_shrunk hfree
    rcases Prog.reads_bind_eq_error.mp h with ⟨h, -⟩ | ⟨par, -, h⟩
    · obtain ⟨f, hf⟩ := entryOf_dirname (getDe_eq_ok hget).2
      refine parentInode_internal (hshrunk.entryOf_internal hs hf) ?_ e h
      rintro ⟨r, hr, hden⟩
      have hold : Denied uid (onPath s (dirname (cStr path))) :=
        ⟨r, hshrunk.onPath_subset hs _ hr, hden⟩
      by_cases hroot : path = rootPath
      · subst hroot
        exact hnot hold
      · exact not_denied_parent hget hroot hold
    · exact clearDentry_internal _ _ h

lemma removeFile_not_refused (hs : s.Tree) {p : DirEntry × Inode}
    (hp : accessFile s uid path = .ok p) : ¬Refused (removeFile uid path p.1 p.2 s).1 := by
  rintro ⟨msg, h⟩
  have hclient := removeFile_internal hs hp (Prod.ext h rfl)
  cases hclient

/-- The tests of `create` and `mkdir` are those of the lookup. -/
lemma refused_newEntryParent :
    Refused (newEntryParent s uid path) ↔
      Denied uid (if Name.Fits path then ancestors s path else []) := by
  rw [denied_ite]
  unfold newEntryParent
  by_cases hfit : Name.Fits path
  · rw [if_neg (not_not.mpr hfit), refused_bind, refused_getDe]
    simp only [hfit, true_and, or_iff_left_iff_imp]
    rintro ⟨found, hget, h⟩
    cases found with
    | some d =>
      rw [refused_error] at h
      cases h
    | none =>
      have hroot : path ≠ rootPath := by
        rintro rfl
        cases hget
      exact absurd (refused_parentInode.mp h) (not_denied_parent hget hroot)
  · simp [hfit, refused_error, FsErr.isDenied]

lemma refused_newEntry_bind {α : Type} {g : Inode → FsM α}
    (hg : ∀ par, ¬Refused (g par s).1) :
    Refused ((Prog.reads (newEntryParent · uid path) >>= g) s).1 ↔
      Denied uid (if Name.Fits path then ancestors s path else []) := by
  rw [refused_reads_bind, refused_newEntryParent]
  simp [hg]

lemma refused_renameTarget {toPath : Name} {newI : UInt64} :
    Refused (renameTarget uid toPath newI s).1 ↔ Denied uid (onPath s toPath) := by
  rw [renameTarget, refused_reads_bind, refused_getDe, onPath, denied_append, denied_target_iff]
  have hsome : ∀ d : DirEntry, Refused ((do
      let r ← Prog.reads (readInode · d.ino)
      Prog.require (r.denies uid = false) (.accessDenied "Permission denied on target file\n")
      deallocIno r
      rewriteDentry d d.deName newI : FsM Unit) s).1 ↔
      ∃ r, readInode s d.ino = .ok r ∧ r.denies uid = true := by
    intro d
    rw [refused_reads_bind]
    simp only [(readInode_internal s d.ino).not_refused, false_or]
    apply exists_congr
    intro r
    apply and_congr_right
    intro _
    cases hden : r.denies uid with
    | true =>
      rw [Prog.require_bind_of_not (by simp)]
      simp [refused_error, FsErr.isDenied]
    | false =>
      rw [Prog.require_bind_of rfl, refused_internal_bind (deallocIno_internal r)]
      simp [(rewriteDentry_internal d d.deName newI).not_refused]
  constructor
  · rintro (h | ⟨found, hget, h⟩)
    · exact .inl h
    · cases found with
      | some d =>
        obtain ⟨r, hr, hden⟩ := (hsome d).mp h
        exact .inr ⟨d, r, (getDe_eq_ok hget).2, hr, hden⟩
      | none =>
        have hroot : toPath ≠ rootPath := by
          rintro rfl
          cases hget
        rcases refused_reads_bind.mp h with h | ⟨par, -, h⟩
        · exact absurd (refused_parentInode.mp h) (not_denied_parent hget hroot)
        · exact absurd h ((addDentry_internal par newI toPath).not_refused s)
  · rintro (h | ⟨d, r, hd, hr, hden⟩)
    · exact .inl h
    · by_cases hanc : Denied uid (ancestors s toPath)
      · exact .inl hanc
      · exact .inr ⟨some d, (getDe_of_not_denied hanc).trans hd, (hsome d).mpr ⟨r, hr, hden⟩⟩

lemma reached_of_entryOf {d : DirEntry} (h : entryOf s path = .ok (some d)) :
    s.Reached d.ino := by
  by_cases habs : path.head? = some slash
  · by_cases hroot : path = rootPath
    · subst hroot
      obtain rfl : rootDe s = d := Option.some.inj (Except.ok.inj h)
      exact .root
    · rw [entryOf_eq_some habs hroot] at h
      exact FsState.Reached.root.nameWalk (by simp [searchNames]) h
  · rw [entryOf, if_pos habs] at h
    cases h

lemma FsState.Tree.denied_of_parent (hs : s.Tree)
    (h : Denied uid (onPath s (dirname (cStr path)))) : Denied uid (onPath s path) := by
  by_cases hroot : path = rootPath
  · subst hroot
    exact h
  · by_cases habs : path.head? = some slash
    · obtain ⟨nm, nms, hthrough, hstuck⟩ := walk_through_parent (s := s) habs hroot
      rw [onPath, denied_append, denied_target_iff] at h
      rw [onPath, denied_append]
      left
      rcases h with hanc | ⟨d, r, hd, hr, hden⟩
      · by_cases hd : ∃ d, entryOf s (dirname (cStr path)) = .ok (some d)
        · obtain ⟨d, hd⟩ := hd
          rw [(hthrough d hd).2]
          exact denied_append.mpr (.inl hanc)
        · rw [(hstuck (not_exists.mp hd)).2]
          exact hanc
      · have hdir : dirInode s d.ino = .ok r := by
          rw [dirInode, hr, ok_bind, if_neg (not_not.mpr (hs.own (reached_of_entryOf hd) hr))]
        rw [(hthrough d hd).2]
        refine ⟨r, List.mem_append_right _ ?_, hden⟩
        rw [dirsFrom, hdir]
        exact List.mem_cons_self
    · rw [onPath_dirname_of_relative habs] at h
      exact absurd h not_denied_nil

lemma parentInode_ok_of_dir {denied : String} {d : DirEntry} {r : Inode}
    (hnot : ¬Denied uid (onPath s (dirname (cStr path))))
    (hd : entryOf s (dirname (cStr path)) = .ok (some d)) (hr : readInode s d.ino = .ok r)
    (hdir : r.isDir = true) : parentInode s uid path denied = .ok r := by
  rw [onPath, denied_append, denied_target_iff, not_or] at hnot
  have hden : r.denies uid = false := by
    by_contra hne
    exact hnot.2 ⟨d, r, hd, hr, by simpa using hne⟩
  rw [parentInode, getDe_of_not_denied hnot.1, hd, ok_bind]
  dsimp only
  rw [hr, ok_bind, hden, hdir]
  rfl

lemma refused_renameSource (hs : s.Tree) (uid : UInt32) (frPath : Name) :
    Refused (renameSource uid frPath s).1 ↔ Name.Fits frPath ∧ Denied uid (onPath s frPath) := by
  have hchecks : Refused (renameSource uid frPath s).1 ↔ Refused (renameChecks s uid frPath) := by
    rw [renameSource, refused_reads_bind, or_iff_left_iff_imp]
    rintro ⟨⟨par, de, r⟩, -, h⟩
    rw [refused_internal_bind (clearDentry_internal de par)] at h
    obtain ⟨u, s', -, h⟩ := h
    exact absurd h (not_refused_ok _)
  rw [hchecks]
  unfold renameChecks
  by_cases hfit : Name.Fits frPath
  · rw [if_neg (not_not.mpr hfit), refused_bind, refused_parentInode]
    have hsource : ∀ par : Inode, Refused (lookup s uid frPath "fr_path does not exist\n" >>= fun p =>
        if p.2.denies uid then .error (.accessDenied "Permission denied on source file\n")
        else if !p.2.isReg then .error (.requestFailed "Inode is not a regular file\n")
        else .ok (par, p.1, p.2)) ↔ Denied uid (onPath s frPath) := by
      intro par
      rw [lookup_bind]
      apply refused_getDe_bind rfl
      intro d r
      apply refused_test
      split_ifs
      · rw [refused_error]
        simp [FsErr.isDenied]
      · exact not_refused_ok _
    simp only [hfit, true_and]
    constructor
    · rintro (h | ⟨par, -, h⟩)
      · exact hs.denied_of_parent h
      · exact (hsource par).mp h
    · intro h
      by_cases hpar : Denied uid (onPath s (dirname (cStr frPath)))
      · exact .inl hpar
      · have hroot : frPath ≠ rootPath := by
          rintro rfl
          exact hpar h
        -- the parent can be entered, since otherwise the path would end there
        by_contra hnone
        rw [not_or] at hnone
        apply hpar
        refine denied_parent_of_not_dir ?_ hroot h
        intro d r hd hr
        by_contra hdir
        apply hnone.2
        exact ⟨r, parentInode_ok_of_dir hpar hd hr (by simpa using hdir), (hsource r).mpr h⟩
  · simp [hfit, refused_error, FsErr.isDenied]

lemma PathOp.tested_subset (op : PathOp) (uid : UInt32) (s : FsState) :
    op.tested uid s ⊆ op.named uid s := by
  have hsub : ∀ {p : Prop} [Decidable p] {rs rs' : List Inode}, rs ⊆ rs' →
      (if p then rs else []) ⊆ rs' := by
    intro p _ rs rs' h
    split_ifs
    · exact h
    · exact List.nil_subset _
  cases op with
  | create path mode => exact hsub (List.subset_append_left _ _)
  | mkdir path mode => exact hsub (List.subset_append_left _ _)
  | rename frPath toPath =>
    apply hsub
    apply List.append_subset.mpr
    refine ⟨List.subset_append_left _ _, ?_⟩
    rw [PathOp.named]
    rcases renameSource uid frPath s with ⟨e | newI, s'⟩
    · exact List.nil_subset _
    · exact List.subset_append_right _ _
  | _ => exact hsub (List.Subset.refl _)

lemma refused_discard {α : Type} {x : FsM α} :
    Refused ((x >>= fun _ => (pure () : FsM Unit)) s).1 ↔ Refused (x s).1 := by
  rcases h : x s with ⟨e | a, s'⟩
  · rw [Prog.bind_of_error h]
    simp [refused_error]
  · rw [Prog.bind_of_ok h]
    simp [not_refused_ok]

lemma PathOp.refused_iff (hs : s.Tree) (uid : UInt32) (op : PathOp) :
    Refused (op.exec uid s).1 ↔ Denied uid (op.tested uid s) := by
  cases op with
  | getattr path =>
    rw [PathOp.exec, PathOp.tested, refused_discard, Prog.reads_apply, bfsGetattr, refused_bind,
      refused_accessFile, denied_ite]
    simp [not_refused_ok]
  | openFile path =>
    rw [PathOp.exec, PathOp.tested, refused_discard]
    apply refused_accessFile_bind
    intro p _
    rw [refused_require_bind rfl]
    exact fun h => (openInode_internal _ _).not_refused s h.2
  | opendir path =>
    rw [PathOp.exec, PathOp.tested, refused_discard]
    apply refused_accessFile_bind
    intro p _
    rw [refused_require_bind rfl]
    exact fun h => (openInode_internal _ _).not_refused s h.2
  | chmod path mode =>
    rw [PathOp.exec, PathOp.tested, Prog.reads_apply, bfsChmod, refused_bind, refused_accessFile,
      denied_ite]
    simp [not_refused_ok]
  | unlink path =>
    rw [PathOp.exec, PathOp.tested]
    apply refused_accessFile_bind
    intro p hp
    rw [refused_require_bind rfl, refused_require_bind rfl, refused_require_bind rfl]
    exact fun h => removeFile_not_refused hs hp h.2.2.2
  | rmdir path =>
    rw [PathOp.exec, PathOp.tested]
    apply refused_accessFile_bind
    intro p hp
    rw [refused_require_bind rfl, refused_require_bind rfl, refused_require_bind rfl]
    exact fun h => removeFile_not_refused hs hp h.2.2.2
  | create path mode =>
    rw [PathOp.exec, PathOp.tested, refused_discard]
    apply refused_newEntry_bind
    intro par h
    obtain ⟨ino, s₁, -, h⟩ := (refused_internal_bind allocIno_internal).mp h
    rw [refused_require_bind rfl] at h
    obtain ⟨_, s₂, -, h⟩ := (refused_internal_bind (addDentry_internal par ino path)).mp h.2
    obtain ⟨fh, s₃, -, h⟩ := (refused_internal_bind allocFd_internal).mp h
    rw [refused_require_bind rfl] at h
    obtain ⟨_, s₄, -, h⟩ := (refused_internal_bind (Prog.Raises.update _)).mp h.2
    obtain ⟨r, s₅, -, h⟩ := (refused_internal_bind (preallocBlks_internal _)).mp h
    obtain ⟨_, s₆, -, h⟩ := (refused_internal_bind (writeInode_internal r)).mp h
    exact not_refused_ok fh h
  | mkdir path mode =>
    rw [PathOp.exec, PathOp.tested]
    apply refused_newEntry_bind
    intro par h
    obtain ⟨ino, s₁, -, h⟩ := (refused_internal_bind allocIno_internal).mp h
    rw [refused_require_bind rfl] at h
    obtain ⟨b, s₂, -, h⟩ := (refused_internal_bind allocBlk_internal).mp h.2
    rw [refused_require_bind rfl] at h
    obtain ⟨_, s₃, -, h⟩ := (refused_internal_bind (writeBlk_internal _ _)).mp h.2
    obtain ⟨_, s₄, -, h⟩ := (refused_internal_bind (addDentry_internal par ino path)).mp h
    exact (writeInode_internal _).not_refused s₄ h
  | rename frPath toPath =>
    rw [PathOp.exec, PathOp.tested, denied_ite, denied_append, bfsRename]
    have hsource := refused_renameSource hs uid frPath
    rcases hsrc : renameSource uid frPath s with ⟨e | newI, s'⟩
    · rw [hsrc] at hsource
      rw [Prog.bind_of_error hsrc]
      simpa [not_denied_nil, refused_error] using hsource
    · have hfit : Name.Fits frPath := by
        by_contra hlong
        have hchecks : renameChecks s uid frPath = .error (.requestFailed "File name too long\n") := by
          unfold renameChecks
          rw [if_pos hlong]
        obtain ⟨p, hp, -⟩ := Prog.reads_bind_eq_ok.mp hsrc
        rw [hchecks] at hp
        cases hp
      rw [hsrc] at hsource
      rw [Prog.bind_of_ok hsrc, refused_renameTarget]
      have hnot : ¬Denied uid (onPath s frPath) := by
        intro hden
        exact not_refused_ok _ (hsource.mpr ⟨hfit, hden⟩)
      simp [hfit, hnot]

end Operations

/-- Over every tree and every operation on paths, the user is refused exactly for what it lacks on the
paths, if and only if two things hold: an owner who has all its rights from the owner bits is refused
only where something else on the paths refuses, too, and what the user lacks is tested by something. -/
theorem access_decision_iff {s : FsState} (hs : s.Tree) (uid : UInt32) (op : PathOp) :
    (Refused (op.exec uid s).1 ↔ ∃ r ∈ op.named uid s, r.lacks uid) ↔
      ((∃ r ∈ op.tested uid s, r.ownerOnly uid) → ∃ r ∈ op.named uid s, r.lacks uid) ∧
        ((∃ r ∈ op.named uid s, r.lacks uid) →
          ∃ r ∈ op.tested uid s, r.lacks uid ∨ r.ownerOnly uid) := by
  have hrefused : Refused (op.exec uid s).1 ↔
      ∃ r ∈ op.tested uid s, r.lacks uid ∨ r.ownerOnly uid := by
    rw [op.refused_iff hs uid, Denied]
    simp only [denies_iff]
  rw [hrefused]
  constructor
  · intro h
    refine ⟨?_, h.mpr⟩
    rintro ⟨r, hr, hown⟩
    exact h.mp ⟨r, hr, .inr hown⟩
  · rintro ⟨hown, htested⟩
    refine ⟨?_, htested⟩
    rintro ⟨r, hr, hlacks | honly⟩
    · exact ⟨r, op.tested_subset uid s hr, hlacks⟩
    · exact hown ⟨r, hr, honly⟩

section Example

def sharedRoot : Inode := (Inode.new rootIno 0 (ifdir ||| 0o777) 0 3).setIBlk ⟨0, numInodeIblks_pos⟩ 6313

def privateFile : Inode := Inode.new 8 1001 (ifreg ||| 0o700) 0 0

def pathA : Name := [slash, 97]

def privateVolume : FsState where
  numBlks := 8192
  disk := fun b =>
    if b = 6 then
      some (privateFile.serialize (sharedRoot.serialize zeroBlk (itabBlkOff rootIno)) (itabBlkOff 8))
    else if b = 6313 then
      some (Dirent.serialize ⟨8, pathA⟩ (dotBlk rootIno rootIno) (dentryBlkOff 2))
    else none
  sb := ⟨1878, 1877, 99991, 6314⟩
  openFileTab := []
  nextFd := 3

lemma readInode_privateVolume :
    readInode privateVolume rootIno = .ok sharedRoot ∧ readInode privateVolume 8 = .ok privateFile := by
  constructor
  · apply toOption_eq_some.mp
    decide +kernel
  · apply toOption_eq_some.mp
    decide +kernel

lemma reached_privateVolume {ino : UInt64} (h : privateVolume.Reached ino) :
    ino = rootIno ∨ ino = 8 := by
  induction h with
  | root => exact .inl rfl
  | @entry ino r nm d _ hr hd ih =>
    obtain ⟨vbid, hvbid, b, hb, hmem, hvalid, -⟩ := dirEntry_found hd
    rcases ih with rfl | rfl
    · obtain rfl : sharedRoot = r :=
        Except.ok.inj (readInode_privateVolume.1.symm.trans (readInode_of_dirInode hr))
      have hdirect : vbid = 6313 ∨ vbid = 0 := by
        rcases hvbid with hvbid | ⟨ib, hib, -⟩
        · have hall : sharedRoot.direct.all fun v => v == 6313 || v == 0 := by decide +kernel
          simpa using List.all_eq_true.mp hall vbid hvbid
        · have hnone : (readBlk privateVolume sharedRoot.indirect.toNat).toOption = none := by
            decide +kernel
          rw [hib] at hnone
          cases hnone
      rcases hdirect with rfl | rfl
      · have hblk : (readBlk privateVolume (6313 : UInt64).toNat).toOption.all fun b =>
            (blkDentries 6313 b).all fun d => !d.valid || d.ino == rootIno || d.ino == 8 := by
          decide +kernel
        rw [hb] at hblk
        simp only [Except.toOption, Option.all_some, List.all_eq_true] at hblk
        simpa [hvalid] using hblk d hmem
      · have hnone : (readBlk privateVolume (0 : UInt64).toNat).toOption = none := by decide +kernel
        rw [hb] at hnone
        cases hnone
    · obtain rfl : privateFile = r :=
        Except.ok.inj (readInode_privateVolume.2.symm.trans (readInode_of_dirInode hr))
      rw [dirEntry, if_pos (by decide)] at hd
      cases hd

lemma privateVolume_tree : privateVolume.Tree where
  own := by
    intro ino r hino hr
    rcases reached_privateVolume hino with rfl | rfl
    · rw [readInode_privateVolume.1] at hr
      cases hr
      rfl
    · rw [readInode_privateVolume.2] at hr
      cases hr
      rfl
  indirect := by
    intro ino r hino hr hdir
    rcases reached_privateVolume hino with rfl | rfl
    · rw [readInode_privateVolume.1] at hr
      cases hr
      exact .inl (by decide)
    · rw [readInode_privateVolume.2] at hr
      cases hr
      exact absurd hdir (by decide)

lemma onPath_privateVolume : onPath privateVolume pathA = [sharedRoot, privateFile] := by
  decide +kernel

theorem access_decision_other_user :
    privateVolume.Tree ∧
      (Refused ((PathOp.openFile pathA).exec 1002 privateVolume).1 ↔
        ∃ r ∈ (PathOp.openFile pathA).named 1002 privateVolume, r.lacks 1002) := by
  refine ⟨privateVolume_tree, (access_decision_iff privateVolume_tree 1002 (.openFile pathA)).mpr ?_⟩
  simp only [PathOp.named, PathOp.tested, if_pos (show Name.Fits pathA by decide),
    onPath_privateVolume]
  constructor
  · rintro ⟨r, hr, hown, -⟩
    simp only [List.mem_cons, List.not_mem_nil, or_false] at hr
    rcases hr with rfl | rfl
    · exact absurd hown (by decide)
    · exact absurd hown (by decide)
  · rintro ⟨r, hr, hlacks⟩
    exact ⟨r, hr, .inl hlacks⟩

/-- The owner of a file with the mode 0700 is refused, although nothing on the path lacks. -/
theorem owner_of_private_file_refused :
    Refused ((PathOp.openFile pathA).exec 1001 privateVolume).1 ∧
      ¬∃ r ∈ (PathOp.openFile pathA).named 1001 privateVolume, r.lacks 1001 := by
  constructor
  · rw [PathOp.refused_iff privateVolume_tree, PathOp.tested,
      if_pos (show Name.Fits pathA by decide), onPath_privateVolume]
    exact ⟨privateFile, by simp, by decide⟩
  · rw [PathOp.named, onPath_privateVolume]
    rintro ⟨r, hr, hlacks⟩
    simp only [List.mem_cons, List.not_mem_nil, or_false] at hr
    rcases hr with rfl | rfl
    · rw [Inode.lacks] at hlacks
      exact absurd hlacks (by decide)
    · rw [Inode.lacks] at hlacks
      exact absurd hlacks (by decide)

end Example

end Bfs.Native
