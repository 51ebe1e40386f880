import Bfs.Native.Exceptions

/-! Who is refused. A lookup is split into the walk over the directories, which asks for no
permission, and the tests along the way; then every operation on a path is refused exactly by the
inodes that it tests. -/
namespace Bfs.Native
open ByteSeq Bfs.Fs Fallible

section Decision

def Inode.lacks (r : Inode) (uid : UInt32) : Prop :=
  if uid = r.uid then r.mode &&& irwxu = 0 else r.mode &&& irwxo = 0

def Inode.ownerOnly (r : Inode) (uid : UInt32) : Prop :=
  uid = r.uid ∧ r.mode &&& irwxu ≠ 0 ∧ r.mode &&& irwxo = 0

lemma denies_iff (r : Inode) (uid : UInt32) :
    r.denies uid = true ↔ r.lacks uid ∨ r.ownerOnly uid := by
  by_cases hown : uid = r.uid
  · by_cases hu : r.mode &&& irwxu = 0 <;> simp [Inode.denies, Inode.lacks, Inode.ownerOnly, hown, hu]
  · simp [Inode.denies, Inode.lacks, Inode.ownerOnly, hown]

def FsErr.isDenied : FsErr → Bool
  | .accessDenied _ => true
  | _ => false

lemma isDenied_of_internal {e : FsErr} (h : e.isClient = false) : e.isDenied = false := by
  cases e <;> first | rfl | cases h

def Refused {α : Type} (x : Except FsErr α) : Prop := ∃ msg, x = .error (.accessDenied msg)

variable {α β : Type}

lemma refused_error {e : FsErr} : Refused (.error e : Except FsErr α) ↔ e.isDenied = true := by
  cases e <;> simp [Refused, FsErr.isDenied]

lemma not_refused_ok (a : α) : ¬Refused (.ok a : Except FsErr α) := by
  rintro ⟨msg, h⟩
  cases h

lemma refused_bind {x : Except FsErr α} {f : α → Except FsErr β} :
    Refused (x >>= f) ↔ Refused x ∨ ∃ a, x = .ok a ∧ Refused (f a) := by
  cases x with
  | error e => simp [refused_error]
  | ok a => simp [not_refused_ok]

lemma Internal.not_refused {x : Except FsErr α} (hx : Internal x) : ¬Refused x := by
  rintro ⟨msg, h⟩
  cases hx _ h

lemma InternalProg.not_refused {x : FsM α} (hx : InternalProg x) (s : FsState) :
    ¬Refused (x s).1 := by
  rintro ⟨msg, h⟩
  cases hx (Prod.ext h rfl : x s = (.error (.accessDenied msg), (x s).2))

lemma refused_reads_bind {f : FsState → Except FsErr α} {g : α → FsM β} {s : FsState} :
    Refused ((Prog.reads f >>= g) s).1 ↔ Refused (f s) ∨ ∃ a, f s = .ok a ∧ Refused (g a s).1 := by
  cases hf : f s with
  | error e =>
    rw [Prog.reads_bind_of_error hf]
    simp [refused_error]
  | ok a =>
    rw [Prog.reads_bind_of_ok hf]
    simp [not_refused_ok]

lemma refused_require_bind {p : Prop} [Decidable p] {e : FsErr} (he : e.isDenied = false)
    {g : Unit → FsM β} {s : FsState} :
    Refused ((Prog.require p e >>= g) s).1 ↔ p ∧ Refused (g () s).1 := by
  by_cases hp : p
  · rw [Prog.require_bind_of hp]
    simp [hp]
  · rw [Prog.require_bind_of_not hp]
    simp [hp, refused_error, he]

lemma refused_internal_bind {x : FsM α} (hx : InternalProg x) {g : α → FsM β} {s : FsState} :
    Refused ((x >>= g) s).1 ↔ ∃ a s', x s = (.ok a, s') ∧ Refused (g a s').1 := by
  rcases h : x s with ⟨e | a, s'⟩
  · rw [Prog.bind_of_error h]
    have hden := isDenied_of_internal (hx h)
    simp [refused_error, hden]
  · rw [Prog.bind_of_ok h]
    simp

end Decision

section Walk

variable (s : FsState)

/-- `check_direct_blks` behind the tests of the inode. -/
def scanDirect (h : DeHandler) (r : Inode) (st : Scan) : Except FsErr Scan := do
  let (st, ended) ← checkBlks s h r.iLinksCount.toNat r.direct st
  if ended then .ok st
  else if st.deTested ≤ r.iLinksCount.toNat then .ok st else .error .aborted

/-- `check_indirect_blks` behind the tests of the inode. -/
def scanIndirect (h : DeHandler) (r : Inode) (st : Scan) : Except FsErr Scan := do
  let b ← readBlk s r.indirect.toNat
  let (st, ended) ← checkBlks s h r.iLinksCount.toNat (IndirectBlock.deserialize b).toList st
  if ended then .ok st
  else if st.deTested = r.iLinksCount.toNat then .ok { st with allDentriesSearched := true }
  else .error .aborted

def dirEntry (r : Inode) (nm : Name) : Except FsErr (Option DirEntry) := do
  if !r.isDir then .error (.requestFailed "Inode is not a directory file (check direct blks)\n")
  else
    let st ← scanDirect s (.getDe nm) r Scan.start
    if st.de.isSome ∨ st.allDentriesSearched then .ok st.de
    else
      let st ← scanIndirect s (.getDe nm) r st
      if st.de.isSome ∨ st.allDentriesSearched then .ok st.de else .error .aborted

def dirInode (ino : UInt64) : Except FsErr Inode := do
  let r ← readInode s ino
  if r.iNo ≠ ino then .error .aborted else .ok r

lemma searchDir_eq (uid : UInt32) (ino : UInt64) (nm : Name) :
    searchDir s uid ino nm = (do
      let r ← dirInode s ino
      if r.denies uid then .error (.accessDenied "Permission denied\n") else dirEntry s r nm) := by
  unfold searchDir checkDirectBlks checkIndirectBlks readDirInode dirInode dirEntry scanDirect
    scanIndirect
  cases hr : readInode s ino with
  | error e => rfl
  | ok r =>
    by_cases hno : r.iNo = ino
    · by_cases hden : r.denies uid = true
      · simp [hno, hden]
      · by_cases hdir : r.isDir = true
        · simp [hno, hden, hdir]
        · simp [hno, hden, hdir]
    · simp [hno]

def nameWalk : UInt64 → List Name → Option DirEntry → Except FsErr (Option DirEntry)
  | _, [], de => .ok de
  | ino, nm::nms, _ => do
    let r ← dirInode s ino
    match ← dirEntry s r nm with
    | none => .ok none
    | some d => nameWalk d.ino nms (some d)

def dirsFrom : UInt64 → List Name → List Inode
  | _, [] => []
  | ino, nm::nms =>
    match dirInode s ino with
    | .error _ => []
    | .ok r => r ::
      match dirEntry s r nm with
      | .ok (some d) => dirsFrom d.ino nms
      | _ => []

/-- The loop of `get_de` refuses the walk iff one of the directories does. -/
lemma walk_eq (uid : UInt32) (ino : UInt64) (nms : List Name) (de : Option DirEntry) :
    walk s uid ino nms de =
      if (dirsFrom s ino nms).any (·.denies uid) then .error (.accessDenied "Permission denied\n")
      else nameWalk s ino nms de := by
  induction nms generalizing ino de with
  | nil => rfl
  | cons nm nms ih =>
    rw [walk, searchDir_eq, nameWalk, dirsFrom]
    cases hr : dirInode s ino with
    | error e => rfl
    | ok r =>
      by_cases hden : r.denies uid = true
      · simp [hden]
      · cases hd : dirEntry s r nm with
        | error e => simp [hden, hd]
        | ok found =>
          cases found with
          | none => simp [hden, hd]
          | some d => simp [hden, hd, ih]

def entryOf (path : Name) : Except FsErr (Option DirEntry) := do
  if path.head? ≠ some slash then .ok none
  else if path = rootPath then .ok (some (rootDe s))
  else
    match ← nameWalk s rootIno (searchNames path) none with
    | none => .ok none
    | some d => if d.deName = path then .ok (some d) else .ok none

def ancestors (path : Name) : List Inode :=
  if path.head? ≠ some slash ∨ path = rootPath then [] else dirsFrom s rootIno (searchNames path)

def target (path : Name) : List Inode :=
  match entryOf s path with
  | .ok (some d) => (readInode s d.ino).toOption.toList
  | _ => []

def onPath (path : Name) : List Inode := ancestors s path ++ target s path

lemma getDe_eq (uid : UInt32) (path : Name) :
    getDe s uid path =
      if (ancestors s path).any (·.denies uid) then .error (.accessDenied "Permission denied\n")
      else entryOf s path := by
  unfold getDe ancestors entryOf
  by_cases habs : path.head? = some slash
  · by_cases hroot : path = rootPath
    · simp [hroot]
    · simp only [habs, hroot, ne_eq, not_true_eq_false, if_false, or_self, walk_eq]
      split_ifs <;> rfl
  · simp [habs]

lemma dirEntry_not_refused (r : Inode) (nm : Name) : ¬Refused (dirEntry s r nm) := by
  have hscan : Internal (do
      let st ← scanDirect s (.getDe nm) r Scan.start
      if st.de.isSome ∨ st.allDentriesSearched then .ok st.de
      else
        let st ← scanIndirect s (.getDe nm) r st
        if st.de.isSome ∨ st.allDentriesSearched then .ok st.de else .error .aborted) := by
    apply Fails.bind
    · apply Fails.bind (checkBlks_internal s _ _ _ _)
      rintro ⟨st, ended⟩ -
      dsimp only
      split_ifs
      exacts [Fails.ok _, Fails.ok _, Fails.error rfl]
    · intro st _
      split_ifs
      · exact Fails.ok _
      · apply Fails.bind
        · apply Fails.bind (readBlk_internal s _)
          intro b _
          apply Fails.bind (checkBlks_internal s _ _ _ _)
          rintro ⟨st, ended⟩ -
          dsimp only
          split_ifs
          exacts [Fails.ok _, Fails.ok _, Fails.error rfl]
        · intro st _
          split_ifs
          exacts [Fails.ok _, Fails.error rfl]
  unfold dirEntry
  split_ifs
  · rw [refused_error]
    simp [FsErr.isDenied]
  · exact hscan.not_refused

lemma dirInode_internal (ino : UInt64) : Internal (dirInode s ino) := by
  apply Fails.bind (readInode_internal s ino)
  intro r _
  split_ifs
  exacts [Fails.error rfl, Fails.ok _]

lemma nameWalk_not_refused (ino : UInt64) (nms : List Name) (de : Option DirEntry) :
    ¬Refused (nameWalk s ino nms de) := by
  induction nms generalizing ino de with
  | nil => exact not_refused_ok _
  | cons nm nms ih =>
    rw [nameWalk, refused_bind]
    rintro (h | ⟨r, -, h⟩)
    · exact (dirInode_internal s ino).not_refused h
    · rcases refused_bind.mp h with h | ⟨d, -, h⟩
      · exact dirEntry_not_refused s r nm h
      · cases d with
        | none => exact not_refused_ok _ h
        | some d => exact ih _ _ h

lemma entryOf_not_refused (path : Name) : ¬Refused (entryOf s path) := by
  unfold entryOf
  split_ifs
  · exact not_refused_ok _
  · exact not_refused_ok _
  · rw [refused_bind]
    rintro (h | ⟨d, -, h⟩)
    · exact nameWalk_not_refused s _ _ _ h
    · cases d with
      | none => exact not_refused_ok _ h
      | some d =>
        dsimp only at h
        split_ifs at h
        · exact not_refused_ok _ h
        · exact not_refused_ok _ h

end Walk

section Lookup

variable {s : FsState} {uid : UInt32} {path : Name}

def Denied (uid : UInt32) (rs : List Inode) : Prop := ∃ r ∈ rs, r.denies uid = true

lemma denied_append {rs rs' : List Inode} :
    Denied uid (rs ++ rs') ↔ Denied uid rs ∨ Denied uid rs' := by
  simp only [Denied, List.mem_append, or_and_right, exists_or]

lemma not_denied_nil : ¬Denied uid [] := by simp [Denied]

lemma getDe_of_not_denied (h : ¬Denied uid (ancestors s path)) : getDe s uid path = entryOf s path := by
  rw [getDe_eq, if_neg]
  simpa [Denied] using h

lemma refused_getDe : Refused (getDe s uid path) ↔ Denied uid (ancestors s path) := by
  by_cases h : Denied uid (ancestors s path)
  · rw [getDe_eq, if_pos (by simpa [Denied] using h)]
    simp [h, refused_error, FsErr.isDenied]
  · rw [getDe_of_not_denied h]
    simp [h, entryOf_not_refused]

lemma getDe_eq_ok {found : Option DirEntry} (h : getDe s uid path = .ok found) :
    ¬Denied uid (ancestors s path) ∧ entryOf s path = .ok found := by
  have hnot : ¬Denied uid (ancestors s path) := by
    rw [← refused_getDe, h]
    exact not_refused_ok _
  exact ⟨hnot, by rw [← getDe_of_not_denied hnot, h]⟩

lemma denied_target_iff :
    Denied uid (target s path) ↔
      ∃ d r, entryOf s path = .ok (some d) ∧ readInode s d.ino = .ok r ∧ r.denies uid = true := by
  unfold target
  split
  · rename_i d hd
    cases hr : readInode s d.ino with
    | error e => simp [Denied, hd, Except.toOption, hr]
    | ok r => simp [Denied, hd, Except.toOption, hr]
  · rename_i hnone
    constructor
    · intro h
      exact absurd h not_denied_nil
    · rintro ⟨d, r, hd, -⟩
      exact absurd hd (hnone d)

lemma refused_getDe_bind {α : Type} {e : FsErr} (he : e.isDenied = false)
    {g : DirEntry → Inode → Except FsErr α} (hg : ∀ d r, Refused (g d r) ↔ r.denies uid = true) :
    Refused (do
      match ← getDe s uid path with
      | none => .error e
      | some d => do
        let r ← readInode s d.ino
        g d r) ↔ Denied uid (onPath s path) := by
  rw [refused_bind, refused_getDe, onPath, denied_append, denied_target_iff]
  constructor
  · rintro (h | ⟨found, hget, h⟩)
    · exact .inl h
    · cases found with
      | none =>
        rw [refused_error, he] at h
        cases h
      | some d =>
        rcases refused_bind.mp h with h | ⟨r, hr, h⟩
        · exact absurd h (readInode_internal s d.ino).not_refused
        · exact .inr ⟨d, r, (getDe_eq_ok hget).2, hr, (hg d r).mp h⟩
  · rintro (h | ⟨d, r, hd, hr, hden⟩)
    · exact .inl h
    · by_cases hanc : Denied uid (ancestors s path)
      · exact .inl hanc
      · refine .inr ⟨some d, (getDe_of_not_denied hanc).trans hd, ?_⟩
        exact refused_bind.mpr (.inr ⟨r, hr, (hg d r).mpr hden⟩)

lemma lookup_bind {α : Type} (missing : String) (f : DirEntry × Inode → Except FsErr α) :
    (lookup s uid path missing >>= f) = (do
      match ← getDe s uid path with
      | none => .error (.requestFailed missing)
      | some d => do
        let r ← readInode s d.ino
        f (d, r)) := by
  unfold lookup
  cases getDe s uid path with
  | error e => rfl
  | ok found =>
    cases found with
    | none => rfl
    | some d => cases hr : readInode s d.ino <;> simp [hr]

lemma refused_test {α : Type} {r : Inode} {msg : String} {x : Except FsErr α} (hx : ¬Refused x) :
    Refused (if r.denies uid then .error (.accessDenied msg) else x) ↔ r.denies uid = true := by
  split_ifs with h
  · simp [h, refused_error, FsErr.isDenied]
  · simp [h, hx]

lemma refused_accessFile :
    Refused (accessFile s uid path) ↔ Name.Fits path ∧ Denied uid (onPath s path) := by
  unfold accessFile
  by_cases hfit : Name.Fits path
  · rw [if_neg (not_not.mpr hfit), lookup_bind,
      refused_getDe_bind rfl fun d r => refused_test (not_refused_ok _)]
    simp [hfit]
  · simp [hfit, refused_error, FsErr.isDenied]

lemma accessFile_eq_ok {p : DirEntry × Inode} (h : accessFile s uid path = .ok p) :
    ¬Denied uid (onPath s path) ∧ ∃ d, getDe s uid path = .ok (some d) := by
  have hnot : ¬Refused (accessFile s uid path) := by
    rw [h]
    exact not_refused_ok _
  rw [refused_accessFile, not_and] at hnot
  unfold accessFile at h
  split_ifs at h with hfit
  rw [lookup_bind] at h
  obtain ⟨found, hget, h⟩ := bind_eq_ok.mp h
  cases found with
  | none => cases h
  | some d => exact ⟨hnot hfit, d, hget⟩

lemma refused_parentInode {denied : String} :
    Refused (parentInode s uid path denied) ↔ Denied uid (onPath s (dirname (cStr path))) := by
  unfold parentInode
  apply refused_getDe_bind rfl
  intro d r
  apply refused_test
  split_ifs
  · rw [refused_error]
    simp [FsErr.isDenied]
  · exact not_refused_ok _

end Lookup

section Found

variable {s : FsState} {nm : Name}

def FoundIn (nm : Name) (ds : List DirEntry) (d : DirEntry) : Prop :=
  d ∈ ds ∧ d.valid = true ∧ d.deName = nm

lemma checkDentries_found {links : ℕ} {ds : List DirEntry} {st : Scan} (hst : st.de = none)
    {d : DirEntry} (h : (checkDentries (.getDe nm) links ds st).de = some d) : FoundIn nm ds d := by
  induction ds generalizing st with
  | nil =>
    rw [checkDentries, hst] at h
    cases h
  | cons d₀ ds ih =>
    have hcons : FoundIn nm ds d → FoundIn nm (d₀::ds) d :=
      fun hd => ⟨List.mem_cons_of_mem _ hd.1, hd.2⟩
    rw [checkDentries] at h
    split_ifs at h with hvalid hname hlast
    · exact hcons (ih hst h)
    · cases h
      exact ⟨List.mem_cons_self, by simpa using hvalid, hname⟩
    · rw [hst] at h
      cases h
    · refine hcons (ih ?_ h)
      exact hst

lemma checkEachDentry_found {links : ℕ} {vbid : UInt64} {b : Block} {st : Scan} (hst : st.de = none)
    {d : DirEntry} (h : (checkEachDentry (.getDe nm) links vbid b st).de = some d) :
    FoundIn nm (blkDentries vbid b) d := by
  rw [checkEachDentry] at h
  split_ifs at h
  · rw [hst] at h
    cases h
  · exact checkDentries_found hst h

lemma checkBlks_found {links : ℕ} {vbids : List UInt64} {st : Scan} (hst : st.de = none)
    {st' : Scan} {ended : Bool} (h : checkBlks s (.getDe nm) links vbids st = .ok (st', ended)) :
    ∀ d, st'.de = some d → ∃ vbid ∈ vbids, ∃ b, readBlk s vbid.toNat = .ok b ∧
      FoundIn nm (blkDentries vbid b) d := by
  induction vbids generalizing st with
  | nil =>
    cases h
    intro d hd
    rw [hst] at hd
    cases hd
  | cons vbid vbids ih =>
    rw [checkBlks] at h
    split_ifs at h
    · cases h
      intro d hd
      rw [hst] at hd
      cases hd
    · obtain ⟨b, hb, h⟩ := bind_eq_ok.mp h
      dsimp only at h
      split_ifs at h with hend
      · cases h
        intro d hd
        exact ⟨vbid, List.mem_cons_self, b, hb, checkEachDentry_found hst hd⟩
      · rw [not_or, Option.not_isSome_iff_eq_none] at hend
        intro d hd
        obtain ⟨vbid', hmem, hfound⟩ := ih hend.1 h d hd
        exact ⟨vbid', List.mem_cons_of_mem _ hmem, hfound⟩

lemma dirEntry_found {r : Inode} {d : DirEntry} (h : dirEntry s r nm = .ok (some d)) :
    ∃ vbid, (vbid ∈ r.direct ∨ ∃ ib, readBlk s r.indirect.toNat = .ok ib ∧
      vbid ∈ (IndirectBlock.deserialize ib).toList) ∧
      ∃ b, readBlk s vbid.toNat = .ok b ∧ FoundIn nm (blkDentries vbid b) d := by
  unfold dirEntry at h
  split_ifs at h
  obtain ⟨st, hst, h⟩ := bind_eq_ok.mp h
  obtain ⟨⟨st₁, ended₁⟩, hscan, hst⟩ := bind_eq_ok.mp hst
  have hfirst := checkBlks_found rfl hscan
  obtain rfl : st₁ = st := by
    dsimp only at hst
    split_ifs at hst <;> exact Except.ok.inj hst
  split_ifs at h with hend
  · obtain ⟨vbid, hmem, hfound⟩ := hfirst d (Except.ok.inj h)
    exact ⟨vbid, .inl hmem, hfound⟩
  · rw [not_or, Option.not_isSome_iff_eq_none] at hend
    obtain ⟨st, hst, h⟩ := bind_eq_ok.mp h
    obtain ⟨ib, hib, hst⟩ := bind_eq_ok.mp hst
    obtain ⟨⟨st₂, ended₂⟩, hscan, hst⟩ := bind_eq_ok.mp hst
    have hsecond := checkBlks_found hend.1 hscan
    have hde : st.de = st₂.de := by
      dsimp only at hst
      split_ifs at hst <;> cases hst <;> rfl
    split_ifs at h
    obtain ⟨vbid, hmem, hfound⟩ := hsecond d (by rw [← hde]; exact Except.ok.inj h)
    exact ⟨vbid, .inr ⟨ib, hib, hmem⟩, hfound⟩

lemma dirEntry_deName {r : Inode} {d : DirEntry} (h : dirEntry s r nm = .ok (some d)) :
    d.deName = nm := by
  obtain ⟨_, -, _, -, hfound⟩ := dirEntry_found h
  exact hfound.2.2

lemma nameWalk_deName {ino : UInt64} {nms : List Name} {de : Option DirEntry} {d : DirEntry}
    (h : nameWalk s ino (nms ++ [nm]) de = .ok (some d)) : d.deName = nm := by
  induction nms generalizing ino de with
  | nil =>
    obtain ⟨r, -, h⟩ := bind_eq_ok.mp h
    obtain ⟨found, hfound, h⟩ := bind_eq_ok.mp h
    cases found with
    | none => cases h
    | some d' =>
      cases h
      exact dirEntry_deName hfound
  | cons nm₁ nms ih =>
    obtain ⟨r, -, h⟩ := bind_eq_ok.mp h
    obtain ⟨found, -, h⟩ := bind_eq_ok.mp h
    cases found with
    | none => cases h
    | some d' => exact ih h

lemma entryOf_eq_some {path : Name} {d : DirEntry} (habs : path.head? = some slash)
    (hroot : path ≠ rootPath) :
    entryOf s path = .ok (some d) ↔ nameWalk s rootIno (searchNames path) none = .ok (some d) := by
  unfold entryOf
  rw [if_neg (by simp [habs]), if_neg hroot]
  cases hw : nameWalk s rootIno (searchNames path) none with
  | error e => simp
  | ok f =>
    cases f with
    | none => simp
    | some d' =>
      have hname : d'.deName = path := nameWalk_deName hw
      simp [hname]

lemma nameWalk_of_entryOf {path : Name} {found : Option DirEntry} (habs : path.head? = some slash)
    (hroot : path ≠ rootPath) (h : entryOf s path = .ok found) :
    ∃ f, nameWalk s rootIno (searchNames path) none = .ok f := by
  unfold entryOf at h
  rw [if_neg (by simp [habs]), if_neg hroot] at h
  obtain ⟨f, hf, -⟩ := bind_eq_ok.mp h
  exact ⟨f, hf⟩

end Found

section Parents

variable {s : FsState} {uid : UInt32} {path : Name}

lemma searchNames_take {k : ℕ} (hk : 1 ≤ k) (hslash : path[k]? = some slash) :
    ∃ nm nms, searchNames path = searchNames (path.take k) ++ nm :: nms := by
  have hlt : k < path.length := (List.getElem?_eq_some_iff.mp hslash).1
  obtain ⟨m, hm⟩ : ∃ m, path.length = k+1+m := ⟨path.length - (k+1), by omega⟩
  have hfirst : searchNames (path.take k) =
      ((List.range k).filter fun j => decide (1 ≤ j) && path[j]? == some slash).map path.take
        ++ [path.take k] := by
    rw [searchNames, List.length_take_of_le hlt.le]
    congr 1
    have hfilter : ((List.range k).filter fun j => decide (1 ≤ j) && (path.take k)[j]? == some slash) =
        (List.range k).filter fun j => decide (1 ≤ j) && path[j]? == some slash := by
      apply List.filter_congr
      intro j hj
      rw [List.getElem?_take_of_lt (List.mem_range.mp hj)]
    rw [hfilter]
    apply List.map_congr_left
    intro j hj
    have hjk := List.mem_range.mp (List.mem_filter.mp hj).1
    rw [List.take_take, min_eq_left hjk.le]
  obtain ⟨nm, nms, hrest⟩ := List.exists_cons_of_ne_nil (l := ((List.range m).map (k+1+·)).filter
    (fun j => decide (1 ≤ j) && path[j]? == some slash) |>.map path.take |>.append [path])
    (by simp)
  refine ⟨nm, nms, ?_⟩
  rw [← hrest, hfirst, searchNames, hm, List.range_add, List.range_succ, List.filter_append,
    List.filter_append, List.map_append, List.map_append]
  simp [hk, hslash]

lemma nameWalk_append {ino : UInt64} {nms : List Name} {de : Option DirEntry} {d : DirEntry}
    (hne : nms ≠ []) (h : nameWalk s ino nms de = .ok (some d)) (nms' : List Name) :
    nameWalk s ino (nms ++ nms') de = nameWalk s d.ino nms' (some d) ∧
      dirsFrom s ino (nms ++ nms') = dirsFrom s ino nms ++ dirsFrom s d.ino nms' := by
  induction nms generalizing ino de with
  | nil => exact absurd rfl hne
  | cons nm nms ih =>
    rw [nameWalk] at h
    obtain ⟨r, hr, h⟩ := bind_eq_ok.mp h
    obtain ⟨found, hfound, h⟩ := bind_eq_ok.mp h
    cases found with
    | none => cases h
    | some d₁ =>
      dsimp only at h
      simp only [List.cons_append, nameWalk, dirsFrom, hr, hfound, ok_bind]
      cases nms with
      | nil =>
        cases h
        exact ⟨rfl, rfl⟩
      | cons nm₂ nms =>
        obtain ⟨hwalk, hdirs⟩ := ih (List.cons_ne_nil _ _) h
        exact ⟨hwalk, congrArg _ hdirs⟩

lemma nameWalk_append_of_stuck {ino : UInt64} {nms : List Name} {de : Option DirEntry}
    (hne : nms ≠ []) (h : ∀ d, nameWalk s ino nms de ≠ .ok (some d)) (nms' : List Name) :
    (∀ d, nameWalk s ino (nms ++ nms') de ≠ .ok (some d)) ∧
      dirsFrom s ino (nms ++ nms') = dirsFrom s ino nms := by
  induction nms generalizing ino de with
  | nil => exact absurd rfl hne
  | cons nm nms ih =>
    simp only [nameWalk] at h
    simp only [List.cons_append, nameWalk, dirsFrom]
    cases hr : dirInode s ino with
    | error e => simp
    | ok r =>
      rw [hr] at h
      cases hfound : dirEntry s r nm with
      | error e => simp [hfound]
      | ok found =>
        cases found with
        | none => simp [hfound]
        | some d₁ =>
          simp only [ok_bind, hfound] at h ⊢
          cases nms with
          | nil => exact absurd rfl (h d₁)
          | cons nm₂ nms =>
            obtain ⟨hwalk, hdirs⟩ := ih (List.cons_ne_nil _ _) h
            exact ⟨hwalk, by rw [hdirs]⟩

lemma dirInode_of_nameWalk {ino : UInt64} {nm : Name} {nms : List Name} {de found : Option DirEntry}
    (h : nameWalk s ino (nm::nms) de = .ok found) :
    ∃ r ∈ dirsFrom s ino (nm::nms), dirInode s ino = .ok r := by
  rw [nameWalk] at h
  obtain ⟨r, hr, -⟩ := bind_eq_ok.mp h
  refine ⟨r, ?_, hr⟩
  rw [dirsFrom, hr]
  exact List.mem_cons_self

lemma readInode_of_dirInode {ino : UInt64} {r : Inode} (h : dirInode s ino = .ok r) :
    readInode s ino = .ok r := by
  obtain ⟨r', hr', h⟩ := bind_eq_ok.mp h
  split_ifs at h
  cases h
  exact hr'

lemma nameWalk_of_not_dir {ino : UInt64} (h : ∀ r, readInode s ino = .ok r → r.isDir = false)
    (nm : Name) (nms : List Name) (de : Option DirEntry) :
    (∀ d, nameWalk s ino (nm::nms) de ≠ .ok (some d)) ∧
      ∀ r ∈ dirsFrom s ino (nm::nms), readInode s ino = .ok r := by
  rw [nameWalk, dirsFrom]
  cases hr : dirInode s ino with
  | error e => simp
  | ok r =>
    have hread := readInode_of_dirInode hr
    have hentry : dirEntry s r nm =
        .error (.requestFailed "Inode is not a directory file (check direct blks)\n") := by
      rw [dirEntry, if_pos (by simp [h r hread])]
    simp [hentry, hread]

lemma dirname_cases (path : Name) :
    (∃ k, 1 ≤ k ∧ path[k]? = some slash ∧ dirname (cStr path) = path.take k) ∨
      path.head? = some slash ∧ dirname (cStr path) = rootPath ∨
      path.head? ≠ some slash ∧ dirname (cStr path) = [46] := by
  obtain ⟨rest, hrest⟩ : cStr path <+: path := List.takeWhile_prefix _
  have hget : ∀ k : ℕ, (cStr path)[k]? = some slash → path[k]? = some slash := by
    intro k hk
    have hlt := (List.getElem?_eq_some_iff.mp hk).1
    conv_lhs => rw [← hrest, List.getElem?_append_left hlt]
    exact hk
  unfold dirname
  split
  · rename_i hfind
    refine .inr (.inr ⟨?_, rfl⟩)
    intro habs
    obtain ⟨rest', rfl⟩ := List.head?_eq_some_iff.mp habs
    have hmem : 0 ∈ (List.range (cStr (slash :: rest')).length).reverse := by
      simp [cStr, slash]
    have hnone := List.find?_eq_none.mp hfind 0 hmem
    simp [cStr, slash] at hnone
  · rename_i hfind
    have hzero := List.find?_some hfind
    refine .inr (.inl ⟨?_, rfl⟩)
    rw [List.head?_eq_getElem?]
    exact hget 0 (by simpa using hzero)
  · rename_i k hk hfind
    have hslash : (cStr path)[k]? = some slash := by simpa using List.find?_some hfind
    refine .inl ⟨k, Nat.one_le_iff_ne_zero.mpr hk, hget k hslash, ?_⟩
    have hlt := (List.getElem?_eq_some_iff.mp hslash).1
    conv_rhs => rw [← hrest]
    rw [List.take_append_of_le_length hlt.le]

lemma ancestors_root : ancestors s rootPath = [] := by
  rw [ancestors, if_pos (.inr rfl)]

lemma onPath_of_relative (h : path.head? ≠ some slash) : onPath s path = [] := by
  simp [onPath, ancestors, target, entryOf, h]

lemma ancestors_of_absolute (habs : path.head? = some slash) (hroot : path ≠ rootPath) :
    ancestors s path = dirsFrom s rootIno (searchNames path) := by
  rw [ancestors, if_neg (by simp [habs, hroot])]

lemma walk_through_parent (habs : path.head? = some slash) (hroot : path ≠ rootPath) :
    ∃ nm nms,
      (∀ d, entryOf s (dirname (cStr path)) = .ok (some d) →
        nameWalk s rootIno (searchNames path) none = nameWalk s d.ino (nm::nms) none ∧
          ancestors s path = ancestors s (dirname (cStr path)) ++ dirsFrom s d.ino (nm::nms)) ∧
      ((∀ d, entryOf s (dirname (cStr path)) ≠ .ok (some d)) →
        (∀ d, nameWalk s rootIno (searchNames path) none ≠ .ok (some d)) ∧
          ancestors s path = ancestors s (dirname (cStr path))) := by
  have htop : ∃ nm nms,
      (∀ d, entryOf s rootPath = .ok (some d) →
        nameWalk s rootIno (searchNames path) none = nameWalk s d.ino (nm::nms) none ∧
          ancestors s path = ancestors s rootPath ++ dirsFrom s d.ino (nm::nms)) ∧
      ((∀ d, entryOf s rootPath ≠ .ok (some d)) →
        (∀ d, nameWalk s rootIno (searchNames path) none ≠ .ok (some d)) ∧
          ancestors s path = ancestors s rootPath) := by
    obtain ⟨nm, nms, hnames⟩ := List.exists_cons_of_ne_nil (l := searchNames path)
      (by simp [searchNames])
    refine ⟨nm, nms, ?_, ?_⟩
    · intro d hd
      obtain rfl : rootDe s = d := Option.some.inj (Except.ok.inj hd)
      rw [ancestors_of_absolute habs hroot, hnames, ancestors_root]
      exact ⟨rfl, rfl⟩
    · intro hnone
      exact absurd rfl (hnone (rootDe s))
  rcases dirname_cases path with ⟨k, hk, hslash, hdir⟩ | ⟨-, hdir⟩ | ⟨hrel, -⟩
  · by_cases hk1 : path.take k = rootPath
    · rw [hdir, hk1]
      exact htop
    · obtain ⟨nm, nms, hnames⟩ := searchNames_take hk hslash
      have hhead : (path.take k).head? = some slash := by
        rw [List.head?_take, if_neg (by omega), habs]
      have hne : searchNames (path.take k) ≠ [] := by simp [searchNames]
      refine ⟨nm, nms, ?_, ?_⟩
      · intro d hd
        rw [hdir, entryOf_eq_some hhead hk1] at hd
        obtain ⟨hwalk, hdirs⟩ := nameWalk_append hne hd (nm::nms)
        rw [ancestors_of_absolute habs hroot, hdir, ancestors_of_absolute hhead hk1, hnames]
        exact ⟨hwalk, hdirs⟩
      · intro hnone
        simp only [hdir, ne_eq, entryOf_eq_some hhead hk1] at hnone
        rw [ancestors_of_absolute habs hroot, hdir, ancestors_of_absolute hhead hk1, hnames]
        exact nameWalk_append_of_stuck hne hnone (nm::nms)
  · rw [hdir]
    exact htop
  · exact absurd habs hrel

lemma onPath_dirname_of_relative (hrel : path.head? ≠ some slash) :
    onPath s (dirname (cStr path)) = [] := by
  rcases dirname_cases path with ⟨k, hk, -, hdir⟩ | ⟨habs, -⟩ | ⟨-, hdir⟩
  · rw [hdir, onPath_of_relative]
    rw [List.head?_take, if_neg (by omega)]
    exact hrel
  · exact absurd habs hrel
  · rw [hdir, onPath_of_relative (by decide)]

lemma not_denied_parent {found : Option DirEntry} (h : getDe s uid path = .ok found)
    (hroot : path ≠ rootPath) : ¬Denied uid (onPath s (dirname (cStr path))) := by
  obtain ⟨hnot, hentry⟩ := getDe_eq_ok h
  by_cases habs : path.head? = some slash
  · obtain ⟨f, hwalk⟩ := nameWalk_of_entryOf habs hroot hentry
    obtain ⟨nm, nms, hthrough, hstuck⟩ := walk_through_parent (s := s) habs hroot
    rw [onPath, denied_append, denied_target_iff]
    rintro (hanc | ⟨d, r, hd, hr, hden⟩)
    · apply hnot
      by_cases hd : ∃ d, entryOf s (dirname (cStr path)) = .ok (some d)
      · obtain ⟨d, hd⟩ := hd
        rw [(hthrough d hd).2]
        exact denied_append.mpr (.inl hanc)
      · rw [(hstuck (not_exists.mp hd)).2]
        exact hanc
    · -- the inode of the parent is tested by the search for the last name
      obtain ⟨hw, hdirs⟩ := hthrough d hd
      rw [hw] at hwalk
      obtain ⟨r', hmem, hr'⟩ := dirInode_of_nameWalk hwalk
      obtain rfl : r' = r := by
        rw [readInode_of_dirInode hr'] at hr
        exact Except.ok.inj hr
      rw [hdirs] at hnot
      exact hnot ⟨r', List.mem_append_right _ hmem, hden⟩
  · rw [onPath_dirname_of_relative habs]
    exact not_denied_nil

lemma denied_parent_of_not_dir (hdir : ∀ d r, entryOf s (dirname (cStr path)) = .ok (some d) →
      readInode s d.ino = .ok r → r.isDir = false) (hroot : path ≠ rootPath)
    (h : Denied uid (onPath s path)) : Denied uid (onPath s (dirname (cStr path))) := by
  by_cases habs : path.head? = some slash
  · obtain ⟨nm, nms, hthrough, hstuck⟩ := walk_through_parent (s := s) habs hroot
    rw [onPath, denied_append, denied_target_iff] at h ⊢
    simp only [entryOf_eq_some habs hroot] at h
    by_cases hd : ∃ d, entryOf s (dirname (cStr path)) = .ok (some d)
    · obtain ⟨d, hd⟩ := hd
      obtain ⟨hw, hdirs⟩ := hthrough d hd
      obtain ⟨hend, hread⟩ := nameWalk_of_not_dir (fun r hr => hdir d r hd hr) nm nms none
      rw [hw, hdirs, denied_append] at h
      rcases h with (h | ⟨r, hmem, hden⟩) | ⟨d', -, hd', -⟩
      · exact .inl h
      · exact .inr ⟨d, r, hd, hread r hmem, hden⟩
      · exact absurd hd' (hend d')
    · obtain ⟨hend, hdirs⟩ := hstuck (not_exists.mp hd)
      rw [hdirs] at h
      rcases h with h | ⟨d', -, hd', -⟩
      · exact .inl h
      · exact absurd hd' (hend d')
  · rw [onPath_of_relative habs] at h
    exact absurd h not_denied_nil

lemma nameWalk_ok_of_append {ino : UInt64} {nms nms' : List Name} {de found : Option DirEntry}
    (h : nameWalk s ino (nms ++ nms') de = .ok found) : ∃ f, nameWalk s ino nms de = .ok f := by
  induction nms generalizing ino de with
  | nil => exact ⟨de, rfl⟩
  | cons nm nms ih =>
    obtain ⟨r, hr, h⟩ := bind_eq_ok.mp h
    obtain ⟨f, hf, h⟩ := bind_eq_ok.mp h
    rw [nameWalk, hr, ok_bind, hf, ok_bind]
    cases f with
    | none => exact ⟨none, rfl⟩
    | some d => exact ih h

lemma entryOf_ok_of_nameWalk (h : path.head? = some slash → path ≠ rootPath →
    ∃ f, nameWalk s rootIno (searchNames path) none = .ok f) : ∃ f, entryOf s path = .ok f := by
  unfold entryOf
  split_ifs with hrel hroot
  · exact ⟨_, rfl⟩
  · exact ⟨_, rfl⟩
  · obtain ⟨f, hf⟩ := h (not_not.mp hrel) hroot
    rw [hf, ok_bind]
    cases f with
    | none => exact ⟨_, rfl⟩
    | some d =>
      dsimp only
      split_ifs
      exacts [⟨_, rfl⟩, ⟨_, rfl⟩]

lemma entryOf_dirname {found : Option DirEntry} (h : entryOf s path = .ok found) :
    ∃ f, entryOf s (dirname (cStr path)) = .ok f := by
  apply entryOf_ok_of_nameWalk
  intro habs' hroot'
  rcases dirname_cases path with ⟨k, hk, hslash, hdir⟩ | ⟨-, hdir⟩ | ⟨-, hdir⟩
  · rw [hdir] at habs' hroot' ⊢
    obtain ⟨nm, nms, hnames⟩ := searchNames_take hk hslash
    have habs : path.head? = some slash := by
      rwa [List.head?_take, if_neg (by omega)] at habs'
    have hroot : path ≠ rootPath := by
      rintro rfl
      have hlt := (List.getElem?_eq_some_iff.mp hslash).1
      exact absurd hlt (by simp [rootPath]; omega)
    obtain ⟨f, hf⟩ := nameWalk_of_entryOf habs hroot h
    rw [hnames] at hf
    exact nameWalk_ok_of_append hf
  · exact absurd hdir hroot'
  · rw [hdir] at habs'
    cases habs'

lemma parentInode_internal {denied : String} (hentry : Internal (entryOf s (dirname (cStr path))))
    (hnot : ¬Denied uid (onPath s (dirname (cStr path)))) :
    Internal (parentInode s uid path denied) := by
  rw [onPath, denied_append, not_or, denied_target_iff] at hnot
  rw [parentInode, getDe_of_not_denied hnot.1]
  apply Fails.bind hentry
  intro found hfound
  cases found with
  | none => exact Fails.error rfl
  | some d =>
    apply Fails.bind (readInode_internal s d.ino)
    intro r hr
    rw [if_neg fun hden => hnot.2 ⟨d, r, hfound, hr, hden⟩]
    split_ifs
    exacts [Fails.error rfl, Fails.ok _]

end Parents

end Bfs.Native
