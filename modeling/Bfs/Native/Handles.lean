import Bfs.Native.Effects
import Bfs.Native.Steps
import Bfs.Native.Format

/-! Runs of create, open, opendir and release. Handles are numbers of a 32 bit counter that is never
compared with the table of open files, and the table keeps an entry that is there. -/
namespace Bfs.Native
open ByteSeq Bfs.Fs

section Frames

def FsState.handles (s : FsState) : List (UInt64 × UInt64) × UInt32 := (s.openFileTab, s.nextFd)

def SameHandles (s s' : FsState) : Prop := s'.handles = s.handles

instance : StepRel SameHandles where
  refl _ := rfl
  trans _ _ _ hst htu := htu.trans hst
  writeBlk b c s := by
    rw [SameHandles, writeBlk]
    split_ifs <;> rfl
  allocBlk s := by
    rw [SameHandles, allocBlk]
    split_ifs <;> rfl
  setNoInodesFree _ _ := rfl

lemma sameHandles_iff {s s' : FsState} :
    SameHandles s s' ↔ s'.openFileTab = s.openFileTab ∧ s'.nextFd = s.nextFd := by
  rw [SameHandles, FsState.handles, FsState.handles, Prod.mk.injEq]

end Frames

section Property

inductive HandleCall
  | create (path : Name) (mode : UInt32)
  | openFile (path : Name)
  | opendir (path : Name)
  | release (fh : UInt64)

def HandleCall.run (uid : UInt32) : HandleCall → FsM (Option UInt64)
  | .create path mode => do
    let fh ← bfsCreate uid path mode
    pure (some fh)
  | .openFile path => do
    let fh ← bfsOpen uid path
    pure (some fh)
  | .opendir path => do
    let fh ← bfsOpendir uid path
    pure (some fh)
  | .release fh => do
    bfsRelease uid fh
    pure none

/-- The inode that a call opens: the one that `alloc_ino` gives, or the one that the path names. -/
def HandleCall.opens (s : FsState) (uid : UInt32) : HandleCall → Option UInt64
  | .create _ _ => (allocIno s).1.toOption
  | .openFile path => (accessFile s uid path).toOption.map fun found => found.2.iNo
  | .opendir path => (accessFile s uid path).toOption.map fun found => found.2.iNo
  | .release _ => none

def HandleCall.isOpen : HandleCall → Bool
  | .release _ => false
  | _ => true

def trackHandles (live : List UInt64) (c : HandleCall) :
    Except FsErr (Option UInt64) → List UInt64
  | .ok (some fh) => fh::live
  | .ok none =>
    match c with
    | .release fh => live.filter (· ≠ fh)
    | _ => live
  | .error _ => live

def ReturnsRight (s : FsState) (live : List UInt64) (uid : UInt32) (c : HandleCall) : Prop :=
  ∀ fh, (c.run uid s).1 = .ok (some fh) → startFd ≤ fh ∧ fh ∉ live ∧
    ∃ ino, c.opens s uid = some ino ∧ (c.run uid s).2.openFileTab.lookup fh = some ino

def HandlesRight : FsState → List UInt64 → List (UInt32 × HandleCall) → Prop
  | _, _, [] => True
  | s, live, (uid, c)::cs =>
    ReturnsRight s live uid c ∧
      HandlesRight (c.run uid s).2 (trackHandles live c (c.run uid s).1) cs

def openCalls (cs : List (UInt32 × HandleCall)) : ℕ := cs.countP fun c => c.2.isOpen

end Property

section Opening

variable {s : FsState}

/-- `open_file_tab.insert`. -/
def insertedTab (tab : List (UInt64 × UInt64)) (fh ino : UInt64) : List (UInt64 × UInt64) :=
  if (tab.lookup fh).isSome then tab else (fh, ino)::tab

lemma handles_insertOpenFile (fh ino : UInt64) :
    insertOpenFile fh ino s = (.ok (), (insertOpenFile fh ino s).2) ∧
      (insertOpenFile fh ino s).2.handles = (insertedTab s.openFileTab fh ino, s.nextFd) := by
  refine ⟨rfl, ?_⟩
  rw [insertOpenFile, Prog.update_apply, insertedTab]
  split_ifs <;> rfl

/-- What a call that opens the inode `ino` does to the handles: nothing, or it takes the next number,
which may be entered into the table even if the call fails in the end. -/
inductive OpenStep (s s' : FsState) (ino : Option UInt64) : Except FsErr UInt64 → Prop
  | refused (e : FsErr) (h : s'.handles = s.handles) : OpenStep s s' ino (.error e)
  | counted (e : FsErr) (h : s'.handles = (s.openFileTab, s.nextFd + 1)) :
    OpenStep s s' ino (.error e)
  | entered (e : FsErr) (i : UInt64)
    (h : s'.handles = (insertedTab s.openFileTab s.nextFd.toUInt64 i, s.nextFd + 1)) :
    OpenStep s s' ino (.error e)
  | opened (i : UInt64) (hino : ino = some i) (hfh : startFd ≤ s.nextFd.toUInt64)
    (h : s'.handles = (insertedTab s.openFileTab s.nextFd.toUInt64 i, s.nextFd + 1)) :
    OpenStep s s' ino (.ok s.nextFd.toUInt64)

def FsState.tookFd (s : FsState) : FsState := { s with nextFd := s.nextFd + 1 }

lemma allocFd_cases {α : Type} (e : FsErr) (rest : UInt64 → FsM α) :
    ((allocFd >>= fun fh => Prog.require (¬fh < startFd) e >>= fun _ => rest fh) s = (.error e, s) ∨
      (allocFd >>= fun fh => Prog.require (¬fh < startFd) e >>= fun _ => rest fh) s =
        (.error e, s.tookFd)) ∨
      startFd ≤ s.nextFd.toUInt64 ∧
        (allocFd >>= fun fh => Prog.require (¬fh < startFd) e >>= fun _ => rest fh) s =
          rest s.nextFd.toUInt64 s.tookFd := by
  by_cases hfull : s.openFileTab.length = maxOpenFiles
  · have halloc : allocFd s = (.ok 0, s) := by rw [allocFd, if_pos hfull]
    refine Or.inl (Or.inl ?_)
    rw [Prog.bind_of_ok halloc, Prog.require_bind_of_not (by decide)]
  · have halloc : allocFd s = (.ok s.nextFd.toUInt64, s.tookFd) := by
      rw [allocFd, if_neg hfull]
      rfl
    rw [Prog.bind_of_ok halloc]
    by_cases hlow : s.nextFd.toUInt64 < startFd
    · exact Or.inl (Or.inr (Prog.require_bind_of_not (not_not.mpr hlow)))
    · exact Or.inr ⟨UInt64.not_lt.mp hlow, Prog.require_bind_of hlow⟩

lemma openStep_openInode (r : Inode) (msg : String) :
    OpenStep s (openInode r msg s).2 (some r.iNo) (openInode r msg s).1 := by
  rcases allocFd_cases (s := s) (.serverError msg) (fun fh =>
    writeInode { r with refCnt := r.refCnt + 1 } >>= fun _ => insertOpenFile fh r.iNo >>= fun _ =>
      pure fh) with (hrun | hrun) | ⟨hfh, hrun⟩
  · rw [openInode, hrun]
    exact .refused _ rfl
  · rw [openInode, hrun]
    exact .counted _ rfl
  · rw [openInode, hrun]
    have hkeep : SameHandles _ _ := along_writeInode { r with refCnt := r.refCnt + 1 } s.tookFd
    rcases hwrite : writeInode { r with refCnt := r.refCnt + 1 } s.tookFd with ⟨e | u, s₁⟩
    · rw [hwrite] at hkeep
      rw [Prog.bind_of_error hwrite]
      exact .counted _ hkeep
    · rw [hwrite] at hkeep
      obtain ⟨hins, htab⟩ := handles_insertOpenFile (s := s₁) s.nextFd.toUInt64 r.iNo
      rw [Prog.bind_of_ok hwrite, Prog.bind_of_ok hins]
      refine .opened r.iNo rfl hfh (htab.trans ?_)
      obtain ⟨htab₁, hnext₁⟩ := sameHandles_iff.mp hkeep
      rw [htab₁, hnext₁]
      rfl

lemma openStep_ofType {p : Inode → Bool} (e : FsErr) (msg : String) (uid : UInt32) (path : Name) :
    let x : FsM UInt64 := Prog.reads (accessFile · uid path) >>= fun found =>
      Prog.require (p found.2 = true) e >>= fun _ => openInode found.2 msg
    OpenStep s (x s).2 ((accessFile s uid path).toOption.map fun found => found.2.iNo) (x s).1 := by
  intro x
  cases hacc : accessFile s uid path with
  | error e' =>
    have hrun : x s = (.error e', s) := Prog.reads_bind_of_error (f := fun s => accessFile s uid path) hacc
    rw [hrun]
    exact .refused _ rfl
  | ok found =>
    by_cases hp : p found.2 = true
    · have hrun : x s = openInode found.2 msg s :=
        (Prog.reads_bind_of_ok (f := fun s => accessFile s uid path) hacc).trans (Prog.require_bind_of hp)
      rw [hrun]
      exact openStep_openInode found.2 msg
    · have hrun : x s = (.error e, s) :=
        (Prog.reads_bind_of_ok (f := fun s => accessFile s uid path) hacc).trans (Prog.require_bind_of_not hp)
      rw [hrun]
      exact .refused _ rfl

lemma OpenStep.of_handles {s₁ s' : FsState} {ino : Option UInt64} {r : Except FsErr UInt64}
    (h : OpenStep s₁ s' ino r) (hsame : s₁.handles = s.handles) : OpenStep s s' ino r := by
  obtain ⟨htab, hnext⟩ := Prod.mk.injEq .. ▸ hsame
  cases h with
  | refused e h => exact .refused e (h.trans hsame)
  | counted e h => exact .counted e (by rw [h, htab, hnext])
  | entered e i h => exact .entered e i (by rw [h, htab, hnext])
  | opened i hino hfh h =>
    rw [hnext] at hfh ⊢
    exact .opened i hino hfh (by rw [h, htab, hnext])

/-- The end of `bfs_create`, from the handle on. -/
def finishCreate (uid : UInt32) (ino : UInt64) (mode : UInt32) : FsM UInt64 := do
  let fh ← allocFd
  Prog.require (¬fh < startFd) (.serverError "Invalid file handle in create\n")
  insertOpenFile fh ino
  let r ← preallocBlks (Inode.new ino uid (ifreg ||| mode) 1 0)
  writeInode r
  pure fh

lemma bfsCreate_eq (uid : UInt32) (path : Name) (mode : UInt32) :
    bfsCreate uid path mode = (do
      let par ← Prog.reads (newEntryParent · uid path)
      let ino ← allocIno
      Prog.require (¬ino < firstUnreservedIno)
        (.requestFailed "Failed allocating new inode: too many files\n")
      addDentry par ino path
      finishCreate uid ino mode) := rfl

lemma openStep_finishCreate (uid : UInt32) (ino : UInt64) (mode : UInt32) :
    OpenStep s (finishCreate uid ino mode s).2 (some ino) (finishCreate uid ino mode s).1 := by
  rcases allocFd_cases (s := s) (.serverError "Invalid file handle in create\n") (fun fh =>
    insertOpenFile fh ino >>= fun _ => preallocBlks (Inode.new ino uid (ifreg ||| mode) 1 0) >>=
      fun r => writeInode r >>= fun _ => pure fh) with (hrun | hrun) | ⟨hfh, hrun⟩
  · rw [finishCreate, hrun]
    exact .refused _ rfl
  · rw [finishCreate, hrun]
    exact .counted _ rfl
  · rw [finishCreate, hrun]
    obtain ⟨hins, htab⟩ := handles_insertOpenFile (s := s.tookFd) s.nextFd.toUInt64 ino
    rw [Prog.bind_of_ok hins]
    have hkeep : ((preallocBlks (Inode.new ino uid (ifreg ||| mode) 1 0) >>= fun r =>
        writeInode r >>= fun _ => pure s.nextFd.toUInt64 : FsM UInt64)).Along SameHandles :=
      (along_preallocBlks _).bind fun r => (along_writeInode r).bind fun _ => Prog.Along.pure _
    have hend := (hkeep _).trans htab
    rcases hrest : (preallocBlks (Inode.new ino uid (ifreg ||| mode) 1 0) >>= fun r =>
        writeInode r >>= fun _ => pure s.nextFd.toUInt64 : FsM UInt64)
          (insertOpenFile s.nextFd.toUInt64 ino s.tookFd).2 with ⟨e | fh, s'⟩
    · rw [hrest] at hend
      exact .entered e ino hend
    · rw [hrest] at hend
      obtain ⟨r, s₁, -, hrest⟩ := Prog.bind_eq_ok.mp hrest
      obtain ⟨u, s₂, -, hrest⟩ := Prog.bind_eq_ok.mp hrest
      cases hrest
      exact .opened ino rfl hfh hend

lemma openStep_bfsCreate (uid : UInt32) (path : Name) (mode : UInt32) :
    OpenStep s (bfsCreate uid path mode s).2 (allocIno s).1.toOption
      (bfsCreate uid path mode s).1 := by
  rw [bfsCreate_eq]
  cases hpar : newEntryParent s uid path with
  | error e =>
    rw [Prog.reads_bind_of_error (f := fun s => newEntryParent s uid path) hpar]
    exact .refused e rfl
  | ok par =>
    rw [Prog.reads_bind_of_ok (f := fun s => newEntryParent s uid path) hpar]
    have hkeep : SameHandles _ _ := along_allocIno s
    rcases halloc : allocIno s with ⟨e | ino, s₁⟩
    · rw [halloc] at hkeep
      rw [Prog.bind_of_error halloc]
      exact .refused e hkeep
    · rw [halloc] at hkeep
      rw [Prog.bind_of_ok halloc]
      by_cases hres : ¬ino < firstUnreservedIno
      · rw [Prog.require_bind_of hres]
        have hkeep₂ : SameHandles _ _ := along_addDentry par ino path s₁
        rcases hadd : addDentry par ino path s₁ with ⟨e | u, s₂⟩
        · rw [hadd] at hkeep₂
          rw [Prog.bind_of_error hadd]
          exact .refused e (hkeep₂.trans hkeep)
        · rw [hadd] at hkeep₂
          rw [Prog.bind_of_ok hadd]
          exact (openStep_finishCreate uid ino mode).of_handles (hkeep₂.trans hkeep)
      · rw [Prog.require_bind_of_not hres]
        exact .refused _ hkeep

end Opening

section Invariant

variable {s s' : FsState} {live : List UInt64} {n left : ℕ}

/-- `n` handles were taken since the start, and `left` more can be taken. -/
structure HandleInv (s : FsState) (live : List UInt64) (n left : ℕ) : Prop where
  room : startFd.toNat + n + left ≤ 2^32
  next : s.nextFd = UInt32.ofNat (startFd.toNat + n)
  entered : ∀ e ∈ s.openFileTab, e.1.toNat < startFd.toNat + n
  returned : ∀ fh ∈ live, fh.toNat < startFd.toNat + n

lemma HandleInv.toNat_next (h : HandleInv s live n (left+1)) :
    s.nextFd.toUInt64.toNat = startFd.toNat + n := by
  have hroom := h.room
  rw [h.next, UInt32.toNat_toUInt64, UInt32.toNat_ofNat']
  exact Nat.mod_eq_of_lt (by omega)

lemma HandleInv.lookup_next (h : HandleInv s live n (left+1)) :
    s.openFileTab.lookup s.nextFd.toUInt64 = none := by
  rw [List.lookup_eq_none_iff]
  intro e he
  have hlt := h.entered e he
  rw [bne_iff_ne]
  intro heq
  rw [← heq, h.toNat_next] at hlt
  exact absurd hlt (lt_irrefl _)

lemma HandleInv.of_handles (h : HandleInv s live n left) (hsame : s'.handles = s.handles) :
    HandleInv s' live n left := by
  obtain ⟨htab, hnext⟩ := Prod.mk.injEq .. ▸ hsame
  exact ⟨h.room, hnext.trans h.next, htab ▸ h.entered, h.returned⟩

lemma HandleInv.mono {left' : ℕ} (h : HandleInv s live n left) (hle : left' ≤ left) :
    HandleInv s live n left' := by
  have hroom := h.room
  exact ⟨by omega, h.next, h.entered, h.returned⟩

lemma HandleInv.took {tab : List (UInt64 × UInt64)} {live' : List UInt64}
    (h : HandleInv s live n (left+1)) (hs' : s'.handles = (tab, s.nextFd + 1))
    (htab : ∀ e ∈ tab, e ∈ s.openFileTab ∨ e.1 = s.nextFd.toUInt64)
    (hlive : ∀ fh ∈ live', fh ∈ live ∨ fh = s.nextFd.toUInt64) : HandleInv s' live' (n+1) left := by
  obtain ⟨htab', hnext'⟩ := Prod.mk.injEq .. ▸ hs'
  have hroom := h.room
  have hval := h.toNat_next
  refine ⟨by omega, ?_, ?_, ?_⟩
  · rw [hnext', h.next, ← Nat.add_assoc, UInt32.ofNat_add (startFd.toNat + n) 1]
    rfl
  · intro e he
    rw [htab'] at he
    cases htab e he with
    | inl hold => exact (h.entered e hold).trans (by omega)
    | inr hnew =>
      rw [hnew, hval]
      omega
  · intro fh hfh
    cases hlive fh hfh with
    | inl hold => exact (h.returned fh hold).trans (by omega)
    | inr hnew =>
      rw [hnew, hval]
      omega

lemma mem_insertedTab {tab : List (UInt64 × UInt64)} {fh ino : UInt64} {e : UInt64 × UInt64}
    (he : e ∈ insertedTab tab fh ino) : e ∈ tab ∨ e.1 = fh := by
  rw [insertedTab] at he
  split_ifs at he
  · exact Or.inl he
  · cases List.mem_cons.mp he with
    | inl heq => exact Or.inr (by rw [heq])
    | inr hmem => exact Or.inl hmem

def returnedTo (live : List UInt64) : Except FsErr UInt64 → List UInt64
  | .ok fh => fh::live
  | .error _ => live

lemma HandleInv.openStep {ino : Option UInt64} {r : Except FsErr UInt64}
    (h : HandleInv s live n (left+1)) (hstep : OpenStep s s' ino r) :
    (∃ n', HandleInv s' (returnedTo live r) n' left) ∧
      ∀ fh, r = .ok fh → startFd ≤ fh ∧ fh ∉ live ∧
        ∃ i, ino = some i ∧ s'.openFileTab.lookup fh = some i := by
  cases hstep with
  | refused e hs' =>
    refine ⟨⟨n, (h.mono (Nat.le_succ left)).of_handles hs'⟩, ?_⟩
    intro fh hr
    cases hr
  | counted e hs' =>
    refine ⟨⟨n+1, h.took hs' (fun e he => Or.inl he) (fun fh hfh => Or.inl hfh)⟩, ?_⟩
    intro fh hr
    cases hr
  | entered e i hs' =>
    refine ⟨⟨n+1, h.took hs' (fun e he => mem_insertedTab he) (fun fh hfh => Or.inl hfh)⟩, ?_⟩
    intro fh hr
    cases hr
  | opened i hino hfh hs' =>
    refine ⟨⟨n+1, h.took hs' (fun e he => mem_insertedTab he)
      (fun fh hfh => (List.mem_cons.mp hfh).symm)⟩, ?_⟩
    intro fh hr
    obtain rfl := Except.ok.inj hr
    refine ⟨hfh, ?_, i, hino, ?_⟩
    · intro hlive
      have hlt := h.returned _ hlive
      rw [h.toNat_next] at hlt
      exact absurd hlt (lt_irrefl _)
    · have htab : s'.openFileTab = insertedTab s.openFileTab s.nextFd.toUInt64 i :=
        congrArg Prod.fst hs'
      rw [htab, insertedTab, h.lookup_next, if_neg (by simp), List.lookup_cons_self]

lemma HandleInv.release (h : HandleInv s live n left) (uid : UInt32) (fh : UInt64) :
    HandleInv (bfsRelease uid fh s).2 live n left := by
  cases hacc : accessOpen s uid fh "Error during bfs_release get inode id\n" with
  | error e =>
    rw [bfsRelease, Prog.reads_bind_of_error (f := fun s => accessOpen s uid fh _) hacc]
    exact h
  | ok r =>
    rw [bfsRelease, Prog.reads_bind_of_ok (f := fun s => accessOpen s uid fh _) hacc]
    have hkeep : SameHandles _ _ := along_writeInode { r with refCnt := r.refCnt - 1 } s
    rcases hwrite : writeInode { r with refCnt := r.refCnt - 1 } s with ⟨e | u, s₁⟩
    · rw [hwrite] at hkeep
      rw [Prog.bind_of_error hwrite]
      exact h.of_handles hkeep
    · rw [hwrite] at hkeep
      rw [Prog.bind_of_ok hwrite, Prog.update_apply]
      have h₁ := h.of_handles hkeep
      exact ⟨h₁.room, h₁.next, fun e he => h₁.entered e (List.mem_of_mem_filter he), h₁.returned⟩

end Invariant

section Runs

variable {s : FsState} {live : List UInt64} {n : ℕ}

lemma HandleInv.sublist {live' : List UInt64} {left : ℕ} (h : HandleInv s live n left)
    (hsub : ∀ fh ∈ live', fh ∈ live) : HandleInv s live' n left :=
  ⟨h.room, h.next, h.entered, fun fh hfh => h.returned fh (hsub fh hfh)⟩

lemma HandleInv.opening {c : HandleCall} {uid : UInt32} {x : FsM UInt64} {left : ℕ}
    (h : HandleInv s live n (left+1)) (hrun : c.run uid = x >>= fun fh => pure (some fh))
    (hstep : OpenStep s (x s).2 (c.opens s uid) (x s).1) :
    (∃ n', HandleInv (c.run uid s).2 (trackHandles live c (c.run uid s).1) n' left) ∧
      ReturnsRight s live uid c := by
  obtain ⟨hinv, hright⟩ := h.openStep hstep
  rw [ReturnsRight, hrun]
  rcases hx : x s with ⟨e | fh, s'⟩
  · rw [hx] at hinv
    rw [Prog.bind_of_error hx]
    refine ⟨hinv, ?_⟩
    intro fh hfh
    cases hfh
  · rw [hx] at hinv hright
    rw [Prog.bind_of_ok hx]
    refine ⟨hinv, ?_⟩
    intro fh' hfh
    obtain rfl := Option.some.inj (Except.ok.inj hfh)
    exact hright fh rfl

lemma HandleInv.call {c : HandleCall} (uid : UInt32) {left : ℕ}
    (h : HandleInv s live n (left + if c.isOpen then 1 else 0)) :
    (∃ n', HandleInv (c.run uid s).2 (trackHandles live c (c.run uid s).1) n' left) ∧
      ReturnsRight s live uid c := by
  cases c with
  | create path mode => exact h.opening rfl (openStep_bfsCreate uid path mode)
  | openFile path => exact h.opening rfl (openStep_ofType _ _ uid path)
  | opendir path => exact h.opening rfl (openStep_ofType _ _ uid path)
  | release fh =>
    have hinv := h.release uid fh
    have hrun : (HandleCall.release fh).run uid = bfsRelease uid fh >>= fun _ => pure none := rfl
    rw [ReturnsRight, hrun]
    rcases hx : bfsRelease uid fh s with ⟨e | u, s'⟩
    · rw [hx] at hinv
      rw [Prog.bind_of_error hx]
      refine ⟨⟨n, hinv⟩, ?_⟩
      intro fh' hfh
      cases hfh
    · rw [hx] at hinv
      rw [Prog.bind_of_ok hx]
      refine ⟨⟨n, hinv.sublist fun fh' hfh => List.mem_of_mem_filter hfh⟩, ?_⟩
      intro fh' hfh
      cases hfh

lemma HandleInv.handlesRight {cs : List (UInt32 × HandleCall)}
    (h : HandleInv s live n (openCalls cs)) : HandlesRight s live cs := by
  induction cs generalizing s live n with
  | nil => trivial
  | cons c cs ih =>
    obtain ⟨uid, c⟩ := c
    rw [openCalls, List.countP_cons] at h
    obtain ⟨⟨n', hinv⟩, hright⟩ := h.call uid
    exact ⟨hright, ih hinv⟩

/-- As long as the counter does not come round, every handle that is returned is none of the reserved
ones, differs from the live ones and leads to the inode just opened. -/
theorem handles_right_of_openCalls {s : FsState} (htab : s.openFileTab = [])
    (hfd : s.nextFd = startFd.toUInt32) (cs : List (UInt32 × HandleCall))
    (hcount : openCalls cs ≤ 2^32 - 3) : HandlesRight s [] cs := by
  have hstart : startFd.toNat = 3 := rfl
  refine HandleInv.handlesRight (n := 0) ⟨by omega, hfd, ?_, ?_⟩
  · intro e he
    rw [htab] at he
    cases he
  · intro fh hfh
    cases hfh

theorem handles_right_two_dirs : HandlesRight (formatted (fun _ => zeroBlk) 8192) []
    [(0, .opendir rootPath), (0, .opendir rootPath), (0, .release 3), (0, .release 4)] :=
  handles_right_of_openCalls rfl rfl _ (by decide)

end Runs

section Wrapping

variable {s : FsState} {n : ℕ}

def FsState.RootReady (s : FsState) : Prop :=
  ∃ r, s.inode rootIno = some r ∧ r.iNo = rootIno ∧ r.isDir = true ∧ r.denies 0 = false

lemma FsState.RootReady.of_view {s' : FsState} {r : Inode}
    (hview : s'.view = s.view.setInode rootIno r) (hno : r.iNo = rootIno) (hdir : r.isDir = true)
    (hok : r.denies 0 = false) : s'.RootReady := by
  refine ⟨r, ?_, hno, hdir, hok⟩
  rw [← view_inode, hview]
  show Function.update s.view.inode rootIno (some r) rootIno = some r
  rw [Function.update_self]

lemma accessFile_root {r : Inode} (hr : s.inode rootIno = some r) (hno : r.iNo = rootIno)
    (hok : r.denies 0 = false) : accessFile s 0 rootPath = .ok (rootDe s, r) := by
  have hread : readInode s rootIno = .ok r := readInode_of_inode hr (by rw [hno]; decide)
  have hde : getDe s 0 rootPath = .ok (some (rootDe s)) := rfl
  have hlook : lookup s 0 rootPath "File does not exist\n" = .ok (rootDe s, r) := by
    rw [lookup, hde, Fallible.ok_bind]
    dsimp only [rootDe]
    rw [hread, Fallible.ok_bind]
  rw [accessFile, if_neg (by decide), hlook, Fallible.ok_bind]
  simp [hok]

lemma FsState.RootReady.writeInode {r : Inode} (hr : s.inode rootIno = some r) (hno : r.iNo = rootIno)
    (hdir : r.isDir = true) (hok : r.denies 0 = false) (refCnt : UInt64) :
    ∃ s', writeInode { r with refCnt := refCnt } s = (.ok (), s') ∧ s'.RootReady := by
  have hwrite : Native.writeInode { r with refCnt := refCnt } =
      writeInodeAt rootIno { r with refCnt := refCnt } := by
    rw [Native.writeInode, hno]
  obtain ⟨s', hs'⟩ := exists_writeInodeAt (s := s) (i := rootIno) (by rw [hr]; rfl)
    { r with refCnt := refCnt }
  obtain ⟨hview, -⟩ := writeInodeAt_eq_ok (by decide) hs'
  exact ⟨s', by rw [hwrite, hs'], .of_view hview hno hdir hok⟩

lemma FsState.RootReady.opendir (h : s.RootReady) (hfull : s.openFileTab.length ≠ maxOpenFiles)
    (hfh : ¬s.nextFd.toUInt64 < startFd) :
    ∃ s', bfsOpendir 0 rootPath s = (.ok s.nextFd.toUInt64, s') ∧ s'.RootReady ∧
      s'.handles = (insertedTab s.openFileTab s.nextFd.toUInt64 rootIno, s.nextFd + 1) := by
  obtain ⟨r, hr, hno, hdir, hok⟩ := h
  have hacc := accessFile_root hr hno hok
  have halloc : allocFd s = (.ok s.nextFd.toUInt64, s.tookFd) := by
    rw [allocFd, if_neg hfull]
    rfl
  have hr' : s.tookFd.inode rootIno = some r := hr
  obtain ⟨s₁, hwrite, hs₁⟩ := RootReady.writeInode hr' hno hdir hok (r.refCnt + 1)
  have hkeep : SameHandles _ _ := along_writeInode { r with refCnt := r.refCnt + 1 } s.tookFd
  rw [hwrite] at hkeep
  obtain ⟨hins, htab⟩ := handles_insertOpenFile (s := s₁) s.nextFd.toUInt64 r.iNo
  obtain ⟨htab₁, hnext₁⟩ := sameHandles_iff.mp hkeep
  refine ⟨(insertOpenFile s.nextFd.toUInt64 r.iNo s₁).2, ?_, ?_, ?_⟩
  · rw [bfsOpendir, Prog.reads_bind_of_ok (f := fun s => accessFile s 0 rootPath) hacc]
    dsimp only
    rw [Prog.require_bind_of hdir, openInode, Prog.bind_of_ok halloc, Prog.require_bind_of hfh,
      Prog.bind_of_ok hwrite, Prog.bind_of_ok hins]
    rfl
  · obtain ⟨r₁, hr₁, hrest⟩ := hs₁
    refine ⟨r₁, ?_, hrest⟩
    rw [← hr₁, insertOpenFile, Prog.update_apply]
    split_ifs <;> rfl
  · rw [htab, htab₁, hnext₁, hno]
    rfl

lemma FsState.RootReady.opendir_reserved (h : s.RootReady)
    (hfull : s.openFileTab.length ≠ maxOpenFiles) (hfh : s.nextFd.toUInt64 < startFd) :
    bfsOpendir 0 rootPath s = (.error (.serverError "Invalid file handle in opendir\n"), s.tookFd) := by
  obtain ⟨r, hr, hno, hdir, hok⟩ := h
  have hacc := accessFile_root hr hno hok
  have halloc : allocFd s = (.ok s.nextFd.toUInt64, s.tookFd) := by
    rw [allocFd, if_neg hfull]
    rfl
  rw [bfsOpendir, Prog.reads_bind_of_ok (f := fun s => accessFile s 0 rootPath) hacc]
  dsimp only
  rw [Prog.require_bind_of hdir, openInode, Prog.bind_of_ok halloc,
    Prog.require_bind_of_not (not_not.mpr hfh)]

lemma FsState.RootReady.release (h : s.RootReady) (fh : UInt64)
    (hopen : s.openFileTab.lookup fh = some rootIno) :
    ∃ s', bfsRelease 0 fh s = (.ok (), s') ∧ s'.RootReady ∧
      s'.handles = (s.openFileTab.filter fun e => e.1 ≠ fh, s.nextFd) := by
  obtain ⟨r, hr, hno, hdir, hok⟩ := h
  have hread : readInode s rootIno = .ok r := readInode_of_inode hr (by rw [hno]; decide)
  have hino : openIno s fh "Error during bfs_release get inode id\n" = .ok rootIno := by
    rw [openIno, hopen]
    rfl
  have hacc : accessOpen s 0 fh "Error during bfs_release get inode id\n" = .ok r := by
    rw [accessOpen, hino, Fallible.ok_bind, hread, Fallible.ok_bind]
    simp [hok]
  obtain ⟨s₁, hwrite, hs₁⟩ := RootReady.writeInode hr hno hdir hok (r.refCnt - 1)
  have hkeep : SameHandles _ _ := along_writeInode { r with refCnt := r.refCnt - 1 } s
  rw [hwrite] at hkeep
  obtain ⟨htab₁, hnext₁⟩ := sameHandles_iff.mp hkeep
  refine ⟨{ s₁ with openFileTab := s₁.openFileTab.filter fun e => e.1 ≠ fh }, ?_, hs₁, ?_⟩
  · rw [bfsRelease, Prog.reads_bind_of_ok (f := fun s => accessOpen s 0 fh _) hacc,
      Prog.bind_of_ok hwrite, Prog.update_apply]
  · rw [FsState.handles, htab₁, hnext₁]

structure Waiting (s : FsState) (n : ℕ) : Prop where
  root : s.RootReady
  tab : s.openFileTab = [(startFd, rootIno)]
  next : s.nextFd = UInt32.ofNat (startFd.toNat + n)

lemma Waiting.succ {s' : FsState} (h : Waiting s n) (hroot : s'.RootReady)
    (hs' : s'.handles = ([(startFd, rootIno)], s.nextFd + 1)) : Waiting s' (n+1) := by
  obtain ⟨htab, hnext⟩ := Prod.mk.injEq .. ▸ hs'
  refine ⟨hroot, htab, ?_⟩
  rw [hnext, h.next, ← Nat.add_assoc, UInt32.ofNat_add (startFd.toNat + n) 1]
  rfl

lemma Waiting.length_ne (h : Waiting s n) : s.openFileTab.length ≠ maxOpenFiles := by
  rw [h.tab]
  decide

def dirRound (fh : UInt64) : List (UInt32 × HandleCall) :=
  [(0, .opendir rootPath), (0, .release fh)]

lemma Waiting.dirRound (h : Waiting s n) (hn : 0 < n) (hlt : startFd.toNat + n < 2^32)
    {cs : List (UInt32 × HandleCall)}
    (hright : HandlesRight s [startFd]
      (dirRound (UInt64.ofNat (startFd.toNat + n)) ++ cs)) :
    ∃ s', Waiting s' (n+1) ∧ HandlesRight s' [startFd] cs := by
  have hval : s.nextFd.toUInt64 = UInt64.ofNat (startFd.toNat + n) := by
    apply UInt64.toNat.inj
    rw [h.next, UInt32.toNat_toUInt64, UInt32.toNat_ofNat', UInt64.toNat_ofNat',
      Nat.mod_eq_of_lt hlt, Nat.mod_eq_of_lt (by omega)]
  have hne : startFd ≠ s.nextFd.toUInt64 := by
    intro heq
    have hnat := congrArg UInt64.toNat heq
    rw [hval, UInt64.toNat_ofNat', Nat.mod_eq_of_lt (by omega)] at hnat
    omega
  have hfh : ¬s.nextFd.toUInt64 < startFd := by
    rw [hval, UInt64.lt_iff_toNat_lt, UInt64.toNat_ofNat', Nat.mod_eq_of_lt (by omega)]
    omega
  rw [← hval] at hright
  obtain ⟨s₁, hopen, hroot₁, hs₁⟩ := h.root.opendir h.length_ne hfh
  obtain ⟨htab₁, hnext₁⟩ := Prod.mk.injEq .. ▸ hs₁
  have htab : s₁.openFileTab = [(s.nextFd.toUInt64, rootIno), (startFd, rootIno)] := by
    have hnone : s.openFileTab.lookup s.nextFd.toUInt64 = none := by
      rw [h.tab, List.lookup_cons, beq_eq_false_iff_ne.mpr hne.symm]
      rfl
    rw [htab₁, insertedTab, hnone, if_neg (by simp), h.tab]
  obtain ⟨s₂, hrel, hroot₂, hs₂⟩ := hroot₁.release s.nextFd.toUInt64
    (by rw [htab, List.lookup_cons_self])
  have hfilter : s₁.openFileTab.filter (fun e => e.1 ≠ s.nextFd.toUInt64) =
      [(startFd, rootIno)] := by
    simp [htab, hne]
  rw [hfilter, hnext₁] at hs₂
  obtain ⟨-, -, hrest⟩ := hright
  have hrun₁ : (HandleCall.opendir rootPath).run 0 s = (.ok (some s.nextFd.toUInt64), s₁) :=
    Prog.bind_of_ok hopen
  have hrun₂ : (HandleCall.release s.nextFd.toUInt64).run 0 s₁ = (.ok none, s₂) :=
    Prog.bind_of_ok hrel
  rw [hrun₁] at hrest
  dsimp only at hrest
  rw [hrun₂] at hrest
  refine ⟨s₂, h.succ hroot₂ hs₂, ?_⟩
  simpa [trackHandles, hne] using hrest

lemma Waiting.reserved (h : Waiting s n) (hfh : s.nextFd.toUInt64 < startFd)
    {cs : List (UInt32 × HandleCall)}
    (hright : HandlesRight s [startFd] ((0, .opendir rootPath)::cs)) :
    ∃ s', Waiting s' (n+1) ∧ HandlesRight s' [startFd] cs := by
  have hopen := h.root.opendir_reserved h.length_ne hfh
  have hrun : (HandleCall.opendir rootPath).run 0 s =
      (.error (.serverError "Invalid file handle in opendir\n"), s.tookFd) :=
    Prog.bind_of_error hopen
  obtain ⟨-, hrest⟩ := hright
  rw [hrun] at hrest
  refine ⟨s.tookFd, h.succ h.root ?_, hrest⟩
  rw [FsState.handles, FsState.tookFd, h.tab]

lemma exists_waiting_of_rounds {m : ℕ} (hn : 0 < n) (hlt : startFd.toNat + n + m ≤ 2^32)
    (h : Waiting s n) {cs : List (UInt32 × HandleCall)}
    (hright : HandlesRight s [startFd] ((List.range' n m).flatMap
      (fun i => dirRound (UInt64.ofNat (startFd.toNat + i))) ++ cs)) :
    ∃ s', Waiting s' (n + m) ∧ HandlesRight s' [startFd] cs := by
  induction m generalizing s n with
  | zero => exact ⟨s, h, hright⟩
  | succ m ih =>
    rw [List.range'_succ, List.flatMap_cons, List.append_assoc] at hright
    obtain ⟨s₁, h₁, hright₁⟩ := h.dirRound hn (by omega) hright
    obtain ⟨s', hs', hrest⟩ := ih (by omega) (by omega) h₁ hright₁
    exact ⟨s', by rwa [Nat.add_right_comm, Nat.add_assoc] at hs', hrest⟩

/-- Handle 3 is taken and kept, the root is opened and released `m` times, and then opened four
times. -/
def wrapRun (m : ℕ) : List (UInt32 × HandleCall) :=
  (0, .opendir rootPath) :: ((List.range' 1 m).flatMap
    (fun i => dirRound (UInt64.ofNat (startFd.toNat + i))) ++
      List.replicate 4 (0, .opendir rootPath))

lemma Waiting.toNat_next (h : Waiting s n) {k : ℕ} (hn : startFd.toNat + n = 2^32 + k)
    (hk : k < 2^32) : s.nextFd.toUInt64.toNat = k := by
  rw [h.next, hn, UInt32.toNat_toUInt64, UInt32.toNat_ofNat', Nat.add_mod_left, Nat.mod_eq_of_lt hk]

lemma not_handlesRight_wrapRun {m : ℕ} (hroot : s.RootReady) (htab : s.openFileTab = [])
    (hfd : s.nextFd = startFd.toUInt32) (hm : startFd.toNat + (1 + m) = 2^32) :
    ¬HandlesRight s [] (wrapRun m) := by
  intro hright
  have hval : s.nextFd.toUInt64 = startFd := by rw [hfd]; rfl
  obtain ⟨s₁, hopen, hroot₁, hs₁⟩ := hroot.opendir (by rw [htab]; decide) (by rw [hval]; decide)
  rw [hval, htab] at hs₁
  rw [hval] at hopen
  obtain ⟨htab₁, hnext₁⟩ := Prod.mk.injEq .. ▸ hs₁
  have h₁ : Waiting s₁ 1 := ⟨hroot₁, htab₁, by rw [hnext₁, hfd]; rfl⟩
  obtain ⟨-, hrest⟩ := hright
  have hrun : (HandleCall.opendir rootPath).run 0 s = (.ok (some startFd), s₁) :=
    Prog.bind_of_ok hopen
  rw [hrun] at hrest
  obtain ⟨s₂, h₂, hrest⟩ := exists_waiting_of_rounds one_pos (by omega) h₁ hrest
  have hlow : ∀ {s : FsState} {n k : ℕ}, Waiting s n → startFd.toNat + n = 2^32 + k → k < 3 →
      s.nextFd.toUInt64 < startFd := by
    intro s n k h hn hk
    rw [UInt64.lt_iff_toNat_lt, h.toNat_next hn (by omega)]
    exact hk
  obtain ⟨s₃, h₃, hrest⟩ := h₂.reserved (hlow (k := 0) h₂ (by omega) (by decide)) hrest
  obtain ⟨s₄, h₄, hrest⟩ := h₃.reserved (hlow (k := 1) h₃ (by omega) (by decide)) hrest
  obtain ⟨s₅, h₅, hrest⟩ := h₄.reserved (hlow (k := 2) h₄ (by omega) (by decide)) hrest
  have hval₅ : s₅.nextFd.toUInt64 = startFd := by
    apply UInt64.toNat.inj
    exact h₅.toNat_next (k := 3) (by omega) (by decide)
  obtain ⟨s₆, hopen₅, -, -⟩ := h₅.root.opendir h₅.length_ne (by rw [hval₅]; decide)
  have hrun₅ : (HandleCall.opendir rootPath).run 0 s₅ = (.ok (some startFd), s₆) := by
    rw [← hval₅]
    exact Prog.bind_of_ok hopen₅
  have hret := (hrest.1 startFd (by rw [hrun₅])).2.1
  exact hret List.mem_cons_self

lemma deserialize_formattedItab (k : ℕ) {i : ℕ} (hi : i < 8) :
    Inode.deserialize (formattedItab k) (itabBlkOff (UInt64.ofNat i)) = reservedInode k i := by
  have hlist : reservedInos = [0, 1, 2, 3, 4, 5, 6, 7] := by decide
  rw [formattedItab, hlist]
  interval_cases i <;>
    simp +decide only [List.foldl_cons, List.foldl_nil, Inode.deserialize_serialize_at, if_true,
      if_false]

lemma formatted_inode_root (noise : ℕ → Block) {k : ℕ} (hk : itabBlkLoc rootIno < k) :
    (formatted noise k).inode rootIno = some (formattedRoot k) := by
  have hblk : readBlk (formatted noise k) (itabBlkLoc rootIno) = .ok (formattedItab k) :=
    readBlk_eq_ok.mpr ⟨⟨isMeta_eq_false (Or.inl (by decide)), hk⟩, rfl⟩
  exact inode_eq_some.mpr ⟨by decide, _, hblk, deserialize_formattedItab k (i := 2) (by decide)⟩

lemma formatted_rootReady (noise : ℕ → Block) {k : ℕ} (hk : itabBlkLoc rootIno < k) :
    (formatted noise k).RootReady := by
  have hok : (formattedRoot k).denies 0 = false := by
    show (((0 : UInt32) == 0 && (ifdir ||| 0o777) &&& irwxu == 0) ||
      (ifdir ||| 0o777) &&& irwxo == 0) = false
    decide
  have hdir : (formattedRoot k).isDir = true := by
    show ((ifdir ||| 0o777) &&& ifmt == ifdir) = true
    decide
  exact ⟨formattedRoot k, formatted_inode_root noise hk, rfl, hdir, hok⟩

/-- On a formatted volume, when the root has been opened and released 4294967292 times while handle 3
stays open. -/
theorem live_handle_returned_again :
    ¬HandlesRight (formatted (fun _ => zeroBlk) 8192) [] (wrapRun (2^32 - 4)) :=
  not_handlesRight_wrapRun (formatted_rootReady _ (by decide)) rfl rfl (by decide)

end Wrapping

end Bfs.Native
