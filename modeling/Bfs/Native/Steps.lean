import Bfs.Native.FileIo

/-! The functions that change the volume are made of three steps: a block is written, a block is taken,
the number of free inodes is set. What is true of these steps and of runs of them is true of the
functions, however they end. -/
namespace Bfs.Native
open ByteSeq Bfs.Fs

section Programs

/-- A property of programs that holds for what the functions are made of: reading, the three steps,
internal errors and sequences. -/
class StepProp (P : ∀ α : Type, FsM α → Prop) : Prop where
  pure : ∀ {α : Type} (a : α), P α (pure a)
  bind : ∀ {α β : Type} {x : FsM α} {f : α → FsM β}, P α x → (∀ a, P β (f a)) → P β (x >>= f)
  gets : ∀ {α : Type} (f : FsState → α), P α (Prog.gets f)
  readBlk : ∀ b, P Block (Prog.reads (readBlk · b))
  readIbm : P (List Block) (Prog.reads readIbm)
  raise : ∀ {α : Type} {e : FsErr}, e.isClient = false → P α (Prog.raise e)
  writeBlk : ∀ b c, P Unit (writeBlk b c)
  allocBlk : P UInt64 allocBlk
  setNoInodesFree : ∀ n, P Unit (setNoInodesFree n)

open StepProp

variable (P : ∀ α : Type, FsM α → Prop) [StepProp P]

lemma StepProp.require {p : Prop} [Decidable p] {e : FsErr} (he : e.isClient = false) :
    P Unit (Prog.require p e) := by
  rw [Prog.require]
  split_ifs
  · exact pure _
  · exact raise he

lemma StepProp.writeInode (r : Inode) : P Unit (writeInode r) :=
  bind (readBlk _) fun _ => writeBlk _ _

lemma StepProp.allocIno : P UInt64 allocIno := by
  refine bind (gets _) fun noFree => ?_
  split_ifs
  · exact pure _
  · refine bind readIbm fun ibm => ?_
    cases findFreeIno ibm 0 with
    | none => exact raise rfl
    | some r => exact bind (writeBlk _ _) fun _ => bind (setNoInodesFree _) fun _ => pure _

lemma StepProp.writeDentry (b : Block) (d : DirEntry) : P Unit (writeDentry b d) :=
  bind (require P rfl) fun _ => writeBlk _ _

lemma StepProp.placeDentry (par : Inode) (ino : UInt64) (path : Name) (vbid : UInt64) (b : Block) :
    P (Option Inode) (placeDentry par ino path vbid b) := by
  unfold Native.placeDentry
  cases (checkEachDentry .emptySlot par.iLinksCount.toNat vbid b Scan.start).de with
  | none => exact pure _
  | some de => exact bind (writeDentry P _ _) fun _ => bind (writeInode P _) fun _ => pure _

variable {P}

lemma StepProp.placeOr {par : Inode} {ino : UInt64} {path : Name} {vbid : UInt64} {b : Block}
    {rest : FsM (Bool × Inode)} (hrest : P _ rest) :
    P _ (Native.placeDentry par ino path vbid b >>= fun placed =>
      match placed with
      | some par => Pure.pure (true, par)
      | none => rest) := by
  refine bind (placeDentry P par ino path vbid b) fun placed => ?_
  cases placed with
  | none => exact hrest
  | some par => exact pure _

variable (P)

lemma StepProp.addToDirect (ino : UInt64) (path : Name) (idxs : List (Fin numInodeIblks))
    (skipRead : Bool) (par : Inode) : P _ (addToDirect ino path idxs skipRead par) := by
  induction idxs generalizing skipRead par with
  | nil => exact pure _
  | cons idx idxs ih =>
    refine bind (gets _) fun dataStart => ?_
    split_ifs
    · refine bind allocBlk fun newBlk => ?_
      split_ifs
      · exact pure _
      · exact bind (writeInode P _) fun _ => placeOr (ih _ _)
    · exact bind (pure _) fun b => placeOr (ih _ _)
    · exact bind (readBlk _) fun b => placeOr (ih _ _)

lemma StepProp.addToIndirect (ino : UInt64) (path : Name) (idxs : List (Fin numBlksPerIb))
    (skipRead : Bool) (ib : IndirectBlock) (par : Inode) :
    P _ (addToIndirect ino path idxs skipRead ib par) := by
  induction idxs generalizing skipRead ib par with
  | nil => exact pure _
  | cons idx idxs ih =>
    refine bind (gets _) fun dataStart => ?_
    split_ifs
    · refine bind allocBlk fun newBlk => ?_
      split_ifs
      · exact pure _
      · exact bind (writeBlk _ _) fun _ => placeOr (ih _ _ _)
    · exact bind (pure _) fun b => placeOr (ih _ _ _)
    · exact bind (readBlk _) fun b => placeOr (ih _ _ _)

lemma StepProp.addDentry (par : Inode) (ino : UInt64) (path : Name) :
    P Unit (addDentry par ino path) := by
  refine bind (addToDirect P _ _ _ _ _) fun r => ?_
  rcases r with ⟨ok, par⟩
  dsimp only
  split_ifs
  · exact pure _
  · refine bind ?_ fun r => require P rfl
    refine bind (gets _) fun dataStart => ?_
    split_ifs
    · refine bind allocBlk fun newBlk => ?_
      split_ifs
      · exact pure _
      · exact addToIndirect P _ _ _ _ _ _
    · exact bind (readBlk _) fun b => addToIndirect P _ _ _ _ _ _

lemma StepProp.preallocDirect (idxs : List (Fin numInodeIblks)) (r : Inode) :
    P Inode (preallocDirect idxs r) := by
  induction idxs generalizing r with
  | nil => exact pure _
  | cons idx idxs ih => exact bind allocBlk fun b => bind (require P rfl) fun _ => ih _

lemma StepProp.preallocIndirect (idxs : List (Fin numBlksPerIb)) (ib : IndirectBlock) :
    P IndirectBlock (preallocIndirect idxs ib) := by
  induction idxs generalizing ib with
  | nil => exact pure _
  | cons idx idxs ih => exact bind allocBlk fun b => bind (require P rfl) fun _ => ih _

lemma StepProp.preallocBlks (r : Inode) : P Inode (preallocBlks r) :=
  bind (preallocDirect P _ _) fun _ => bind allocBlk fun _ => bind (require P rfl) fun _ =>
    bind (preallocIndirect P _ _) fun _ => bind (writeBlk _ _) fun _ => pure _

end Programs

section Relations

/-- A relation between the states before and after, which holds for the three steps. -/
class StepRel (R : FsState → FsState → Prop) : Prop extends Std.Refl R, IsTrans FsState R where
  writeBlk : ∀ b c, (writeBlk b c).Along R
  allocBlk : allocBlk.Along R
  setNoInodesFree : ∀ n, (setNoInodesFree n).Along R

variable {R : FsState → FsState → Prop} [StepRel R]

instance : StepProp fun _ x => x.Along R where
  pure := Prog.Along.pure
  bind := Prog.Along.bind
  gets := Prog.Along.gets
  readBlk _ := Prog.Along.reads _
  readIbm := Prog.Along.reads _
  raise _ := Prog.Along.raise _
  writeBlk := StepRel.writeBlk
  allocBlk := StepRel.allocBlk
  setNoInodesFree := StepRel.setNoInodesFree

lemma along_writeInode (r : Inode) : (writeInode r).Along R :=
  StepProp.writeInode (fun _ x => x.Along R) r

lemma along_allocIno : allocIno.Along R := StepProp.allocIno fun _ x => x.Along R

lemma along_addDentry (par : Inode) (ino : UInt64) (path : Name) : (addDentry par ino path).Along R :=
  StepProp.addDentry (fun _ x => x.Along R) par ino path

lemma along_preallocBlks (r : Inode) : (preallocBlks r).Along R :=
  StepProp.preallocBlks (fun _ x => x.Along R) r

end Relations

end Bfs.Native
