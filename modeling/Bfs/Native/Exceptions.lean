import Bfs.Native.Effects
import Bfs.Native.Steps

/-! Which exceptions the functions on blocks, inodes and directories raise: none of them refuses a
request, so that an operation refuses only in its own tests. -/
namespace Bfs.Native
open ByteSeq Bfs.Fs Fallible

def Internal {α : Type} (x : Except FsErr α) : Prop := Fails (fun e => e.isClient = false) x

def InternalProg {α : Type} (x : FsM α) : Prop := x.Raises fun e => e.isClient = false

section Reading

variable (s : FsState)

lemma readBlk_internal (b : ℕ) : Internal (readBlk s b) := by
  rw [readBlk]
  split_ifs
  · exact Fails.error rfl
  · exact Fails.error rfl
  · cases s.disk b with
    | none => exact Fails.error rfl
    | some v => exact Fails.ok v

lemma readInode_internal (ino : UInt64) : Internal (readInode s ino) := by
  apply Fails.bind (readBlk_internal s _)
  intro b _
  dsimp only
  split_ifs
  · exact Fails.error rfl
  · exact Fails.ok _

lemma readIbm_internal : Internal (readIbm s) := Fails.mapM fun _ _ => readBlk_internal s _

lemma checkBlks_internal (h : DeHandler) (links : ℕ) (vbids : List UInt64) (st : Scan) :
    Internal (checkBlks s h links vbids st) := by
  induction vbids generalizing st with
  | nil => exact Fails.ok _
  | cons vbid vbids ih =>
    rw [checkBlks]
    split_ifs
    · exact Fails.ok _
    · apply Fails.bind (readBlk_internal s _)
      intro b _
      dsimp only
      split_ifs
      · exact Fails.ok _
      · exact ih _

end Reading

section Blocks

lemma writeBlk_internal (b : ℕ) (c : Block) : InternalProg (writeBlk b c) := by
  intro s e s' h
  rw [writeBlk] at h
  split_ifs at h <;> cases h <;> rfl

lemma allocBlk_internal : InternalProg allocBlk := by
  intro s e s' h
  rw [allocBlk] at h
  split_ifs at h <;> cases h

instance : StepProp fun _ x => InternalProg x where
  pure := Prog.Raises.pure
  bind := Prog.Raises.bind
  gets := Prog.Raises.gets
  readBlk _ := Prog.Raises.reads fun s => readBlk_internal s _
  readIbm := Prog.Raises.reads readIbm_internal
  raise he := Prog.Raises.raise he
  writeBlk := writeBlk_internal
  allocBlk := allocBlk_internal
  setNoInodesFree _ := Prog.Raises.update _

lemma allocIno_internal : InternalProg allocIno := StepProp.allocIno fun _ x => InternalProg x

lemma addDentry_internal (par : Inode) (ino : UInt64) (path : Name) :
    InternalProg (addDentry par ino path) :=
  StepProp.addDentry (fun _ x => InternalProg x) par ino path

lemma preallocBlks_internal (r : Inode) : InternalProg (preallocBlks r) :=
  StepProp.preallocBlks (fun _ x => InternalProg x) r

lemma deallocBlk_internal (b : UInt64) : InternalProg (deallocBlk b) := by
  intro s e s' h
  rw [deallocBlk] at h
  split_ifs at h <;> cases h

lemma deallocBlks_internal (msg : String) (bs : List UInt64) :
    InternalProg (deallocBlks msg bs) := by
  induction bs with
  | nil => exact Prog.Raises.pure _
  | cons b bs ih =>
    refine Prog.Raises.bind (Prog.Raises.gets _) fun start => ?_
    split_ifs
    · exact Prog.Raises.pure _
    · exact Prog.Raises.bind (deallocBlk_internal b) fun ok =>
        Prog.Raises.bind (Prog.Raises.require rfl) fun _ => ih

end Blocks

section Inodes

lemma writeInodeAt_internal (ino : UInt64) (r : Inode) : InternalProg (writeInodeAt ino r) :=
  Prog.Raises.bind (Prog.Raises.reads fun s => readBlk_internal s _) fun _ => writeBlk_internal _ _

lemma writeInode_internal (r : Inode) : InternalProg (writeInode r) := writeInodeAt_internal r.iNo r

lemma deleteIndirect_internal (r : Inode) : InternalProg (deleteIndirect r) := by
  refine Prog.Raises.bind (Prog.Raises.gets _) fun start => ?_
  split_ifs
  · exact Prog.Raises.pure _
  · refine Prog.Raises.bind (Prog.Raises.reads fun s => readBlk_internal s _) fun b => ?_
    refine Prog.Raises.bind (deallocBlks_internal _ _) fun all => ?_
    split_ifs
    · exact Prog.Raises.bind (deallocBlk_internal _) fun _ => Prog.Raises.require rfl
    · exact Prog.Raises.pure _

lemma deleteInodeIblks_internal (r : Inode) : InternalProg (deleteInodeIblks r) := by
  refine Prog.Raises.bind (deallocBlks_internal _ _) fun all => ?_
  split_ifs
  · exact deleteIndirect_internal r
  · exact Prog.Raises.pure _

lemma deallocIno_internal (r : Inode) : InternalProg (deallocIno r) := by
  refine Prog.Raises.bind (Prog.Raises.require rfl) fun _ => ?_
  refine Prog.Raises.bind (Prog.Raises.gets _) fun noFree => ?_
  refine Prog.Raises.bind (Prog.Raises.reads fun s => readBlk_internal s _) fun b => ?_
  refine Prog.Raises.bind (Prog.Raises.require rfl) fun _ => ?_
  refine Prog.Raises.bind (writeBlk_internal _ _) fun _ => ?_
  refine Prog.Raises.bind (deleteInodeIblks_internal r) fun _ => ?_
  refine Prog.Raises.bind (writeInodeAt_internal _ _) fun _ => ?_
  exact Prog.Raises.update _

lemma allocFd_internal : InternalProg allocFd := by
  intro s e s' h
  rw [allocFd] at h
  split_ifs at h <;> cases h

lemma openInode_internal (r : Inode) (badFd : String) : InternalProg (openInode r badFd) :=
  Prog.Raises.bind allocFd_internal fun _ => Prog.Raises.bind (Prog.Raises.require rfl) fun _ =>
    Prog.Raises.bind (writeInode_internal _) fun _ =>
      Prog.Raises.bind (Prog.Raises.update _) fun _ => Prog.Raises.pure _

end Inodes

section Dentries

lemma rewriteDentry_internal (de : DirEntry) (nm : Name) (ino : UInt64) :
    InternalProg (rewriteDentry de nm ino) :=
  Prog.Raises.bind (Prog.Raises.reads fun s => readBlk_internal s _) fun _ =>
    StepProp.writeDentry (fun _ x => InternalProg x) _ _

lemma clearDentry_internal (de : DirEntry) (par : Inode) : InternalProg (clearDentry de par) :=
  Prog.Raises.bind (rewriteDentry_internal _ _ _) fun _ => writeInode_internal _

end Dentries

end Bfs.Native
