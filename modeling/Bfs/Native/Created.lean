import Bfs.Native.Handles
import Bfs.Native.WriteLoop

/-! The files that `bfs_create` makes. Their direct blocks, their indirect block and the blocks of its
entries are taken one after the other, and none of them is written before the file is. -/
namespace Bfs.Native
open ByteSeq Bfs.Fs

section Counters

def FsState.Countable (s : FsState) : Prop := s.sb.nextVbid.toNat + s.sb.noDblocksFree < 2^64

structure Grows (s s' : FsState) : Prop where
  numBlks : s'.numBlks = s.numBlks
  present : ∀ b, (s.disk b).isSome → (s'.disk b).isSome
  counted : s.Countable → s'.Countable ∧ s.sb.nextVbid.toNat ≤ s'.sb.nextVbid.toNat

lemma isSome_disk_setBlk {s : FsState} {b b' : ℕ} (c : Block) (h : (s.disk b').isSome) :
    ((s.setBlk b c).disk b').isSome := by
  by_cases hb : b' = b
  · rw [hb, show (s.setBlk b c).disk b = some c from Function.update_self ..]
    rfl
  · rw [show (s.setBlk b c).disk b' = s.disk b' from Function.update_of_ne hb ..]
    exact h

lemma toNat_nextVbid_takeBlk {s : FsState} (hfree : s.sb.noDblocksFree ≠ 0) (hs : s.Countable) :
    s.takeBlk.sb.nextVbid.toNat = s.sb.nextVbid.toNat + 1 := by
  rw [FsState.Countable] at hs
  rw [show s.takeBlk.sb.nextVbid = s.sb.nextVbid + 1 from rfl, UInt64.toNat_add,
    show (1 : UInt64).toNat = 1 from rfl]
  omega

instance : StepRel Grows where
  refl s := ⟨rfl, fun _ h => h, fun h => ⟨h, le_rfl⟩⟩
  trans s t u hst htu := by
    refine ⟨htu.numBlks.trans hst.numBlks, fun b h => htu.present b (hst.present b h), fun h => ?_⟩
    obtain ⟨ht, hle⟩ := hst.counted h
    obtain ⟨hu, hle'⟩ := htu.counted ht
    exact ⟨hu, hle.trans hle'⟩
  writeBlk b c s := by
    by_cases hb : s.Usable b
    · rw [writeBlk_of_usable hb]
      exact ⟨rfl, fun b' => isSome_disk_setBlk c, fun h => ⟨h, le_rfl⟩⟩
    · rcases hrun : writeBlk b c s with ⟨e | u, s'⟩
      · obtain ⟨rfl, -⟩ := writeBlk_eq_error hrun
        exact ⟨rfl, fun _ h => h, fun h => ⟨h, le_rfl⟩⟩
      · exact absurd (writeBlk_eq_ok.mp hrun).1 hb
  allocBlk s := by
    by_cases hfree : s.sb.noDblocksFree = 0
    · rw [allocBlk_of_full hfree]
      exact ⟨rfl, fun _ h => h, fun h => ⟨h, le_rfl⟩⟩
    · rw [allocBlk_of_free hfree]
      refine ⟨rfl, fun _ h => h, fun h => ?_⟩
      have hnext := toNat_nextVbid_takeBlk hfree h
      have hcount : s.takeBlk.sb.noDblocksFree = s.sb.noDblocksFree - 1 := rfl
      show s.takeBlk.Countable ∧ s.sb.nextVbid.toNat ≤ s.takeBlk.sb.nextVbid.toNat
      rw [FsState.Countable] at h
      rw [FsState.Countable]
      omega
  setNoInodesFree _ _ := ⟨rfl, fun _ h => h, fun h => ⟨h, le_rfl⟩⟩

end Counters

section Preallocation

variable {s s' t : FsState} {n : ℕ}

structure Taken (s : FsState) (k : ℕ) (s' : FsState) : Prop where
  numBlks : s'.numBlks = s.numBlks
  disk : s'.disk = s.disk
  next : s'.sb.nextVbid.toNat = s.sb.nextVbid.toNat + k
  countable : s'.Countable

lemma Taken.trans {k m : ℕ} (hst : Taken s k t) (hts' : Taken t m s') : Taken s (k+m) s' := by
  refine ⟨hts'.numBlks.trans hst.numBlks, hts'.disk.trans hst.disk, ?_, hts'.countable⟩
  rw [hts'.next, hst.next, Nat.add_assoc]

lemma taken_of_allocBlk (hs : s.Countable) {b : UInt64} (hb : b ≠ 0) (h : allocBlk s = (.ok b, s')) :
    b.toNat = s.sb.nextVbid.toNat ∧ Taken s 1 s' := by
  obtain ⟨hfree, rfl, rfl⟩ := allocBlk_eq_ok hb h
  have hgrows := StepRel.allocBlk (R := Grows) s
  rw [allocBlk_of_free hfree] at hgrows
  exact ⟨rfl, rfl, rfl, toNat_nextVbid_takeBlk hfree hs, (hgrows.counted hs).1⟩

/-- Take a block for each index, as both parts of `prealloc_blks` do. -/
def fillBlks (msg : String) : List (Fin n) → Buf UInt64 n → FsM (Buf UInt64 n)
  | [], blks => pure blks
  | idx::idxs, blks => do
    let b ← allocBlk
    Prog.require (b ≠ 0) (.serverError msg)
    fillBlks msg idxs (blks.set idx b)

lemma fillBlks_eq_ok {msg : String} {idxs : List (Fin n)} (hidxs : idxs.Nodup) (hs : s.Countable)
    {blks blks' : Buf UInt64 n} (h : fillBlks msg idxs blks s = (.ok blks', s')) :
    Taken s idxs.length s' ∧ (∀ i ∉ idxs, blks'.get i = blks.get i) ∧
      ∀ j (hj : j < idxs.length), (blks'.get idxs[j]).toNat = s.sb.nextVbid.toNat + j := by
  induction idxs generalizing s blks with
  | nil =>
    cases h
    exact ⟨⟨rfl, rfl, rfl, hs⟩, fun _ _ => rfl, fun j hj => absurd hj (Nat.not_lt_zero j)⟩
  | cons idx idxs ih =>
    obtain ⟨hnew, hrest⟩ := List.nodup_cons.mp hidxs
    obtain ⟨b, t, halloc, h⟩ := Prog.bind_eq_ok.mp h
    obtain ⟨hb, h⟩ := Prog.require_bind_eq_ok.mp h
    obtain ⟨hnum, ht⟩ := taken_of_allocBlk hs hb halloc
    obtain ⟨htaken, hother, hfilled⟩ := ih hrest ht.countable h
    refine ⟨?_, ?_, ?_⟩
    · rw [List.length_cons, Nat.add_comm]
      exact ht.trans htaken
    · intro i hi
      rw [List.mem_cons, not_or] at hi
      rw [hother i hi.2, Buf.get_set, if_neg (Ne.symm hi.1)]
    · intro j hj
      cases j with
      | zero =>
        rw [List.getElem_cons_zero, hother idx hnew, Buf.get_set, if_pos rfl, hnum, Nat.add_zero]
      | succ j =>
        rw [List.getElem_cons_succ, hfilled j (Nat.lt_of_succ_lt_succ hj), ht.next]
        omega

lemma preallocIndirect_eq (idxs : List (Fin numBlksPerIb)) (ib : IndirectBlock) :
    preallocIndirect idxs ib = fillBlks "Failed preallocating a new indirect data block\n" idxs ib := by
  induction idxs generalizing ib with
  | nil => rfl
  | cons idx idxs ih =>
    rw [preallocIndirect, fillBlks]
    simp only [ih]

lemma preallocDirect_eq_ok {idxs : List (Fin numInodeIblks)} {r r' : Inode}
    (h : preallocDirect idxs r s = (.ok r', s')) :
    fillBlks "Failed preallocating a new direct block vbid\n" idxs r.iBlks s = (.ok r'.iBlks, s') ∧
      r' = { r with iBlks := r'.iBlks } := by
  induction idxs generalizing r s with
  | nil =>
    cases h
    exact ⟨rfl, rfl⟩
  | cons idx idxs ih =>
    obtain ⟨b, t, halloc, h⟩ := Prog.bind_eq_ok.mp h
    obtain ⟨hb, h⟩ := Prog.require_bind_eq_ok.mp h
    obtain ⟨hfill, hfields⟩ := ih h
    refine ⟨?_, hfields⟩
    rw [fillBlks, Prog.bind_of_ok halloc, Prog.require_bind_of hb]
    exact hfill

/-- The blocks of a file in the order in which `prealloc_blks` takes them. -/
structure Consecutive (s : FsState) (r : Inode) (first : ℕ) : Prop where
  direct : ∀ i, (r.iBlks.get i).toNat = first + i
  entries : ∀ i, ((indirectOf s r).get i).toNat = first + numInodeIblks + i

/-- The blocks that `prealloc_blks` took. -/
lemma preallocBlks_eq_ok {r r' : Inode} (hs : s.Countable) (hstart : s.dataStart ≤ s.sb.nextVbid.toNat)
    (h : preallocBlks r s = (.ok r', s')) :
    Consecutive s' r' s.sb.nextVbid.toNat ∧ r' = { r with iBlks := r'.iBlks } ∧
      s'.sb.nextVbid.toNat = s.sb.nextVbid.toNat + (maxFileBlks + 1) := by
  rw [preallocBlks] at h
  -- the list of the 512 indices is not to be unfolded
  generalize hidxs : List.finRange numBlksPerIb = idxs at h
  obtain ⟨r₁, s₁, hdirect, h⟩ := Prog.bind_eq_ok.mp h
  obtain ⟨b, s₂, halloc, h⟩ := Prog.bind_eq_ok.mp h
  obtain ⟨hb, h⟩ := Prog.require_bind_eq_ok.mp h
  obtain ⟨ib, s₃, hentries, h⟩ := Prog.bind_eq_ok.mp h
  obtain ⟨u, s₄, hwrite, h⟩ := Prog.bind_eq_ok.mp h
  obtain ⟨hfill₁, hfields⟩ := preallocDirect_eq_ok hdirect
  have hnodup : ((List.finRange numDirectBlocks).map Fin.castSucc).Nodup :=
    (List.nodup_finRange _).map (Fin.castSucc_injective _)
  obtain ⟨htaken₁, -, hnum₁⟩ := fillBlks_eq_ok hnodup hs hfill₁
  obtain ⟨hnum₂, htaken₂⟩ := taken_of_allocBlk htaken₁.countable hb halloc
  rw [preallocIndirect_eq, ← hidxs] at hentries
  obtain ⟨htaken₃, -, hnum₃⟩ := fillBlks_eq_ok (List.nodup_finRange _) htaken₂.countable hentries
  obtain ⟨-, rfl⟩ := writeBlk_eq_ok.mp hwrite
  cases h
  rw [List.length_map, List.length_finRange] at htaken₁
  rw [List.length_finRange] at htaken₃
  have hdirectBlks := numDirectBlocks_eq
  have hperIb := numBlksPerIb_eq
  have hiblks : numInodeIblks = 13 := rfl
  have hmax := maxFileBlks_eq
  have hnext₁ := htaken₁.next
  have hnext₂ := htaken₂.next
  have hnext₃ := htaken₃.next
  refine ⟨⟨?_, ?_⟩, ?_, ?_⟩
  · intro i
    rw [Inode.setIBlk, Buf.get_set]
    split_ifs with hi
    · rw [hnum₂, hnext₁, ← hi]
      rfl
    · have hlt : (i : ℕ) < numDirectBlocks := by
        have hne : (i : ℕ) ≠ numDirectBlocks := fun heq => hi (Fin.ext heq.symm)
        have := i.isLt
        omega
      have hnum := hnum₁ i (by rw [List.length_map, List.length_finRange]; exact hlt)
      rw [List.getElem_map, List.getElem_finRange] at hnum
      exact hnum
  · intro i
    have hdata : s₃.dataStart ≤ (r₁.setIBlk indirectIdx b).indirect.toNat := by
      rw [indirect_setIndirect, FsState.dataStart, htaken₃.numBlks, htaken₂.numBlks, htaken₁.numBlks]
      rw [FsState.dataStart] at hstart
      omega
    have hib := indirectOf_serialize hdata ib
    rw [indirect_setIndirect] at hib
    have hnum := hnum₃ i (by rw [List.length_finRange]; exact i.isLt)
    rw [List.getElem_finRange, Fin.cast_mk] at hnum
    rw [hib, hnum]
    omega
  · rw [hfields]
    rfl
  · show s₃.sb.nextVbid.toNat = _
    omega

end Preallocation

section Layout

variable {s : FsState} {r : Inode} {first m : ℕ}

lemma Consecutive.indirect (h : Consecutive s r first) : r.indirect.toNat = first + numDirectBlocks :=
  h.direct indirectIdx

lemma Consecutive.toNat_fileBlk (h : Consecutive s r first) {k : ℕ} (hk : k < maxFileBlks) :
    (fileBlk s r k).toNat = first + if k < numDirectBlocks then k else k + 1 := by
  have hmax : maxFileBlks = numDirectBlocks + numBlksPerIb := rfl
  split_ifs with hdirect
  · rw [fileBlk_direct hdirect, h.direct]
  · rw [fileBlk_get (Nat.sub_add_cancel (Nat.not_lt.mp hdirect)) (by omega), h.entries]
    have hiblks : numInodeIblks = numDirectBlocks + 1 := rfl
    dsimp only
    omega

lemma Consecutive.placed (h : Consecutive s r first) (hfirst : s.dataStart ≤ first)
    (hnext : first + (maxFileBlks + 1) ≤ s.sb.nextVbid.toNat) : Placed s r := by
  have hmax := maxFileBlks_eq
  have hdirect := numDirectBlocks_eq
  have hib := h.indirect
  constructor
  · intro j k hj heq
    have hlt := hj.lt
    have hk : k < maxFileBlks := by
      rw [Mapped, heq] at hj
      exact Mapped.lt hj
    have hnum := congrArg UInt64.toNat heq
    rw [h.toNat_fileBlk hlt, h.toNat_fileBlk hk] at hnum
    split_ifs at hnum <;> omega
  · intro k hk
    have hlt := hk.lt
    rw [h.toNat_fileBlk hlt]
    split_ifs <;> omega
  · intro _
    omega
  · intro k hk heq
    have hnum := congrArg UInt64.toNat heq
    rw [h.toNat_fileBlk hk.lt] at hnum
    split_ifs at hnum <;> omega
  · omega

lemma Consecutive.fileOk (h : Consecutive s r first) (hfirst : s.dataStart ≤ first)
    (hnext : first + (maxFileBlks + 1) ≤ s.sb.nextVbid.toNat) (hsize : r.size = 0)
    (hdevice : s.numBlks < 2^64) (hroom : first + min m maxFileBlks + 1 ≤ s.numBlks)
    (hpresent : ∀ b < s.numBlks, (s.disk b).isSome) : FileOk s r m := by
  have hdirect := numDirectBlocks_eq
  have hmax := maxFileBlks_eq
  have hread : ∀ b, first ≤ b → b < s.numBlks → ∃ c, readBlk s b = .ok c := by
    intro b hb hlt
    obtain ⟨c, hc⟩ := Option.isSome_iff_exists.mp (hpresent b hlt)
    exact ⟨c, readBlk_eq_ok.mpr ⟨⟨isMeta_eq_false (Or.inr (hfirst.trans hb)), hlt⟩, hc⟩⟩
  have hib := h.indirect
  refine ⟨h.placed hfirst hnext, hdevice, ?_, ?_, ?_, ?_⟩
  · rw [hsize]
    exact Nat.zero_le _
  · rw [hsize]
    exact Nat.zero_le _
  · intro k hk
    refine ⟨fun hlt => ?_, fun hge => ⟨by omega, hread _ (by omega) (by omega)⟩⟩
    rw [Mapped, h.toNat_fileBlk hlt]
    omega
  · intro k hk hlt
    apply hread
    · rw [h.toNat_fileBlk hlt]
      omega
    · rw [h.toNat_fileBlk hlt]
      split_ifs <;> omega

end Layout

section Create

variable {s s' : FsState} {uid : UInt32} {path : Name} {mode : UInt32} {fh ino : UInt64} {r : Inode}

structure OpenFile (s : FsState) (fh ino : UInt64) (r : Inode) : Prop where
  handle : s.openFileTab.lookup fh = some ino
  valid : ¬ino < rootIno
  stored : s.inode ino = some r
  number : r.iNo = ino

structure NewFile (s : FsState) (fh ino : UInt64) (uid mode : UInt32) (r : Inode) : Prop where
  opened : OpenFile s fh ino r
  fields : r = { Inode.new ino uid (ifreg ||| mode) 1 0 with iBlks := r.iBlks }
  fileOk : ∀ m, s.sb.nextVbid.toNat + min m maxFileBlks ≤ s.numBlks + maxFileBlks → FileOk s r m

lemma allocFd_eq_ok (h : allocFd s = (.ok fh, s')) (hfh : ¬fh < startFd) : s' = s.tookFd := by
  rw [allocFd] at h
  split_ifs at h
  · cases h
    exact absurd (by decide) hfh
  · cases h
    rfl

structure FsState.Fillable (s : FsState) : Prop where
  countable : s.Countable
  start : s.dataStart ≤ s.sb.nextVbid.toNat
  device : s.numBlks < 2^64
  present : ∀ b < s.numBlks, (s.disk b).isSome

lemma Grows.fillable (hg : Grows s s') (hs : s.Fillable) : s'.Fillable := by
  obtain ⟨hcount, hle⟩ := hg.counted hs.countable
  refine ⟨hcount, ?_, ?_, ?_⟩
  · rw [FsState.dataStart, hg.numBlks]
    exact hs.start.trans hle
  · rw [hg.numBlks]
    exact hs.device
  · intro b hb
    rw [hg.numBlks] at hb
    exact hg.present b (hs.present b hb)

lemma grows_insertOpenFile (fh ino : UInt64) : Grows s (insertOpenFile fh ino s.tookFd).2 := by
  rw [insertOpenFile, Prog.update_apply]
  dsimp only
  split_ifs <;> exact ⟨rfl, fun _ h => h, fun h => ⟨h, le_rfl⟩⟩

lemma Consecutive.setBlk_itab {first : ℕ} (h : Consecutive s r first) (hfirst : s.dataStart ≤ first)
    (hlt : ino.toNat < numInodes) (c : Block) : Consecutive (s.setBlk (itabBlkLoc ino) c) r first := by
  refine ⟨h.direct, fun i => ?_⟩
  have hib := h.indirect
  have hloc := itabBlkLoc_eq ino
  have hge := dataStart_ge s
  rw [numInodes_eq] at hlt
  rw [indirectOf_setBlk (by omega)]
  exact h.entries i

/-- The file that `bfs_create` makes, behind the test of its parent. -/
lemma finishCreate_newFile (hs : s.Fillable) (h : finishCreate uid ino mode s = (.ok fh, s'))
    (hino : ¬ino < firstUnreservedIno) (hlt : ino.toNat < numInodes)
    (hfresh : s.openFileTab.lookup fh = none) : ∃ r, NewFile s' fh ino uid mode r := by
  obtain ⟨fh', s₁, hfd, h⟩ := Prog.bind_eq_ok.mp h
  obtain ⟨hvalid, h⟩ := Prog.require_bind_eq_ok.mp h
  obtain ⟨u, s₂, hins, h⟩ := Prog.bind_eq_ok.mp h
  obtain ⟨r, s₃, hpre, h⟩ := Prog.bind_eq_ok.mp h
  obtain ⟨u', s₄, hwrite, h⟩ := Prog.bind_eq_ok.mp h
  cases h
  obtain rfl := allocFd_eq_ok hfd hvalid
  have hs₂ : s₂.Fillable := by
    obtain rfl : (insertOpenFile fh ino s.tookFd).2 = s₂ := congrArg Prod.snd hins
    exact (grows_insertOpenFile fh ino).fillable hs
  obtain ⟨hblks, hfields, hnext⟩ := preallocBlks_eq_ok hs₂.countable hs₂.start hpre
  have hgrows : Grows s₂ s₃ := (along_preallocBlks _).of_eq hpre
  have hs₃ := hgrows.fillable hs₂
  have hno : r.iNo = ino := by
    rw [hfields]
    rfl
  have hsize : r.size = 0 := by
    rw [hfields]
    rfl
  obtain ⟨hview, -⟩ := writeInodeAt_eq_ok (by rw [hno]; exact hlt) hwrite
  have hgrows' : Grows s₃ s' := (along_writeInode r).of_eq hwrite
  have hs' := hgrows'.fillable hs₃
  have hkeep : SameHandles s₂ s' :=
    trans_of SameHandles ((along_preallocBlks _).of_eq hpre) ((along_writeInode r).of_eq hwrite)
  refine ⟨r, ⟨?_, ?_, ?_, hno⟩, hfields, fun m hroom => ?_⟩
  · obtain ⟨-, htab⟩ := handles_insertOpenFile (s := s.tookFd) fh ino
    rw [hins] at htab
    rw [(sameHandles_iff.mp hkeep).1, (Prod.mk.inj htab).1, insertedTab,
      show s.tookFd.openFileTab = s.openFileTab from rfl, hfresh, if_neg (by simp)]
    exact List.lookup_cons_self ..
  · intro hroot
    exact hino (UInt64.lt_trans hroot (by decide))
  · rw [← view_inode, hview, hno]
    exact Function.update_self ..
  · obtain ⟨c, -, hset⟩ := Prog.reads_bind_eq_ok.mp hwrite
    obtain ⟨-, rfl⟩ := writeBlk_eq_ok.mp hset
    have hfirst : s₃.dataStart ≤ s₂.sb.nextVbid.toNat := by
      rw [FsState.dataStart, hgrows.numBlks]
      exact hs₂.start
    rw [hno] at hroom hs' ⊢
    have hblks' := hblks.setBlk_itab hfirst hlt (r.serialize c (itabBlkOff ino))
    change s₃.sb.nextVbid.toNat + _ ≤ _ at hroom
    refine hblks'.fileOk hfirst hnext.ge hsize hs'.device ?_ hs'.present
    omega

/-- A successful `bfs_create` makes such a file. -/
lemma bfsCreate_newFile (hs : s.Fillable) (h : bfsCreate uid path mode s = (.ok fh, s'))
    (hlt : ∀ ino, (allocIno s).1 = .ok ino → ino.toNat < numInodes)
    (hfresh : s.openFileTab.lookup fh = none) : ∃ ino r, NewFile s' fh ino uid mode r := by
  rw [bfsCreate_eq] at h
  obtain ⟨par, -, h⟩ := Prog.reads_bind_eq_ok.mp h
  obtain ⟨ino, s₁, halloc, h⟩ := Prog.bind_eq_ok.mp h
  obtain ⟨hino, h⟩ := Prog.require_bind_eq_ok.mp h
  obtain ⟨u, s₂, hadd, h⟩ := Prog.bind_eq_ok.mp h
  have hgrows : Grows s s₂ := trans_of Grows (along_allocIno.of_eq halloc)
    ((along_addDentry par ino path).of_eq hadd)
  have hkeep : SameHandles s s₂ := trans_of SameHandles (along_allocIno.of_eq halloc)
    ((along_addDentry par ino path).of_eq hadd)
  refine ⟨ino, finishCreate_newFile (hgrows.fillable hs) h hino (hlt ino (by rw [halloc])) ?_⟩
  rw [(sameHandles_iff.mp hkeep).1]
  exact hfresh

lemma toNat_nextVbid_formatted (noise : ℕ → Block) {n : ℕ} (hn : dataRelStartBlkNum n + 1 < 2^64) :
    (formatted noise n).sb.nextVbid.toNat = dataRelStartBlkNum n + 1 := by
  show (UInt64.ofNat (dataRelStartBlkNum n + 1)).toNat = _
  rw [UInt64.toNat_ofNat', Nat.mod_eq_of_lt hn]

lemma formatted_fillable (noise : ℕ → Block) {n : ℕ} (hn : n < 2^63) : (formatted noise n).Fillable := by
  have hmeta : numMetaBlocks n ≤ n + 1 := Nat.succ_le_succ (Nat.div_le_self ..)
  have hstart : metadataRelStartBlkNum = 6256 := by decide
  have hnext := toNat_nextVbid_formatted (n := n) noise (by rw [dataRelStartBlkNum]; omega)
  refine ⟨?_, ?_, ?_, ?_⟩
  · have hfree : (formatted noise n).sb.noDblocksFree ≤ n - numMetaBlocks n := by
      show n - numIbitmapBlocks - numItabBlocks - numMetaBlocks n - 1 - 1 ≤ _
      omega
    rw [FsState.Countable, hnext, dataRelStartBlkNum]
    omega
  · rw [hnext]
    exact Nat.le_succ _
  · show n < 2^64
    omega
  · intro b _
    show (formattedDisk noise n b).isSome
    rw [formattedDisk]
    split_ifs <;> rfl

end Create

end Bfs.Native
