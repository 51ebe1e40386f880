import Bfs.Fs.Layout

/-! Security metadata of blocks: one IV and MAC per block in a reserved region of the device, and
the Merkle root hash in the region's entry for the block number one past the last block. -/
namespace Bfs.Fs
open ByteSeq

/-- How a function of the file system layer ends other than with `BFS_SUCCESS`. -/
inductive LayerErr
  | failure
  | nullDeref
  | assertFailed
  deriving DecidableEq, Repr

structure Disk where
  size : ℕ
  blk : ℕ → Block

structure Volume where
  useLwext4 : Bool
  numBlks : ℕ

/-- `BFS_LWEXT_MT_ROOT_BLK_NUM`, in both file systems. -/
def Volume.mtRootBlkNum (v : Volume) : ℕ := v.numBlks

def Volume.metaStart (v : Volume) : ℕ :=
  if v.useLwext4 then lwextMetaStartBlkNum v.numBlks else metadataRelStartBlkNum

def Volume.metaBlk (v : Volume) (b : ℕ) : ℕ := v.metaStart + blkMetaBlkLoc b

def readBlockHelper (d : Disk) (b : ℕ) : Except LayerErr Block :=
  if b < d.size then .ok (d.blk b) else .error .failure

def writeBlockHelper (d : Disk) (b : ℕ) (blk : Block) : Except LayerErr Disk :=
  if b < d.size then .ok { d with blk := Function.update d.blk b blk } else .error .failure

/-- An argument of type `uint8_t **`: itself NULL, or the address of a NULL pointer, or the
address of a pointer to a buffer. -/
inductive PtrArg (α : Type*)
  | null
  | empty
  | buffer (content : α)
  deriving DecidableEq, Repr

def PtrArg.deref {α : Type*} : PtrArg α → Except LayerErr (Option α)
  | .null => .error .nullDeref
  | .empty => .ok none
  | .buffer a => .ok (some a)

/-- The arguments `iv`, `mac_copy` and `root` of the two metadata functions. -/
inductive MetaBufs
  | slot (iv : PtrArg Iv) (mac : PtrArg Mac)
  | root (hash : PtrArg Hash)
  deriving DecidableEq, Repr

def MetaBufs.check : MetaBufs → Except LayerErr Unit
  | .root hash => do
    if (← hash.deref).isSome then .ok () else .error .failure
  | .slot iv mac => do
    if (← iv.deref).isSome then .ok ()
    else if (← mac.deref).isSome then .ok ()
    else .error .failure

def ivOff (b : ℕ) : ℕ := blkMetaBlkIdxLoc b * (ivLen + macLen)

lemma ivOff_fits (b : ℕ) : ivOff b + ivLen ≤ blkSz :=
  (Nat.le_add_right _ _).trans (blkMetaBlkIdxLoc_fits b)

lemma macOff_fits (b : ℕ) : ivOff b + ivLen + macLen ≤ blkSz := blkMetaBlkIdxLoc_fits b

lemma root_fits : 0 + hmacLen ≤ blkSz := by decide

/-- `memcpy` of the stored IV when the caller gave a buffer for it. -/
def fetchIv (blk : Block) (b : ℕ) (iv : PtrArg Iv) : Except LayerErr (PtrArg Iv) := do
  match ← iv.deref with
  | none => .ok .empty
  | some _ => .ok (.buffer (blk.sub (ivOff b) ivLen (ivOff_fits b)))

def fetchMac (blk : Block) (b : ℕ) (mac : PtrArg Mac) : Except LayerErr (PtrArg Mac) := do
  match ← mac.deref with
  | none => .ok .empty
  | some _ => .ok (.buffer (blk.sub (ivOff b + ivLen) macLen (macOff_fits b)))

/-- `BfsFsLayer::read_blk_meta`. -/
def readBlkMeta (v : Volume) (d : Disk) (b : ℕ) (bufs : MetaBufs) : Except LayerErr MetaBufs := do
  bufs.check
  if v.useLwext4 && !decide (blkMetaBlkLoc b ≤ lwext4MetaSpc v.numBlks) then
    .error .assertFailed
  else
    let blk ← readBlockHelper d (v.metaBlk b)
    match bufs with
    | .slot iv mac => .ok (.slot (← fetchIv blk b iv) (← fetchMac blk b mac))
    | .root _ => .ok (.root (.buffer (blk.sub 0 hmacLen root_fits)))

def storeIv (blk : Block) (b : ℕ) (iv : PtrArg Iv) : Except LayerErr Block := do
  match ← iv.deref with
  | none => .ok blk
  | some iv => .ok (blk.copy (ivOff b) iv (ivOff_fits b))

def storeMac (blk : Block) (b : ℕ) (mac : PtrArg Mac) : Except LayerErr Block := do
  match ← mac.deref with
  | none => .ok blk
  | some mac => .ok (blk.copy (ivOff b + ivLen) mac (macOff_fits b))

/-- `BfsFsLayer::write_blk_meta`. The entry of a block is changed in place, while the root hash
replaces the content of a fresh block. -/
def writeBlkMeta (v : Volume) (d : Disk) (b : ℕ) (bufs : MetaBufs) : Except LayerErr Disk := do
  bufs.check
  if v.useLwext4 && !decide (blkMetaBlkLoc b < lwext4MetaSpc v.numBlks) then
    .error .assertFailed
  else
    match bufs with
    | .slot iv mac => do
      let blk ← readBlockHelper d (v.metaBlk b)
      let blk ← storeIv blk b iv
      let blk ← storeMac blk b mac
      writeBlockHelper d (v.metaBlk b) blk
    | .root hash => do
      match ← hash.deref with
      | none => .error .nullDeref
      | some hash =>
        writeBlockHelper d (v.metaBlk b) ((Buf.fill 0 blkSz).copy 0 hash root_fits)

/-- `BfsFsLayer::save_root_hash`, with the content of the root node. -/
def saveRootHash (v : Volume) (d : Disk) (rootHash : PtrArg Hash) : Except LayerErr Disk :=
  writeBlkMeta v d v.mtRootBlkNum (.root rootHash)

section Spec

def Volume.slotOf (v : Volume) (d : Disk) (b : ℕ) : Iv × Mac :=
  ((d.blk (v.metaBlk b)).sub (ivOff b) ivLen (ivOff_fits b),
    (d.blk (v.metaBlk b)).sub (ivOff b + ivLen) macLen (macOff_fits b))

def Volume.rootOf (v : Volume) (d : Disk) : Hash :=
  (d.blk (v.metaBlk v.mtRootBlkNum)).sub 0 hmacLen root_fits

def Volume.putSlot (v : Volume) (d : Disk) (b : ℕ) (iv : Iv) (mac : Mac) : Disk where
  size := d.size
  blk := Function.update d.blk (v.metaBlk b)
    (((d.blk (v.metaBlk b)).copy (ivOff b) iv (ivOff_fits b)).copy (ivOff b + ivLen) mac
      (macOff_fits b))

def Volume.putRoot (v : Volume) (d : Disk) (hash : Hash) : Disk where
  size := d.size
  blk := Function.update d.blk (v.metaBlk v.mtRootBlkNum)
    ((Buf.fill 0 blkSz).copy 0 hash root_fits)

def Volume.MetaFits (v : Volume) (d : Disk) : Prop := v.metaBlk v.mtRootBlkNum < d.size

variable {v : Volume} {d : Disk} {b : ℕ}

lemma Volume.metaBlk_le (h : b ≤ v.numBlks) : v.metaBlk b ≤ v.metaBlk v.mtRootBlkNum := by
  unfold Volume.metaBlk blkMetaBlkLoc Volume.mtRootBlkNum
  exact Nat.add_le_add_left (Nat.div_le_div_right h) _

lemma blkMetaBlkLoc_lt_spc (h : b ≤ v.numBlks) :
    blkMetaBlkLoc b < lwext4MetaSpc v.numBlks := by
  have hdiv : blkMetaBlkLoc b ≤ v.numBlks / metasPerBlk := Nat.div_le_div_right h
  unfold lwext4MetaSpc
  omega

lemma readBlkMeta_slot (hfit : v.MetaFits d) (h : b ≤ v.numBlks) (iv : Iv) (mac : Mac) :
    readBlkMeta v d b (.slot (.buffer iv) (.buffer mac)) =
      .ok (.slot (.buffer (v.slotOf d b).1) (.buffer (v.slotOf d b).2)) := by
  have hlt : v.metaBlk b < d.size := (Volume.metaBlk_le h).trans_lt hfit
  have hspc := (blkMetaBlkLoc_lt_spc h).le
  simp [readBlkMeta, MetaBufs.check, PtrArg.deref, hspc, readBlockHelper, hlt, fetchIv, fetchMac,
    Volume.slotOf, bind, Except.bind]

lemma readBlkMeta_root (hfit : v.MetaFits d) (hash : Hash) :
    readBlkMeta v d v.mtRootBlkNum (.root (.buffer hash)) = .ok (.root (.buffer (v.rootOf d))) := by
  have hlt : v.metaBlk v.mtRootBlkNum < d.size := hfit
  have hspc : blkMetaBlkLoc v.mtRootBlkNum ≤ lwext4MetaSpc v.numBlks :=
    (blkMetaBlkLoc_lt_spc le_rfl).le
  simp [readBlkMeta, MetaBufs.check, PtrArg.deref, hspc, readBlockHelper, hlt, Volume.rootOf,
    bind, Except.bind]

lemma writeBlkMeta_slot (hfit : v.MetaFits d) (h : b ≤ v.numBlks) (iv : Iv) (mac : Mac) :
    writeBlkMeta v d b (.slot (.buffer iv) (.buffer mac)) = .ok (v.putSlot d b iv mac) := by
  have hlt : v.metaBlk b < d.size := (Volume.metaBlk_le h).trans_lt hfit
  have hspc := blkMetaBlkLoc_lt_spc h
  simp [writeBlkMeta, MetaBufs.check, PtrArg.deref, hspc, readBlockHelper, writeBlockHelper, hlt,
    storeIv, storeMac, Volume.putSlot, bind, Except.bind]

lemma saveRootHash_eq (hfit : v.MetaFits d) (hash : Hash) :
    saveRootHash v d (.buffer hash) = .ok (v.putRoot d hash) := by
  have hlt : v.metaBlk v.mtRootBlkNum < d.size := hfit
  have hspc : blkMetaBlkLoc v.mtRootBlkNum < lwext4MetaSpc v.numBlks := blkMetaBlkLoc_lt_spc le_rfl
  simp [saveRootHash, writeBlkMeta, MetaBufs.check, PtrArg.deref, hspc, writeBlockHelper, hlt,
    Volume.putRoot, bind, Except.bind]

lemma Volume.slotOf_putSlot_same (iv : Iv) (mac : Mac) :
    v.slotOf (v.putSlot d b iv mac) b = (iv, mac) := by
  unfold Volume.slotOf Volume.putSlot
  simp only [Function.update_self, Buf.sub_copy_same, Prod.mk.injEq, and_true]
  rw [Buf.sub_copy_disjoint _ _ _ _ _ _ _ (Or.inl le_rfl), Buf.sub_copy_same]

lemma Volume.slotOf_putSlot_other {a : ℕ} (hne : a ≠ b) (iv : Iv) (mac : Mac) :
    v.slotOf (v.putSlot d b iv mac) a = v.slotOf d a := by
  unfold Volume.slotOf Volume.putSlot
  by_cases hloc : blkMetaBlkLoc a = blkMetaBlkLoc b
  · have hblk : v.metaBlk a = v.metaBlk b := by rw [Volume.metaBlk, Volume.metaBlk, hloc]
    have hdisj : ivOff a + (ivLen + macLen) ≤ ivOff b ∨ ivOff b + (ivLen + macLen) ≤ ivOff a :=
      blkMetaBlkIdxLoc_disjoint hloc hne
    simp only [hblk, Function.update_self]
    rw [Buf.sub_copy_disjoint _ _ _ _ _ _ _ (by omega),
      Buf.sub_copy_disjoint _ _ _ _ _ _ _ (by omega),
      Buf.sub_copy_disjoint _ _ _ _ _ _ _ (by omega),
      Buf.sub_copy_disjoint _ _ _ _ _ _ _ (by omega)]
  · have hblk : v.metaBlk a ≠ v.metaBlk b := by
      unfold Volume.metaBlk
      omega
    simp only [Function.update_of_ne hblk]

lemma Volume.slotOf_putRoot_other (hloc : blkMetaBlkLoc b ≠ blkMetaBlkLoc v.numBlks)
    (hash : Hash) : v.slotOf (v.putRoot d hash) b = v.slotOf d b := by
  have hblk : v.metaBlk b ≠ v.metaBlk v.mtRootBlkNum := by
    unfold Volume.metaBlk Volume.mtRootBlkNum
    omega
  simp only [Volume.slotOf, Volume.putRoot, Function.update_of_ne hblk]

lemma Volume.slotOf_putRoot_shared (hloc : blkMetaBlkLoc b = blkMetaBlkLoc v.numBlks)
    (hash : Hash) : v.slotOf (v.putRoot d hash) b =
      (((Buf.fill 0 blkSz).copy 0 hash root_fits).sub (ivOff b) ivLen (ivOff_fits b),
        ((Buf.fill 0 blkSz).copy 0 hash root_fits).sub (ivOff b + ivLen) macLen
          (macOff_fits b)) := by
  have hblk : v.metaBlk b = v.metaBlk v.mtRootBlkNum := by
    rw [Volume.metaBlk, hloc]
    rfl
  simp only [Volume.slotOf, Volume.putRoot, hblk, Function.update_self]

@[simp] lemma Volume.rootOf_putRoot (hash : Hash) : v.rootOf (v.putRoot d hash) = hash := by
  simp only [Volume.rootOf, Volume.putRoot, Function.update_self, Buf.sub_copy_same]

end Spec

end Bfs.Fs
