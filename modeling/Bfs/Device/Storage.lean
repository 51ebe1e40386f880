import Bfs.Device.Packet

/-! `bfsDeviceStorage`: the blocks of a device as an array. -/
namespace Bfs.Device
open ByteSeq LittleEndian Fallible
open Bfs.Fs (Block blkSz)

/-- `bfsDeviceStorage`, after the storage was created. -/
@[ext] structure DeviceStorage where
  numBlocks : UInt64
  blocks : UInt64 → Block

namespace DeviceStorage

/-- `getBlockAddress`, also `directBlockAccess`; the null pointer is `none`. -/
def getBlockAddress (s : DeviceStorage) (blkid : UInt64) : Option UInt64 :=
  if s.numBlocks ≤ blkid then none else some blkid

/-- Copy a block to the address of block `blkid`. -/
def write (s : DeviceStorage) (blkid : UInt64) (blk : Block) : DeviceStorage :=
  { s with blocks := Function.update s.blocks blkid blk }

/-- `bfsDeviceStorage::getBlock`. -/
def getBlock (s : DeviceStorage) (blkid : UInt64) : Option Block :=
  (s.getBlockAddress blkid).map s.blocks

/-- `bfsDeviceStorage::putBlock`. -/
def putBlock (s : DeviceStorage) (blkid : UInt64) (blk : Block) : Option DeviceStorage :=
  (s.getBlockAddress blkid).map fun baddr => s.write baddr blk

variable {s : DeviceStorage} {blkid : UInt64}

lemma getBlockAddress_of_lt (h : blkid < s.numBlocks) : s.getBlockAddress blkid = some blkid :=
  if_neg (UInt64.not_le.mpr h)

lemma getBlockAddress_of_not_lt (h : ¬ blkid < s.numBlocks) : s.getBlockAddress blkid = none :=
  if_pos (UInt64.not_lt.mp h)

lemma getBlock_of_lt (h : blkid < s.numBlocks) : s.getBlock blkid = some (s.blocks blkid) := by
  rw [getBlock, getBlockAddress_of_lt h, Option.map_some]

lemma getBlock_of_not_lt (h : ¬ blkid < s.numBlocks) : s.getBlock blkid = none := by
  rw [getBlock, getBlockAddress_of_not_lt h, Option.map_none]

lemma putBlock_of_lt (h : blkid < s.numBlocks) (blk : Block) :
    s.putBlock blkid blk = some (s.write blkid blk) := by
  rw [putBlock, getBlockAddress_of_lt h, Option.map_some]

@[simp] lemma write_numBlocks (s : DeviceStorage) (blkid : UInt64) (blk : Block) :
    (s.write blkid blk).numBlocks = s.numBlocks := rfl

@[simp] lemma write_blocks (s : DeviceStorage) (blkid : UInt64) (blk : Block) :
    (s.write blkid blk).blocks = Function.update s.blocks blkid blk := rfl

def writeAll (s : DeviceStorage) (blks : List (UInt64 × Block)) : DeviceStorage :=
  blks.foldl (fun s b => s.write b.1 b.2) s

@[simp] lemma writeAll_nil (s : DeviceStorage) : s.writeAll [] = s := rfl
@[simp] lemma writeAll_cons (s : DeviceStorage) (b : UInt64 × Block) (blks : List (UInt64 × Block)) :
    s.writeAll (b :: blks) = (s.write b.1 b.2).writeAll blks := rfl

@[simp] lemma writeAll_numBlocks (s : DeviceStorage) (blks : List (UInt64 × Block)) :
    (s.writeAll blks).numBlocks = s.numBlocks := by
  induction blks generalizing s with
  | nil => rfl
  | cons b blks ih => rw [writeAll_cons, ih, write_numBlocks]

end DeviceStorage

/-- `removeHeader` of one block. -/
def removeBlock (buf : List UInt8) : Except DevErr (Block × List UInt8) :=
  if h : blkSz ≤ buf.length then
    .ok (⟨buf.take blkSz, by rw [List.length_take]; omega⟩, buf.drop blkSz)
  else .error .headerUnderflow

lemma removeBlock_append (blk : Block) (rest : List UInt8) :
    removeBlock (blk.toList ++ rest) = .ok (blk, rest) := by
  have hlen : blkSz ≤ (blk.toList ++ rest).length := by
    rw [List.length_append, blk.length_toList]
    omega
  have htake : (blk.toList ++ rest).take blkSz = blk.toList := List.take_left' blk.length_toList
  have hdrop : (blk.toList ++ rest).drop blkSz = rest := List.drop_left' blk.length_toList
  simp only [removeBlock, dif_pos hlen, htake, hdrop]

/-- `bfsLocalDevice`. -/
structure LocalDevice where
  deviceID : UInt32
  storage : DeviceStorage

namespace LocalDevice

/-- `getBlock`; 1 is returned for a null pointer. -/
def getBlock (d : LocalDevice) (pbid : UInt64) : Except DevErr Block :=
  match d.storage.getBlock pbid with
  | none => .error .failed
  | some blk => .ok blk

/-- `putBlock` of a `PBfsBlock`, which is not changed. -/
def putBlock (d : LocalDevice) (pbid : UInt64) (blk : Block) : Except DevErr LocalDevice :=
  match d.storage.putBlock pbid blk with
  | none => .error .failed
  | some storage => .ok { d with storage }

/-- `getBlocks`: the blocks are read in the order of the map. -/
def getBlocks (d : LocalDevice) : List UInt64 → Except DevErr (List (UInt64 × Block))
  | [] => .ok []
  | pbid :: pbids =>
    match d.storage.getBlock pbid with
    | none => .error .localFailed
    | some blk => do
      let rest ← d.getBlocks pbids
      .ok ((pbid, blk) :: rest)

/-- `putBlocks`: the blocks before one that fails are written. -/
def putBlocks (d : LocalDevice) : List (UInt64 × Block) → Except DevErr Unit × LocalDevice
  | [] => (.ok (), d)
  | b :: blks =>
    match d.storage.putBlock b.1 b.2 with
    | none => (.error .localFailed, d)
    | some storage => { d with storage }.putBlocks blks

lemma getBlocks_of_lt {d : LocalDevice} {pbids : List UInt64}
    (hids : ∀ pbid ∈ pbids, pbid < d.storage.numBlocks) :
    d.getBlocks pbids = .ok (pbids.map fun pbid => (pbid, d.storage.blocks pbid)) := by
  induction pbids with
  | nil => rfl
  | cons pbid pbids ih =>
    have hget := DeviceStorage.getBlock_of_lt (hids pbid List.mem_cons_self)
    have hrest := ih fun p hp => hids p (List.mem_cons_of_mem _ hp)
    simp only [getBlocks, hget, hrest, ok_bind, List.map_cons]

lemma putBlocks_of_lt {d : LocalDevice} {blks : List (UInt64 × Block)}
    (hids : ∀ pbid ∈ blks.map Prod.fst, pbid < d.storage.numBlocks) :
    d.putBlocks blks = (.ok (), { d with storage := d.storage.writeAll blks }) := by
  induction blks generalizing d with
  | nil => rfl
  | cons b blks ih =>
    have hput := DeviceStorage.putBlock_of_lt (hids b.1 (by simp)) b.2
    simp only [putBlocks, hput]
    exact ih fun p hp => hids p (List.mem_cons_of_mem _ hp)

end LocalDevice

end Bfs.Device
