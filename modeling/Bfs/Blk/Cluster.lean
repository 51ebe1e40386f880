import Bfs.Lib.Concat
import Bfs.Blk.BlockDevice

/-! `bfsVertBlockCluster`: the blocks of several devices under virtual block ids, with the block cache
disabled. -/
namespace Bfs.Blk
open ByteSeq Bfs.Device
open Bfs.Fs (Block blkSz)

inductive ClusterErr
  | unmappable (addr : UInt64)
  | failed
  | device (e : DevErr)
  deriving DecidableEq, Repr

def ClusterErr.message : ClusterErr → Option String
  | .unmappable addr => some ("Unmappable virtual block address " ++ toString addr)
  | .failed => none
  | .device e => e.message

def ClusterErr.ofDevice (e : DevErr) : ClusterErr :=
  if e.message.isSome then .device e else .failed

structure Cluster (D : Type*) where
  devices : List D
  maxBlockID : UInt64

/-- `sizeof(blk_alloc_entry)`. -/
def allocEntrySize : ℕ := 24

variable {D : Type*}

/-- `getPhyBlockAddr` from the device with index `i` on, which starts at `saddr`. -/
def getPhyBlockAddrFrom (M : DeviceOps D) : List D → ℕ → UInt64 → UInt64 → Option (ℕ × D × UInt64)
  | [], _, _, _ => none
  | dev :: devs, i, saddr, addr =>
    if addr < saddr + M.numBlocks dev then some (i, dev, addr - saddr)
    else getPhyBlockAddrFrom M devs (i+1) (saddr + M.numBlocks dev) addr

namespace Cluster

variable (M : DeviceOps D)

/-- `addBlockDevice`. The allocation table gets an entry for each block; `none` if it does not fit into
memory, where the loop that fills it goes through a null pointer. -/
def addBlockDevice (c : Cluster D) (dev : D) : Option (Cluster D) :=
  if (c.maxBlockID.toNat + (M.numBlocks dev).toNat) * allocEntrySize < 2^64 then
    some ⟨c.devices ++ [dev], c.maxBlockID + M.numBlocks dev⟩
  else none

/-- `bfsVertBlockClusterInitialize` for the devices of the manifest. -/
def clusterInitialize (manifest : List D) : Option (Cluster D) :=
  manifest.foldlM (addBlockDevice M) ⟨[], 0⟩

/-- `getPhyBlockAddr`: the device, with its index, and the block there. -/
def getPhyBlockAddr (c : Cluster D) (addr : UInt64) : Except ClusterErr (ℕ × D × UInt64) :=
  match getPhyBlockAddrFrom M c.devices 0 0 addr with
  | none => .error (.unmappable addr)
  | some r => .ok r

def setDevice (c : Cluster D) (i : ℕ) (dev : D) : Cluster D := { c with devices := c.devices.set i dev }

/-- `readBlock` without block cache. -/
def readBlock (c : Cluster D) (vbid : UInt64) : Except ClusterErr Block × Cluster D :=
  match c.getPhyBlockAddr M vbid with
  | .error e => (.error e, c)
  | .ok (i, dev, pbid) =>
    match M.getBlock dev pbid with
    | (.error e, dev) => (.error (.ofDevice e), c.setDevice i dev)
    | (.ok blk, dev) => (.ok blk, c.setDevice i dev)

/-- `writeBlock` without block cache: every write goes to the device, whatever its flags. -/
def writeBlock (c : Cluster D) (vbid : UInt64) (blk : Block) (_flags : UInt32) :
    Except ClusterErr Unit × Cluster D :=
  match c.getPhyBlockAddr M vbid with
  | .error e => (.error e, c)
  | .ok (i, dev, pbid) =>
    match M.putBlock dev pbid blk.toList with
    | (.error e, dev) => (.error (.ofDevice e), c.setDevice i dev)
    | (.ok _, dev) => (.ok (), c.setDevice i dev)

/-- A request for several blocks of a device that has some. Exceptions are passed on; a failure that
is only returned is not noticed, and the new blocks keep their zeros. -/
def fetch (dev : D) (pbids : List UInt64) : Except ClusterErr (List (UInt64 × Block)) × D :=
  if pbids = [] then (.ok [], dev)
  else
    match M.getBlocks dev pbids with
    | (.ok blks, dev) => (.ok blks, dev)
    | (.error e, dev) =>
      if e.message.isSome then (.error (.device e), dev)
      else (.ok (pbids.map fun pbid => (pbid, Buf.fill 0 blkSz)), dev)

def store (dev : D) (blks : List (UInt64 × Block)) : Except ClusterErr Unit × D :=
  if blks = [] then (.ok (), dev)
  else
    match M.putBlocks dev blks with
    | (.ok _, dev) => (.ok (), dev)
    | (.error e, dev) => if e.message.isSome then (.error (.device e), dev) else (.ok (), dev)

def forDevices {α : Type*} (request : ℕ → D → Except ClusterErr α × D) :
    ℕ → List D → Except ClusterErr (List α) × List D
  | _, [] => (.ok [], [])
  | i, dev :: devs =>
    match request i dev with
    | (.error e, dev) => (.error e, dev :: devs)
    | (.ok a, dev) =>
      match forDevices request (i+1) devs with
      | (.error e, devs) => (.error e, dev :: devs)
      | (.ok as, devs) => (.ok (a :: as), dev :: devs)

def onDevice {α : Type*} (i : ℕ) (locs : List ((ℕ × D × UInt64) × α)) : List (UInt64 × α) :=
  locs.filterMap fun l => if l.1.1 = i then some (l.1.2.2, l.2) else none

/-- `readBlocks` of a map of blocks, in the order of its keys. -/
def readBlocks (c : Cluster D) (vbids : List UInt64) :
    Except ClusterErr (List (UInt64 × Block)) × Cluster D :=
  match vbids.mapM (c.getPhyBlockAddr M) with
  | .error e => (.error e, c)
  | .ok locs =>
    let request := fun i dev => fetch M dev ((onDevice i (locs.map (·, ()))).map Prod.fst)
    match forDevices request 0 c.devices with
    | (.error e, devices) => (.error e, { c with devices })
    | (.ok found, devices) =>
      (.ok ((vbids.zip locs).map fun vl =>
        (vl.1, (((found[vl.2.1]?).getD []).lookup vl.2.2.2).getD (Buf.fill 0 blkSz))),
        { c with devices })

/-- `writeBlocks` of a map of blocks, in the order of its keys. -/
def writeBlocks (c : Cluster D) (blks : List (UInt64 × Block)) :
    Except ClusterErr Unit × Cluster D :=
  match blks.mapM fun b => c.getPhyBlockAddr M b.1 with
  | .error e => (.error e, c)
  | .ok locs =>
    let request := fun i dev => store M dev (onDevice i (locs.zip (blks.map Prod.snd)))
    match forDevices request 0 c.devices with
    | (.error e, devices) => (.error e, { c with devices })
    | (.ok _, devices) => (.ok (), { c with devices })

end Cluster

inductive ClusterOp
  | readBlock (vbid : UInt64)
  | writeBlock (vbid : UInt64) (blk : Block) (flags : UInt32)
  | readBlocks (vbids : List UInt64)
  | writeBlocks (blks : List (UInt64 × Block))

abbrev ClusterResult := List (UInt64 × Block)

def ClusterOp.exec (M : DeviceOps D) (c : Cluster D) :
    ClusterOp → Except ClusterErr ClusterResult × Cluster D
  | .readBlock vbid =>
    let r := c.readBlock M vbid
    (r.1.map fun blk => [(vbid, blk)], r.2)
  | .writeBlock vbid blk flags =>
    let r := c.writeBlock M vbid blk flags
    (r.1.map fun _ => [], r.2)
  | .readBlocks vbids => c.readBlocks M vbids
  | .writeBlocks blks =>
    let r := c.writeBlocks M blks
    (r.1.map fun _ => [], r.2)

def runCluster (M : DeviceOps D) : Cluster D → List ClusterOp →
    List (Except ClusterErr ClusterResult) × Cluster D
  | c, [] => ([], c)
  | c, op :: ops =>
    let r := op.exec M c
    let rest := runCluster M r.2 ops
    (r.1 :: rest.1, rest.2)

end Bfs.Blk
