import Bfs.Blk.Cluster
import Bfs.Utils.BfsCache

/-! `readBlock` and `writeBlock` of the block layer with the block cache enabled. The cache holds
pointers to the blocks that were read and written, and a block is only sent to its device when it
leaves the cache, or with the flag for synchronous writes. -/
namespace Bfs.Blk
open ByteSeq Bfs.Device Bfs.Utils
open Bfs.Fs (Block blkSz)

/-- `_bfs__O_SYNC`. -/
def oSync : UInt32 := 2

/-- `PBfsBlock`: its buffer, and where it is stored. Devices are named by their index. -/
structure PBfsBlock where
  buf : List UInt8
  pbid : UInt64
  rd : ℕ
  dirty : Bool

/-- How a call fails: as without cache, by an exception of the cache, by `abort`, or through a pointer
to a block that was deleted. -/
inductive CachedErr
  | cluster (e : ClusterErr)
  | cache (e : CacheErr)
  | aborted
  | dangling
  deriving DecidableEq, Repr

def CachedErr.message : CachedErr → Option String
  | .cluster e => e.message
  | .cache e => some e.message
  | .aborted => none
  | .dangling => none

structure CachedCluster (D : Type*) where
  cluster : Cluster D
  blkCache : BfsCache UInt64 ℕ
  blocks : ℕ → Option PBfsBlock
  fresh : ℕ

namespace CachedCluster

variable {D : Type*}

/-- A cluster with an empty cache for `maxsz` blocks. -/
def init (cluster : Cluster D) (maxsz : ℕ) : CachedCluster D where
  cluster := cluster
  blkCache := BfsCache.init maxsz
  blocks := fun _ => none
  fresh := 0

def alloc (s : CachedCluster D) (pblk : PBfsBlock) : CachedCluster D :=
  { s with blocks := Function.update s.blocks s.fresh (some pblk), fresh := s.fresh + 1 }

def delete (s : CachedCluster D) (a : ℕ) : CachedCluster D :=
  { s with blocks := Function.update s.blocks a none }

variable (M : DeviceOps D)

/-- The device of the block gets it with `putBlock`, which also changes the block. -/
def put (s : CachedCluster D) (a : ℕ) : Except CachedErr Unit × CachedCluster D :=
  match s.blocks a with
  | none => (.error .dangling, s)
  | some pblk =>
    match s.cluster.devices[pblk.rd]? with
    | none => (.error .dangling, s)
    | some dev =>
      match M.putBlock dev pblk.pbid pblk.buf with
      | (.error e, dev) =>
        (.error (.cluster (.ofDevice e)), { s with cluster := s.cluster.setDevice pblk.rd dev })
      | (.ok buf, dev) =>
        (.ok (), { s with
          cluster := s.cluster.setDevice pblk.rd dev
          blocks := Function.update s.blocks a (some { pblk with buf }) })

/-- `flush_blk`. -/
def flushBlk (s : CachedCluster D) (a : ℕ) : Except CachedErr Unit × CachedCluster D :=
  match s.blocks a with
  | none => (.error .dangling, s)
  | some pblk =>
    if pblk.dirty then
      match s.put M a with
      | (.error (.cluster .failed), s) => (.error .aborted, s)
      | r => r
    else (.ok (), s)

/-- The block at `a` goes into the cache; the block that leaves it is flushed and deleted. -/
def insertBlk (s : CachedCluster D) (vbid : UInt64) (a : ℕ) :
    Except CachedErr Unit × CachedCluster D :=
  match s.blkCache.insertCache vbid a with
  | .error e => (.error (.cache e), s)
  | .ok (cached, blkCache) =>
    let s := { s with blkCache }
    if cached = a then (.ok (), s)
    else
      match s.flushBlk M cached with
      | (.error e, s) => (.error e, s)
      | (.ok _, s) => (.ok (), s.delete cached)

def data (s : CachedCluster D) (a : ℕ) : Except CachedErr (List UInt8) :=
  match s.blocks a with
  | none => .error .dangling
  | some pblk => .ok pblk.buf

/-- `readBlock` with `readBlock_helper`. -/
def readBlock (s : CachedCluster D) (vbid : UInt64) :
    Except CachedErr (List UInt8) × CachedCluster D :=
  match s.cluster.getPhyBlockAddr M vbid with
  | .error e => (.error (.cluster e), s)
  | .ok (i, dev, pbid) =>
    match s.blkCache.checkCache vbid false with
    | .error e => (.error (.cache e), s)
    | .ok (some a, blkCache) => (s.data a, { s with blkCache })
    | .ok (none, blkCache) =>
      match M.getBlock dev pbid with
      | (.error e, dev) =>
        (.error (.cluster (.ofDevice e)),
          { s with blkCache, cluster := s.cluster.setDevice i dev })
      | (.ok blk, dev) =>
        let s := { s with blkCache, cluster := s.cluster.setDevice i dev }
        let a := s.fresh
        match (s.alloc ⟨blk.toList, pbid, i, false⟩).insertBlk M vbid a with
        | (.error e, s) => (.error e, s)
        | (.ok _, s) => (s.data a, s)

/-- `writeBlock` with `writeBlock_helper`. -/
def writeBlock (s : CachedCluster D) (vbid : UInt64) (blk : Block) (flags : UInt32) :
    Except CachedErr Unit × CachedCluster D :=
  match s.cluster.getPhyBlockAddr M vbid with
  | .error e => (.error (.cluster e), s)
  | .ok (i, _, pbid) =>
    let a := s.fresh
    match (s.alloc ⟨blk.toList, pbid, i, true⟩).insertBlk M vbid a with
    | (.error e, s) => (.error e, s)
    | (.ok _, s) => if flags &&& oSync ≠ 0 then s.put M a else (.ok (), s)

end CachedCluster

inductive BlkOp
  | readBlock (vbid : UInt64)
  | writeBlock (vbid : UInt64) (blk : Block) (flags : UInt32)

variable {D : Type*}

def BlkOp.uncached : BlkOp → ClusterOp
  | .readBlock vbid => .readBlock vbid
  | .writeBlock vbid blk flags => .writeBlock vbid blk flags

def BlkOp.exec (M : DeviceOps D) (s : CachedCluster D) :
    BlkOp → Except CachedErr (List (UInt64 × List UInt8)) × CachedCluster D
  | .readBlock vbid =>
    let r := s.readBlock M vbid
    (r.1.map fun buf => [(vbid, buf)], r.2)
  | .writeBlock vbid blk flags =>
    let r := s.writeBlock M vbid blk flags
    (r.1.map fun _ => [], r.2)

def runCached (M : DeviceOps D) : CachedCluster D → List BlkOp →
    List (Except CachedErr (List (UInt64 × List UInt8))) × CachedCluster D
  | s, [] => ([], s)
  | s, op :: ops =>
    let r := op.exec M s
    let rest := runCached M r.2 ops
    (r.1 :: rest.1, rest.2)

end Bfs.Blk
