import Bfs.Fs.MerkleTree

/-! The native block path: `read_blk` and `write_blk` with the block cache disabled, and the part of
formatting and mounting that concerns blocks. -/
namespace Bfs.Fs
open ByteSeq

inductive Status
  | uninitialized
  | initialized
  | formatting
  | formatted
  | mounted
  | corrupted
  deriving DecidableEq, Repr

def Status.code : Status → ℕ
  | .uninitialized => 0
  | .initialized => 1
  | .formatting => 2
  | .formatted => 3
  | .mounted => 4
  | .corrupted => 5

/-- The reasons of a `BfsServerError` of the block path, and the crash on a NULL hash. -/
inductive BlkErr
  | readMeta
  | writeMeta
  | readFailed
  | writeFailed
  | notFormatted
  | readMacFailed
  | writeMacFailed
  | decryptFailed
  | nullRootRead
  | nullRootWrite
  | nullLeafRead
  | nullLeafWrite
  | parMismatch
  | crash
  deriving DecidableEq, Repr

def BlkErr.message : BlkErr → String
  | .readMeta => "Trying to read meta block directly"
  | .writeMeta => "Trying to write to meta block directly"
  | .readFailed => "Failed reading block"
  | .writeFailed => "Failed writing block"
  | .notFormatted => "Failed read_blk, filesystem not formatted"
  | .readMacFailed => "Failed reading security metadata MAC"
  | .writeMacFailed => "Failed writing security metadata"
  | .decryptFailed => "Failed decrypting block"
  | .nullRootRead => "NULL root hash in read_blk"
  | .nullRootWrite => "NULL root hash in write_blk"
  | .nullLeafRead => "Hash doesnt exist but should in read_blk"
  | .nullLeafWrite => "Hash doesnt exist but should in write_blk"
  | .parMismatch => "Invalid par hash comparison in read_blk"
  | .crash => ""

/-- Number of blocks of the cluster and the `use_mt` setting. -/
structure BlkCfg where
  numBlks : ℕ
  useMt : Bool

def BlkCfg.vol (cfg : BlkCfg) : Volume := ⟨false, cfg.numBlks⟩

def BlkCfg.isMeta (cfg : BlkCfg) (vbid : ℕ) : Bool :=
  decide (metadataRelStartBlkNum ≤ vbid) && decide (vbid < dataRelStartBlkNum cfg.numBlks)

structure BlkState where
  disk : Disk
  status : Status
  mt : MerkleTree

/-- The loop of the Merkle check of `read_blk`, which ends after the parent `i` of the leaf. The
parent is rehashed in its own buffer and compared with the copy in `curr_par`. On a mismatch the
parent keeps `curr_par` as its buffer and the leaf gets its old pointer `ih` back. -/
def compareParent (C : Crypto) (cfg : BlkCfg) (d : Disk) (t : MerkleTree) (i leaf : ℕ)
    (ih : HashPtr) : Except BlkErr Unit × MerkleTree :=
  match t.get i with
  | none => (.error .crash, t)
  | some cur =>
    let t := t.setCurrPar (cur.take hmacLen)
    match hashNode C cfg.vol d t i with
    | .error _ => (.error .crash, t)
    | .ok bytes =>
      let t := t.store i bytes
      if t.get i = some t.currPar then (.ok (), t)
      else (.error .parMismatch, (t.point i .currPar).point leaf ih)

/-- The Merkle check of `read_blk`: the leaf takes the MAC just read. -/
def verifyRead (C : Crypto) (cfg : BlkCfg) (d : Disk) (t : MerkleTree) (vbid : ℕ) (mac : Mac) :
    Except BlkErr Unit × MerkleTree :=
  let i := HeapTree.leaf t.height vbid
  if t.get 0 = none then (.error .nullRootRead, t)
  else if t.get i = none then (.error .nullLeafRead, t)
  else compareParent C cfg d (t.point i (.own mac.toList)) (nextUp i) i (t.nodes i)

/-- `BfsHandle::read_blk`. -/
def readBlk (C : Crypto) (cfg : BlkCfg) (s : BlkState) (vbid : ℕ) :
    Except BlkErr Block × BlkState :=
  if cfg.isMeta vbid then (.error .readMeta, s)
  else
    match readBlockHelper s.disk vbid with
    | .error _ => (.error .readFailed, s)
    | .ok ct =>
      if s.status.code < Status.formatted.code then (.error .notFormatted, s)
      else
        match readBlkMeta cfg.vol s.disk vbid
            (.slot (.buffer (Buf.fill 0 ivLen)) (.buffer (Buf.fill 0 macLen))) with
        | .ok (.slot (.buffer iv) (.buffer mac)) =>
          match C.dec vbid iv ct mac with
          | none => (.error .decryptFailed, s)
          | some data =>
            if cfg.useMt && s.status == .mounted then
              let r := verifyRead C cfg s.disk s.mt vbid mac
              (r.1.map fun _ => data, { s with mt := r.2 })
            else (.ok data, s)
        | _ => (.error .readMacFailed, s)

/-- The Merkle update of `write_blk`. -/
def updateLeaf (C : Crypto) (cfg : BlkCfg) (d : Disk) (t : MerkleTree) (vbid : ℕ) (mac : Mac) :
    Except BlkErr MerkleTree :=
  let i := HeapTree.leaf t.height vbid
  if t.get 0 = none then .error .nullRootWrite
  else if t.get i = none then .error .nullLeafWrite
  else
    match rehashPath C cfg.vol d t.height (t.point i (.own mac.toList)) (nextUp i) with
    | .ok t => .ok t
    | .error _ => .error .crash

/-- `BfsHandle::write_blk`; the random IV is an argument. -/
def writeBlk (C : Crypto) (cfg : BlkCfg) (s : BlkState) (vbid : ℕ) (iv : Iv) (data : Block) :
    Except BlkErr Unit × BlkState :=
  if cfg.isMeta vbid then (.error .writeMeta, s)
  else
    let sealed := C.enc vbid iv data
    match writeBlkMeta cfg.vol s.disk vbid (.slot (.buffer iv) (.buffer sealed.2)) with
    | .error _ => (.error .writeMacFailed, s)
    | .ok d =>
      match writeBlockHelper d vbid sealed.1 with
      | .error _ => (.error .writeFailed, { s with disk := d })
      | .ok d =>
        if cfg.useMt && s.status != .corrupted then
          match updateLeaf C cfg d s.mt vbid sealed.2 with
          | .ok t => (.ok (), { s with disk := d, mt := t })
          | .error e => (.error e, { s with disk := d })
        else (.ok (), { s with disk := d })

def writeBlks (C : Crypto) (cfg : BlkCfg) :
    List (ℕ × Iv × Block) → BlkState → Except BlkErr BlkState
  | [], s => .ok s
  | w::ws, s =>
    match writeBlk C cfg s w.1 w.2.1 w.2.2 with
    | (.ok _, s) => writeBlks C cfg ws s
    | (.error e, _) => .error e

/-- The blocks that `mkfs` writes, in its order: all but the metadata region. -/
def mkfsBlks (cfg : BlkCfg) : List ℕ := (List.range cfg.numBlks).filter fun b => !cfg.isMeta b

/-- The writes of `mkfs`, for a given image and IVs. -/
def mkfsWrites (C : Crypto) (cfg : BlkCfg) (image : ℕ → Block) (ivs : ℕ → Iv) (s : BlkState) :
    Except BlkErr BlkState :=
  writeBlks C cfg ((mkfsBlks cfg).map fun b => (b, ivs b, image b)) s

/-- The block side of `mkfs` on a device in a fresh process: set up the tree, write the image, save
the root hash. -/
def formatBlks (C : Crypto) (cfg : BlkCfg) (d : Disk) (image : ℕ → Block) (ivs : ℕ → Iv) :
    Except BlkErr BlkState :=
  if cfg.useMt then
    match initMerkleTree C cfg.vol d true (freshTree cfg.numBlks) with
    | .error _ => .error .crash
    | .ok t =>
      match mkfsWrites C cfg image ivs ⟨d, .formatting, t⟩ with
      | .error e => .error e
      | .ok s =>
        match flushMerkleTree C cfg.vol s.disk s.mt with
        | .error _ => .error .crash
        | .ok (t, d) => .ok ⟨d, .formatted, t⟩
  else
    match mkfsWrites C cfg image ivs ⟨d, .formatting, freshTree cfg.numBlks⟩ with
    | .error e => .error e
    | .ok s => .ok { s with status := .formatted }

/-- The block side of `mount`. -/
def mountBlks (C : Crypto) (cfg : BlkCfg) (s : BlkState) : Except BlkErr BlkState :=
  if cfg.useMt then
    match initMerkleTree C cfg.vol s.disk false s.mt with
    | .error _ => .error .crash
    | .ok t =>
      .ok ⟨s.disk, .mounted, { t with currPar := List.replicate hmacLen 0 }⟩
  else .ok { s with status := .mounted }

end Bfs.Fs
