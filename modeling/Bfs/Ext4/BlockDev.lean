import Bfs.Fs.BlockPath

/-! The block device under lwext4: multi-block reads and writes with encryption per block and one
update or check of the Merkle tree per request. -/
namespace Bfs.Ext4
open ByteSeq HeapTree Bfs.Fs

/-- How a device function ends other than with success: with `BFS_FAILURE`, with the exception of
`decryptData2`, with `abort`, or with a read through a pointer that is NULL or was never set. -/
inductive DevErr
  | failure
  | thrown
  | aborted
  | undefined
  deriving DecidableEq, Repr

def DevErr.ofLayer : LayerErr → DevErr
  | .failure => .failure
  | .nullDeref => .undefined
  | .assertFailed => .aborted

def DevErr.survived : DevErr → Bool
  | .failure => true
  | .thrown => true
  | .aborted => false
  | .undefined => false

/-- `BFS_LWEXT4_NUM_BLKS` and the `use_mt` setting. -/
structure DevCfg where
  numBlks : ℕ
  useMt : Bool

def DevCfg.vol (cfg : DevCfg) : Volume := ⟨true, cfg.numBlks⟩

structure DevState where
  disk : Disk
  status : Status
  seen : List ℕ
  mt : MerkleTree

section Tree

def ancestors : ℕ → ℕ → List ℕ
  | 0, _ => []
  | k+1, i => i :: if i = 0 then [] else ancestors k (nextUp i)

/-- The ancestors of the leaves of a request, as the reverse iteration over `unique_nodes` visits
them. -/
def uniqueNodes (height start cnt : ℕ) : List ℕ :=
  ((List.range cnt).flatMap fun j =>
    ancestors height (nextUp (leaf height (start + j)))).toFinset.sort (· ≥ ·)

def setLeaves (start : ℕ) (macs : ℕ → Option Mac) :
    ℕ → ℕ → MerkleTree → Except DevErr Unit × MerkleTree
  | 0, _, t => (.ok (), t)
  | k+1, j, t =>
    let i := leaf t.height (start + j)
    if t.get i = none then (.error .failure, t)
    else
      match macs j with
      -- An entry of `macs` that was never set; hashing the parent reads through it.
      | none => (.error .undefined, t)
      | some mac => setLeaves start macs k (j+1) (t.point i (.own mac.toList))

/-- The second loop of `update_merkle_tree`. -/
def rehashNodes (C : Crypto) (v : Volume) (d : Disk) :
    List ℕ → MerkleTree → Except DevErr Unit × MerkleTree
  | [], t => (.ok (), t)
  | i::ns, t =>
    match hashNode C v d t i with
    | .error e => (.error (.ofLayer e), t)
    | .ok bytes => rehashNodes C v d ns (t.store i bytes)

/-- `update_merkle_tree`. -/
def updateMerkleTree (C : Crypto) (cfg : DevCfg) (d : Disk) (t : MerkleTree) (start cnt : ℕ)
    (macs : ℕ → Option Mac) : Except DevErr Unit × MerkleTree × Disk :=
  if t.get 0 = none then (.error .failure, t, d)
  else
    match setLeaves start macs cnt 0 t with
    | (.error e, t) => (.error e, t, d)
    | (.ok _, t) =>
      -- The assertion on the index of the last leaf.
      if cnt = 0 ∧ start + 2^t.height ≠ 2 then (.error .aborted, t, d)
      -- The parent of a leaf that is the root, `(0 - 2) / 2`, lies behind all nodes.
      else if cnt ≠ 0 ∧ t.height = 0 then (.error .undefined, t, d)
      else
        match rehashNodes C cfg.vol d (uniqueNodes t.height start cnt) t with
        | (.error e, t) => (.error e, t, d)
        | (.ok _, t) =>
          match saveRootHash cfg.vol d (rootPtr t) with
          | .error e => (.error (.ofLayer e), t, d)
          | .ok d => (.ok (), t, d)

/-- The second loop of `verify_mt`, which stops above the parents of the leaves. -/
def checkNodes (C : Crypto) (v : Volume) (d : Disk) :
    List ℕ → MerkleTree → Except DevErr Unit × MerkleTree
  | [], t => (.ok (), t)
  | i::ns, t =>
    if i < 2^(t.height - 1) - 1 then (.ok (), t)
    else
      match t.get i with
      | none => (.error .undefined, t)
      | some cur =>
        let t := t.setCurrPar (cur.take hmacLen)
        match hashNode C v d t i with
        | .error e => (.error (if e = .nullDeref then .undefined else .aborted), t)
        | .ok bytes =>
          let t := t.store i bytes
          if t.get i = some t.currPar then checkNodes C v d ns t else (.error .aborted, t)

/-- `verify_mt`. -/
def verifyMt (C : Crypto) (cfg : DevCfg) (d : Disk) (t : MerkleTree) (start cnt : ℕ)
    (macs : ℕ → Option Mac) : Except DevErr Unit × MerkleTree :=
  if t.get 0 = none then (.error .aborted, t)
  else
    match setLeaves start macs cnt 0 t with
    | (.error e, t) => (.error e, t)
    | (.ok _, t) => checkNodes C cfg.vol d (uniqueNodes t.height start cnt) t

end Tree

section Read

def readSealed (C : Crypto) (cfg : DevCfg) (d : Disk) (vbid : ℕ) : Except DevErr (Block × Mac) :=
  match readBlockHelper d vbid with
  | .error e => .error (.ofLayer e)
  | .ok ct =>
    match readBlkMeta cfg.vol d vbid
        (.slot (.buffer (Buf.fill 0 ivLen)) (.buffer (Buf.fill 0 macLen))) with
    | .error e => .error (.ofLayer e)
    | .ok (.slot (.buffer iv) (.buffer mac)) =>
      match C.dec vbid iv ct mac with
      | none => .error .thrown
      | some data => .ok (data, mac)
    | .ok _ => .error .failure

def DevState.unseen (s : DevState) (vbid : ℕ) : Bool :=
  decide (Status.formatting.code ≤ s.status.code) && decide (vbid ∉ s.seen)

/-- The loop of `file_dev_bread` over the slices of the caller's buffer; `k` of them are left. A
block that was not written yet clears the first slice. -/
def breadLoop (C : Crypto) (cfg : DevCfg) (s : DevState) (start cnt : ℕ) :
    ℕ → ℕ → (ℕ → Block) → (ℕ → Option Mac) → MerkleTree → Except DevErr (ℕ → Block) × MerkleTree
  | 0, _, buf, _, t => (.ok buf, t)
  | k+1, j, buf, macs, t =>
    if s.unseen (start + j) then
      breadLoop C cfg s start cnt k (j+1) (Function.update buf 0 (Buf.fill 0 blkSz)) macs t
    else
      match readSealed C cfg s.disk (start + j) with
      | .error e => (.error e, t)
      | .ok (data, mac) =>
        let buf := Function.update buf j data
        let macs := Function.update macs j (some mac)
        if 1 < cnt ∧ j < cnt - 1 then breadLoop C cfg s start cnt k (j+1) buf macs t
        else if cfg.useMt && s.status == .mounted then
          match verifyMt C cfg s.disk t start cnt macs with
          | (.error e, t) => (.error e, t)
          | (.ok _, t) => breadLoop C cfg s start cnt k (j+1) buf macs t
        else breadLoop C cfg s start cnt k (j+1) buf macs t

/-- `file_dev_bread`, on an open device: the buffer afterwards. -/
def fileDevBread (C : Crypto) (cfg : DevCfg) (s : DevState) (buf : ℕ → Block) (start cnt : ℕ) :
    Except DevErr (ℕ → Block) × DevState :=
  let r := breadLoop C cfg s start cnt cnt 0 buf (fun _ => none) s.mt
  (r.1, { s with mt := r.2 })

end Read

section Write

/-- Add a block to `seen`. -/
def DevState.see (s : DevState) (vbid : ℕ) : DevState :=
  if s.unseen vbid then { s with seen := s.seen ++ [vbid] } else s

/-- The loop of `file_dev_bwrite`; each block comes with its random IV. -/
def bwriteLoop (C : Crypto) (cfg : DevCfg) (start cnt : ℕ) :
    List (Iv × Block) → ℕ → (ℕ → Option Mac) → DevState → Except DevErr Unit × DevState
  | [], _, _, s => (.ok (), s)
  | blk::blks, j, macs, s =>
    let vbid := start + j
    let s := s.see vbid
    let sealed := C.enc vbid blk.1 blk.2
    let macs := Function.update macs j (some sealed.2)
    match writeBlkMeta cfg.vol s.disk vbid (.slot (.buffer blk.1) (.buffer sealed.2)) with
    | .error e => (.error (.ofLayer e), s)
    | .ok d =>
      match writeBlockHelper d vbid sealed.1 with
      | .error e => (.error (.ofLayer e), { s with disk := d })
      | .ok d =>
        let s := { s with disk := d }
        if 1 < cnt ∧ j < cnt - 1 then bwriteLoop C cfg start cnt blks (j+1) macs s
        else if cfg.useMt && s.status != .corrupted then
          match updateMerkleTree C cfg s.disk s.mt start cnt macs with
          | (.error e, t, d) => (.error e, { s with mt := t, disk := d })
          | (.ok _, t, d) => bwriteLoop C cfg start cnt blks (j+1) macs { s with mt := t, disk := d }
        else bwriteLoop C cfg start cnt blks (j+1) macs s

/-- `file_dev_bwrite`, on an open device. -/
def fileDevBwrite (C : Crypto) (cfg : DevCfg) (s : DevState) (start : ℕ)
    (blks : List (Iv × Block)) : Except DevErr Unit × DevState :=
  bwriteLoop C cfg start blks.length blks 0 (fun _ => none) s

end Write

section Phases

/-- Formatting starts on a device in a fresh process: `seen` is empty, and opening the device sets
up the tree. -/
def startFormat (C : Crypto) (cfg : DevCfg) (d : Disk) : Except DevErr DevState :=
  if cfg.useMt then
    match initMerkleTree C cfg.vol d true (freshTree cfg.numBlks) with
    | .error e => .error (.ofLayer e)
    | .ok t => .ok ⟨d, .formatting, [], t⟩
  else .ok ⟨d, .formatting, [], freshTree cfg.numBlks⟩

def finishFormat (C : Crypto) (cfg : DevCfg) (s : DevState) : Except DevErr DevState :=
  if s.status ≠ .formatting then .error .failure
  else if cfg.useMt then
    match flushMerkleTree C cfg.vol s.disk s.mt with
    | .error e => .error (.ofLayer e)
    | .ok (t, d) => .ok { s with disk := d, mt := t, status := .formatted }
  else .ok { s with status := .formatted }

/-- `__do_lwext4_mount`: opening the device again adds the hash buffers that are missing. -/
def mountDev (C : Crypto) (cfg : DevCfg) (s : DevState) : Except DevErr DevState :=
  if s.status ≠ .formatted then .error .failure
  else if cfg.useMt then
    match initMerkleTree C cfg.vol s.disk true s.mt with
    | .error e => .error (.ofLayer e)
    | .ok t => .ok { s with mt := t, status := .mounted }
  else .ok { s with status := .mounted }

end Phases

end Bfs.Ext4
