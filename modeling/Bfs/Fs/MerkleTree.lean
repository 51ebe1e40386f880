import Bfs.Fs.BlkMeta
import Bfs.Lib.HeapTree
import Bfs.Lib.Aead

/-! The in-memory Merkle tree. Leaves hold the 16-byte MACs of the blocks, inner nodes the 32-byte
HMAC of their two children. The hash buffers are reached through pointers, and a pointer can also
be the scratch buffer that all verified reads share. -/
namespace Bfs.Fs
open ByteSeq

/-- The primitives of the security association: sealing and opening a block with its id as
associated data, and the keyed hash of the inner nodes. -/
structure Crypto extends Aead.Scheme ℕ Iv Block Block Mac where
  hmac : List UInt8 → Hash

/-- The `hash` pointer of a tree node. -/
inductive HashPtr
  | null
  | own (bytes : List UInt8)
  | currPar
  deriving DecidableEq, Repr

/-- The tree and the scratch buffer `curr_par`. -/
structure MerkleTree where
  height : ℕ
  nodes : ℕ → HashPtr
  currPar : List UInt8

namespace MerkleTree

def numNodes (t : MerkleTree) : ℕ := 2^(t.height+1) - 1

def get (t : MerkleTree) (i : ℕ) : Option (List UInt8) :=
  match t.nodes i with
  | .null => none
  | .own bytes => some bytes
  | .currPar => some t.currPar

def point (t : MerkleTree) (i : ℕ) (p : HashPtr) : MerkleTree :=
  { t with nodes := Function.update t.nodes i p }

def setCurrPar (t : MerkleTree) (bytes : List UInt8) : MerkleTree := { t with currPar := bytes }

def store (t : MerkleTree) (i : ℕ) (bytes : List UInt8) : MerkleTree :=
  match t.nodes i with
  | .currPar => t.setCurrPar bytes
  | _ => t.point i (.own bytes)

end MerkleTree

/-- `bfsSecAssociation::hmacData`: the first `len` bytes of both children. -/
def hmacData (C : Crypto) (left right : List UInt8) (len : ℕ) : List UInt8 :=
  (C.hmac (left.take len ++ right.take len)).toList

/-- `BfsFsLayer::hash_node`: the bytes written to `out`. -/
def hashNode (C : Crypto) (v : Volume) (d : Disk) (t : MerkleTree) (i : ℕ) :
    Except LayerErr (List UInt8) :=
  if 2^t.height - 1 ≤ i then
    -- A leaf asks for the MAC of its block only and passes NULL for the address of the IV.
    match readBlkMeta v d (i - (2^t.height - 1)) (.slot .null (.buffer (Buf.fill 0 macLen))) with
    | .ok (.slot _ (.buffer mac)) => .ok mac.toList
    | .ok _ => .error .failure
    | .error e => .error e
  else
    match t.get (2*i+1), t.get (2*i+2) with
    | some left, some right =>
      let hashSz := if 2^(t.height - 1) - 1 ≤ i then macLen else hmacLen
      .ok (hmacData C left right hashSz)
    | _, _ => .error .nullDeref

def hashSz (height i : ℕ) : ℕ := if 2^height - 1 ≤ i then macLen else hmacLen

/-- One iteration of the loop of `init_merkle_tree`. -/
def initNode (C : Crypto) (v : Volume) (d : Disk) (initial : Bool) (t : MerkleTree) (i : ℕ) :
    Except LayerErr MerkleTree :=
  match t.nodes i with
  | .null =>
    let t := t.point i (.own (List.replicate (hashSz t.height i) 0))
    if initial then .ok t
    else
      match hashNode C v d t i with
      | .ok bytes => .ok (t.store i bytes)
      | .error e => .error e
  | _ => .ok t

/-- The loop of `init_merkle_tree` over the nodes below `k`, from the last one down. -/
def initNodes (C : Crypto) (v : Volume) (d : Disk) (initial : Bool) :
    ℕ → MerkleTree → Except LayerErr MerkleTree
  | 0, t => .ok t
  | k+1, t => do
    let t ← initNode C v d initial t k
    initNodes C v d initial k t

/-- The tree after `mt.status == 0` was handled: no node has a buffer yet. -/
def freshTree (numBlks : ℕ) : MerkleTree where
  height := Nat.log2 numBlks
  nodes := fun _ => .null
  currPar := []

/-- `BfsFsLayer::init_merkle_tree`. -/
def initMerkleTree (C : Crypto) (v : Volume) (d : Disk) (initial : Bool) (t : MerkleTree) :
    Except LayerErr MerkleTree := do
  let t ← initNodes C v d initial t.numNodes t
  if initial then .ok t
  else
    match readBlkMeta v d v.mtRootBlkNum (.root (.buffer (Buf.fill 0 hmacLen))) with
    | .ok (.root (.buffer saved)) =>
      if t.get 0 = some saved.toList then .ok t else .error .failure
    | .ok _ => .error .failure
    | .error e => .error e

/-- The loop of `flush_merkle_tree`, which hashes the nodes that have no buffer. -/
def flushNodes (C : Crypto) (v : Volume) (d : Disk) :
    ℕ → MerkleTree → Except LayerErr MerkleTree := initNodes C v d false

/-- The root hash as the argument of `save_root_hash`. -/
def rootPtr (t : MerkleTree) : PtrArg Hash :=
  match t.get 0 with
  | none => .empty
  | some bytes => if h : bytes.length = hmacLen then .buffer ⟨bytes, h⟩ else .empty

/-- `BfsFsLayer::flush_merkle_tree`. -/
def flushMerkleTree (C : Crypto) (v : Volume) (d : Disk) (t : MerkleTree) :
    Except LayerErr (MerkleTree × Disk) := do
  let t ← flushNodes C v d t.numNodes t
  let d ← saveRootHash v d (rootPtr t)
  .ok (t, d)

def nextUp (i : ℕ) : ℕ := if i % 2 = 0 then (i-2)/2 else (i-1)/2

/-- The loop of `write_blk` that rehashes the nodes from `i` up to the root; a path has at most
as many nodes as the tree is high. -/
def rehashPath (C : Crypto) (v : Volume) (d : Disk) :
    ℕ → MerkleTree → ℕ → Except LayerErr MerkleTree
  | 0, t, _ => .ok t
  | k+1, t, i => do
    let bytes ← hashNode C v d t i
    let t := t.store i bytes
    if i = 0 then .ok t else rehashPath C v d k t (nextUp i)

end Bfs.Fs
