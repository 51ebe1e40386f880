import Bfs.Lib.LinkedRing

/-! `BfsCache`: a hash map and a doubly linked queue over the same entries. The queue is kept in the
order of insertion and update, and the entry at its front is evicted. -/
namespace Bfs.Utils
open LinkedRing

/-- The exceptions of the cache, and `abort`. -/
inductive CacheErr
  | inconsistent
  | badPointer
  | aborted
  deriving DecidableEq, Repr

def CacheErr.message : CacheErr → String
  | .inconsistent => "Cache in inconsistent state\n"
  | .badPointer => "Pointer bad in cache remove\n"
  | .aborted => ""

structure BfsCache (K V : Type*) where
  maxsize : ℕ
  size : ℕ
  table : Option ℕ
  tableEnd : Option ℕ
  tableMap : K → Option ℕ
  links : Links
  entry : ℕ → Option (K × V)
  fresh : ℕ

namespace BfsCache

variable {K V : Type*}

def init (maxsz : ℕ) : BfsCache K V where
  maxsize := maxsz
  size := 0
  table := none
  tableEnd := none
  tableMap := fun _ => none
  links := ⟨fun _ => 0, fun _ => 0⟩
  entry := fun _ => none
  fresh := 0

/-- `BfsCache::find`. -/
def find (c : BfsCache K V) (k : K) : Option ℕ :=
  if c.table = none ∨ c.tableEnd = none then none else c.tableMap k

variable [DecidableEq K]

/-- `BfsCache::remove`. The entry of a queue of one is not unlinked. -/
def remove (c : BfsCache K V) (a : ℕ) : Except CacheErr (BfsCache K V) :=
  match c.table, c.tableEnd, c.entry a with
  | some first, some last, some (k, _) =>
    if c.tableMap k = none then .error .aborted
    else
      let c := { c with tableMap := Function.update c.tableMap k none }
      if c.size = 1 then .ok { c with table := none, tableEnd := none, size := c.size - 1 }
      else .ok { c with
        table := some (if a = first then c.links.next first else first)
        tableEnd := some (if a ≠ first ∧ a = last then c.links.prev last else last)
        links := c.links.unlink a
        size := c.size - 1 }
  | _, _, _ => .error .badPointer

def pushBack (c : BfsCache K V) (k : K) (v : V) : Except CacheErr (BfsCache K V) :=
  let a := c.fresh
  let c := { c with
    entry := Function.update c.entry a (some (k, v))
    tableMap := Function.update c.tableMap k (some a)
    size := c.size + 1
    fresh := a + 1 }
  match c.table, c.tableEnd with
  | none, none => .ok { c with table := some a, tableEnd := some a, links := c.links.append a a a }
  | some first, some last => .ok { c with tableEnd := some a, links := c.links.append a last first }
  | _, _ => .error .aborted

def moveBack (c : BfsCache K V) (a : ℕ) : Except CacheErr (BfsCache K V) :=
  match c.table, c.tableEnd with
  | some first, some last =>
    if c.size ≤ 1 ∨ a = last then .ok c
    else
      let first' := if a = first then c.links.next first else first
      .ok { c with
        table := some first'
        tableEnd := some a
        links := (c.links.unlink a).append a last first' }
  | _, _ => .error .inconsistent

/-- `BfsCache::insertCache`. The result is the new object, the object it replaced, or the evicted
one. -/
def insertCache (c : BfsCache K V) (k : K) (v : V) : Except CacheErr (V × BfsCache K V) :=
  match c.find k with
  | none =>
    if c.maxsize ≤ c.size then
      match c.table, c.tableEnd with
      | some first, some _ =>
        match c.entry first with
        | some (_, old) => do
          let c ← c.remove first
          let c ← c.pushBack k v
          return (old, c)
        | none => .error .badPointer
      | _, _ => .error .inconsistent
    else do
      let c ← c.pushBack k v
      return (v, c)
  | some a =>
    match c.entry a with
    | some (k', old) => do
      let c ← moveBack { c with entry := Function.update c.entry a (some (k', v)) } a
      return (old, c)
    | none => .error .badPointer

/-- `BfsCache::checkCache`. -/
def checkCache (c : BfsCache K V) (k : K) (pop : Bool) : Except CacheErr (Option V × BfsCache K V) :=
  match c.find k with
  | none => .ok (none, c)
  | some a =>
    match c.entry a with
    | some (_, v) => do
      let c ← if pop then c.remove a else .ok c
      return (some v, c)
    | none => .error .badPointer

/-- The entries met when next is followed from `table` to `table_end`. No walk without repetition is
longer than the number of entries ever allocated. -/
def visited (c : BfsCache K V) : Option (List ℕ) :=
  match c.table, c.tableEnd with
  | none, none => some []
  | some first, some last => walk c.links.next last c.fresh first
  | _, _ => none

end BfsCache

inductive CacheOp (K V : Type*)
  | insert (k : K) (v : V)
  | check (k : K) (pop : Bool)

variable {K V : Type*} [DecidableEq K]

def CacheOp.exec (c : BfsCache K V) : CacheOp K V → Except CacheErr (Option V × BfsCache K V)
  | .insert k v => (c.insertCache k v).map fun r => (some r.1, r.2)
  | .check k pop => c.checkCache k pop

def runCache (maxsz : ℕ) (ops : List (CacheOp K V)) : Except CacheErr (BfsCache K V) :=
  ops.foldlM (fun c op => (op.exec c).map Prod.snd) (BfsCache.init maxsz)

def CacheOp.lru (maxsz : ℕ) (l : List (K × V)) : CacheOp K V → Option V × List (K × V)
  | .insert k v =>
    match l.find? (·.1 = k) with
    | some old => (some old.2, l.filter (·.1 ≠ k) ++ [(k, v)])
    | none =>
      if l.length < maxsz then (some v, l ++ [(k, v)])
      else (l.head?.map Prod.snd, l.tail ++ [(k, v)])
  | .check k pop =>
    ((l.find? (·.1 = k)).map Prod.snd, if pop then l.filter (·.1 ≠ k) else l)

def runLru (maxsz : ℕ) (ops : List (CacheOp K V)) : List (K × V) :=
  ops.foldl (fun l op => (op.lru maxsz l).2) []

/-- The law of the cache: the queue visits exactly the entries of the map, each once, in the order of
`l`, and the recorded size is their number. -/
structure BfsCache.Law (c : BfsCache K V) (l : List (K × V)) : Prop where
  visits : ∃ as, c.visited = some as ∧ as.Nodup ∧ as.map c.entry = l.map some ∧
    ∀ k a, c.tableMap k = some a ↔ a ∈ as ∧ ∃ v, c.entry a = some (k, v)
  size_eq : c.size = l.length
  size_le : c.size ≤ c.maxsize

end Bfs.Utils
