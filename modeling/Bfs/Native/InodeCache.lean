import Bfs.Native.Handles

/-! Inodes in memory: `read_inode`, `write_inode` and `flush_inode` with the inode cache, and how long a
mode that was set by `bfs_chmod` lasts. An object that `read_inode` returned is shared with the cache
if the cache is enabled, and a copy of its slot otherwise. -/
namespace Bfs.Native
open ByteSeq Bfs.Fs

/-- An inode in memory with the dirty flag of class `CacheableObject`. -/
structure InodeObj where
  inode : Inode
  dirty : Bool

/-- The file system with its inode cache. Any entry may be evicted at any time, so neither the size of
the cache nor its order is a part of the state. -/
structure CachedFs where
  fs : FsState
  cacheEnabled : Bool
  inoCache : UInt64 → Option InodeObj

abbrev CachedM := Prog CachedFs FsErr

namespace CachedFs

def onFs {α : Type} (x : FsM α) : CachedM α := fun s => ((x s.fs).1, { s with fs := (x s.fs).2 })

def setCache (s : CachedFs) (key : UInt64) (o : Option InodeObj) : CachedFs :=
  { s with inoCache := Function.update s.inoCache key o }

/-- `BfsHandle::flush_inode`. -/
def flushInode (o : InodeObj) : CachedM Unit :=
  if o.dirty then onFs (writeInode o.inode) else pure ()

def insertCache (key : UInt64) (o : InodeObj) : CachedM Unit := fun s =>
  if s.cacheEnabled then
    match s.inoCache key with
    | none => (.ok (), s.setCache key (some o))
    | some old => flushInode old (s.setCache key (some o))
  else (.ok (), s)

/-- The test at the end of `read_inode`. -/
def checkObj (o : InodeObj) : CachedM InodeObj := do
  Prog.require (o.inode.iNo ≠ 0) (.serverError "read_inode found bad inode\n")
  pure o

def loadInode (ino : UInt64) : CachedM InodeObj := do
  let b ← onFs (Prog.reads (readBlk · (itabBlkLoc ino)))
  let o : InodeObj := ⟨Inode.deserialize b (itabBlkOff ino), false⟩
  insertCache o.inode.iNo o
  checkObj o

/-- `BfsHandle::read_inode`. An object that is not in the cache is put there, also if it is to be
popped. -/
def readInode (ino : UInt64) (pop : Bool) : CachedM InodeObj := fun s =>
  match s.inoCache ino with
  | some o => checkObj o (if pop then s.setCache ino none else s)
  | none => loadInode ino s

/-- Change an object that `read_inode` returned, which is the one in the cache. -/
def hold (key : UInt64) (o : InodeObj) : CachedM Unit := Prog.update fun s =>
  if s.cacheEnabled then s.setCache key (some o) else s

/-- `BfsHandle::bfs_chmod` from the inode on. -/
def chmod (uid : UInt32) (ino : UInt64) (newMode : UInt32) : CachedM Unit := do
  let o ← readInode ino false
  Prog.require (o.inode.denies uid = false) (.accessDenied "Permission denied\n")
  hold o.inode.iNo ⟨{ o.inode with mode := newMode }, true⟩

end CachedFs

/-- What operations do with inodes and blocks: read an inode; change some fields of one and maybe write
it; write a new one; free one; drop one from the cache for a removal that fails; evict one; write a
block that is not in the inode table. -/
inductive InodeAccess
  | get (ino : UInt64)
  | change (ino : UInt64) (f : Inode → Inode) (same : ∀ r, (f r).iNo = r.iNo) (written : Bool)
  | create (r : Inode)
  | remove (ino : UInt64)
  | pop (ino : UInt64)
  | evict (ino : UInt64)
  | writeBlk (b : ℕ) (c : Block)

namespace CachedFs

def access : InodeAccess → CachedM Unit
  | .get ino => do
    let _ ← readInode ino false
    pure ()
  | .change ino f _ written => do
    let o ← readInode ino false
    hold o.inode.iNo ⟨f o.inode, true⟩
    if written then onFs (writeInode (f o.inode)) else pure ()
  | .create r => do
    onFs (writeInode r)
    insertCache r.iNo ⟨r, true⟩
  | .remove ino => do
    let hit ← Prog.gets fun s => (s.inoCache ino).isSome
    let o ← readInode ino true
    if hit then pure () else hold o.inode.iNo ⟨{ o.inode with iNo := 0 }, true⟩
    onFs (writeInodeAt ino { o.inode with iNo := 0 })
  | .pop ino => do
    let _ ← readInode ino true
    pure ()
  | .evict ino => do
    match ← Prog.gets fun s => s.inoCache ino with
    | none => pure ()
    | some o => do
      Prog.update fun s => s.setCache ino none
      flushInode o
  | .writeBlk b c => onFs (writeBlk b c)

def run (s : CachedFs) (as : List InodeAccess) : CachedFs := as.foldl (fun s a => (access a s).2) s

end CachedFs

section Property

def InodeAccess.used (U : Set UInt64) : InodeAccess → Set UInt64
  | .create r => insert r.iNo U
  | _ => U

def InodeAccess.Spares (U : Set UInt64) (ino : UInt64) : InodeAccess → Prop
  | .get i => i ∈ U
  | .change i f _ _ => i ∈ U ∧ (i = ino → ∀ r, (f r).mode = r.mode)
  | .create r => r.iNo.toNat < numInodes ∧ r.iNo ≠ ino
  | .remove i => i ∈ U ∧ i ≠ ino
  | .pop i => i ∈ U ∧ i ≠ ino
  | .evict _ => True
  | .writeBlk b _ => ∀ i : UInt64, i.toNat < numInodes → itabBlkLoc i ≠ b

def SparesAll (ino : UInt64) : Set UInt64 → List InodeAccess → Prop
  | _, [] => True
  | U, a::as => a.Spares U ino ∧ SparesAll ino (a.used U) as

end Property

section Slots

variable {fs : FsState} {i : UInt64}

lemma writeInodeAt_effect (hi : i.toNat < numInodes) (hread : (fs.inode i).isSome) (r : Inode) :
    ∃ fs', writeInodeAt i r fs = (.ok (), fs') ∧
      fs'.inode = Function.update fs.inode i (some r) := by
  obtain ⟨fs', hfs'⟩ := exists_writeInodeAt hread r
  obtain ⟨hview, -⟩ := writeInodeAt_eq_ok hi hfs'
  refine ⟨fs', hfs', ?_⟩
  rw [← view_inode, hview]
  rfl

lemma inode_writeBlk {b : ℕ} (c : Block) (hb : ∀ i : UInt64, i.toNat < numInodes → itabBlkLoc i ≠ b) :
    (writeBlk b c fs).2.inode = fs.inode := by
  rcases hw : writeBlk b c fs with ⟨e | u, fs'⟩
  · rw [writeBlk] at hw
    split_ifs at hw
    · cases hw
      rfl
    · cases hw
      rfl
    · cases hw
  · obtain ⟨husable, rfl⟩ := writeBlk_eq_ok.mp hw
    funext i
    rw [FsState.inode, FsState.inode]
    split_ifs with hi
    · rw [readBlk_setBlk husable, if_neg (hb i hi)]
    · rfl

end Slots

namespace CachedFs

section Invariant

variable {U : Set UInt64} {s : CachedFs} {ino i k : UInt64} {m : UInt32} {o : InodeObj}

structure Coherent (U : Set UInt64) (s : CachedFs) : Prop where
  inRange : ∀ i ∈ U, i.toNat < numInodes
  readable : ∀ i : UInt64, i.toNat < numInodes → (s.fs.inode i).isSome
  slots : ∀ i ∈ U, ∀ r, s.fs.inode i = some r → r.iNo = i ∨ r.iNo = 0
  cached : ∀ k o, s.inoCache k = some o → (k ∈ U ∨ k = 0) ∧ (o.inode.iNo = k ∨ o.inode.iNo = 0)
  off : s.cacheEnabled = false → ∀ k, s.inoCache k = none

def SlotHas (s : CachedFs) (ino : UInt64) (m : UInt32) : Prop :=
  ∃ r, s.fs.inode ino = some r ∧ r.iNo = ino ∧ r.mode = m

/-- The object of `ino`, or else its slot, has mode `m`; so has the slot of an object that is not
dirty. -/
def Has (s : CachedFs) (ino : UInt64) (m : UInt32) : Prop :=
  match s.inoCache ino with
  | some o => o.inode.iNo = ino ∧ o.inode.mode = m ∧ (o.dirty = true ∨ s.SlotHas ino m)
  | none => s.SlotHas ino m

lemma Has.of_some (h : s.Has ino m) (ho : s.inoCache ino = some o) :
    o.inode.iNo = ino ∧ o.inode.mode = m ∧ (o.dirty = true ∨ s.SlotHas ino m) := by
  rw [Has, ho] at h
  exact h

lemma Has.of_none (h : s.Has ino m) (ho : s.inoCache ino = none) : s.SlotHas ino m := by
  rw [Has, ho] at h
  exact h

lemma has_of_some (ho : s.inoCache ino = some o) (hno : o.inode.iNo = ino) (hm : o.inode.mode = m)
    (hslot : o.dirty = true ∨ s.SlotHas ino m) : s.Has ino m := by
  rw [Has, ho]
  exact ⟨hno, hm, hslot⟩

lemma has_of_none (ho : s.inoCache ino = none) (hslot : s.SlotHas ino m) : s.Has ino m := by
  rw [Has, ho]
  exact hslot

lemma Has.congr {s' : CachedFs} (h : s.Has ino m) (hcache : s'.inoCache ino = s.inoCache ino)
    (hslot : s.SlotHas ino m → s'.SlotHas ino m) : s'.Has ino m := by
  cases ho : s.inoCache ino with
  | none => exact has_of_none (hcache.trans ho) (hslot (h.of_none ho))
  | some o =>
    obtain ⟨hno, hm, hd⟩ := h.of_some ho
    exact has_of_some (hcache.trans ho) hno hm (hd.imp_right hslot)

structure Lasting (U : Set UInt64) (ino : UInt64) (m : UInt32) (s : CachedFs) : Prop where
  coherent : s.Coherent U
  mem : ino ∈ U
  ne_zero : ino ≠ 0
  has : s.Has ino m

lemma setCache_self (s : CachedFs) (k : UInt64) (o : Option InodeObj) :
    (s.setCache k o).inoCache k = o := Function.update_self ..

lemma setCache_of_ne (s : CachedFs) {k k' : UInt64} (hne : k' ≠ k) (o : Option InodeObj) :
    (s.setCache k o).inoCache k' = s.inoCache k' := Function.update_of_ne hne ..

lemma Coherent.setCache (h : s.Coherent U) (henabled : s.cacheEnabled = true) (hk : k ∈ U ∨ k = 0)
    (hno : o.inode.iNo = k ∨ o.inode.iNo = 0) : (s.setCache k (some o)).Coherent U where
  inRange := h.inRange
  readable := h.readable
  slots := h.slots
  cached := by
    intro k' o' ho'
    by_cases hkk : k' = k
    · subst hkk
      rw [setCache_self] at ho'
      exact ⟨hk, Option.some.inj ho' ▸ hno⟩
    · rw [setCache_of_ne s hkk] at ho'
      exact h.cached k' o' ho'
  off := fun hoff => absurd (henabled.symm.trans hoff) (by simp)

lemma Coherent.dropCache (h : s.Coherent U) (k : UInt64) : (s.setCache k none).Coherent U where
  inRange := h.inRange
  readable := h.readable
  slots := h.slots
  cached := by
    intro k' o' ho'
    by_cases hkk : k' = k
    · rw [hkk, setCache_self] at ho'
      cases ho'
    · rw [setCache_of_ne s hkk] at ho'
      exact h.cached k' o' ho'
  off := by
    intro hoff k'
    by_cases hkk : k' = k
    · rw [hkk, setCache_self]
    · rw [setCache_of_ne s hkk, h.off hoff k']

lemma Coherent.writeSlot {fs' : FsState} {r : Inode} (h : s.Coherent U)
    (hfs : fs'.inode = Function.update s.fs.inode i (some r)) (hno : r.iNo = i ∨ r.iNo = 0) :
    ({ s with fs := fs' } : CachedFs).Coherent U where
  inRange := h.inRange
  readable := by
    intro j hj
    rw [hfs, Function.update_apply]
    split_ifs
    · rfl
    · exact h.readable j hj
  slots := by
    intro j hj r' hr'
    by_cases hji : j = i
    · subst hji
      have heq : r = r' := by
        apply Option.some.inj
        rw [← hr']
        show some r = fs'.inode j
        rw [hfs, Function.update_self]
      exact heq ▸ hno
    · refine h.slots j hj r' ?_
      rw [← hr']
      show s.fs.inode j = fs'.inode j
      rw [hfs, Function.update_of_ne hji]
  cached := h.cached
  off := h.off

lemma SlotHas.writeSlot {fs' : FsState} {r : Inode} (h : s.SlotHas ino m)
    (hfs : fs'.inode = Function.update s.fs.inode i (some r))
    (hr : i = ino → r.iNo = ino ∧ r.mode = m) : ({ s with fs := fs' } : CachedFs).SlotHas ino m := by
  obtain ⟨r₀, hr₀, hno, hm⟩ := h
  by_cases hi : i = ino
  · refine ⟨r, ?_, hr hi⟩
    show fs'.inode ino = some r
    rw [hfs, hi, Function.update_self]
  · refine ⟨r₀, ?_, hno, hm⟩
    show fs'.inode ino = some r₀
    rw [hfs, Function.update_of_ne (Ne.symm hi), hr₀]

lemma Lasting.writeSlot {fs' : FsState} {r : Inode} (h : Lasting U ino m s)
    (hfs : fs'.inode = Function.update s.fs.inode i (some r)) (hno : r.iNo = i ∨ r.iNo = 0)
    (hr : i = ino → r.iNo = ino ∧ r.mode = m) : Lasting U ino m { s with fs := fs' } where
  coherent := h.coherent.writeSlot hfs hno
  mem := h.mem
  ne_zero := h.ne_zero
  has := h.has.congr rfl fun hslot => hslot.writeSlot hfs hr

/-- An object is put into the cache; one of `ino` has mode `m` and is dirty or like its slot. -/
lemma Lasting.setCache (h : Lasting U ino m s) (henabled : s.cacheEnabled = true)
    (hk : k ∈ U ∨ k = 0) (hno : o.inode.iNo = k ∨ o.inode.iNo = 0)
    (ho : k = ino → o.inode.iNo = ino ∧ o.inode.mode = m ∧ (o.dirty = true ∨ s.SlotHas ino m)) :
    Lasting U ino m (s.setCache k (some o)) where
  coherent := h.coherent.setCache henabled hk hno
  mem := h.mem
  ne_zero := h.ne_zero
  has := by
    by_cases hki : k = ino
    · obtain ⟨hno', hm, hd⟩ := ho hki
      exact has_of_some (hki ▸ setCache_self s k _) hno' hm hd
    · exact h.has.congr (setCache_of_ne s (Ne.symm hki) _) fun hslot => hslot

lemma Lasting.dropCache (h : Lasting U ino m s) (hk : k ≠ ino) :
    Lasting U ino m (s.setCache k none) where
  coherent := h.coherent.dropCache k
  mem := h.mem
  ne_zero := h.ne_zero
  has := h.has.congr (setCache_of_ne s (Ne.symm hk) _) fun hslot => hslot

lemma Coherent.obj_lt (h : s.Coherent U) (hk : k ∈ U ∨ k = 0)
    (hno : o.inode.iNo = k ∨ o.inode.iNo = 0) : o.inode.iNo.toNat < numInodes := by
  have hzero : (0 : UInt64).toNat < numInodes := by decide
  cases hno with
  | inr h0 => rwa [h0]
  | inl hk' =>
    cases hk with
    | inl hmem => exact hk' ▸ h.inRange k hmem
    | inr h0 => rwa [hk', h0]

/-- `write_inode` of an object on a readable table. -/
lemma onFs_writeInode (h : s.Coherent U) {r : Inode} (hr : r.iNo.toNat < numInodes) :
    ∃ fs', onFs (writeInode r) s = (.ok (), { s with fs := fs' }) ∧
      fs'.inode = Function.update s.fs.inode r.iNo (some r) := by
  obtain ⟨fs', hrun, hfs⟩ := writeInodeAt_effect hr (h.readable _ hr) r
  refine ⟨fs', ?_, hfs⟩
  rw [onFs, writeInode, hrun]

lemma Lasting.flushInode (h : Lasting U ino m s) (hk : k ∈ U ∨ k = 0)
    (hno : o.inode.iNo = k ∨ o.inode.iNo = 0) (ho : o.inode.iNo = ino → o.inode.mode = m) :
    ∃ s', flushInode o s = (.ok (), s') ∧ Lasting U ino m s' ∧ s'.inoCache = s.inoCache ∧
      s'.cacheEnabled = s.cacheEnabled := by
  rw [CachedFs.flushInode]
  split_ifs with hd
  · obtain ⟨fs', hrun, hfs⟩ := onFs_writeInode h.coherent (h.coherent.obj_lt hk hno)
    exact ⟨_, hrun, h.writeSlot hfs (Or.inl rfl) fun hi => ⟨hi, ho hi⟩, rfl, rfl⟩
  · exact ⟨s, rfl, h, rfl, rfl⟩

lemma Lasting.insertCache (h : Lasting U ino m s) (hk : k ∈ U ∨ k = 0)
    (hno : o.inode.iNo = k ∨ o.inode.iNo = 0)
    (ho : k = ino → o.inode.iNo = ino ∧ o.inode.mode = m ∧ (o.dirty = true ∨ s.SlotHas ino m)) :
    ∃ s', insertCache k o s = (.ok (), s') ∧ Lasting U ino m s' ∧
      s'.cacheEnabled = s.cacheEnabled ∧ (s.cacheEnabled = true → s'.inoCache k = some o) := by
  rw [CachedFs.insertCache]
  by_cases hen : s.cacheEnabled = true
  · rw [if_pos hen]
    have hset := h.setCache hen hk hno ho
    cases hold : s.inoCache k with
    | none => exact ⟨_, rfl, hset, rfl, fun _ => setCache_self s k _⟩
    | some old =>
      obtain ⟨hk', hno'⟩ := h.coherent.cached k old hold
      have hmode : old.inode.iNo = ino → old.inode.mode = m := by
        intro hi
        rcases hno' with hkey | h0
        · exact (h.has.of_some (by rw [← hi, hkey, hold])).2.1
        · exact absurd (hi.symm.trans h0) h.ne_zero
      obtain ⟨s', hrun, hs', hcache, hen'⟩ := hset.flushInode hk' hno' hmode
      exact ⟨s', hrun, hs', hen', fun _ => by rw [hcache, setCache_self]⟩
  · rw [if_neg hen]
    exact ⟨s, rfl, h, rfl, fun hen' => absurd hen' hen⟩

lemma checkObj_eq (o : InodeObj) (s : CachedFs) :
    checkObj o s = if o.inode.iNo = 0 then
      (.error (.serverError "read_inode found bad inode\n"), s) else (.ok o, s) := by
  split_ifs with h0
  · exact Prog.require_bind_of_not (not_not.mpr h0)
  · exact Prog.require_bind_of h0

/-- The result of `read_inode` for a number in use: the object has this number, and the mode `m` if it
is the one of `ino`, which can always be read. -/
def ReadsAs (i ino : UInt64) (m : UInt32) (res : Except FsErr InodeObj) : Prop :=
  (∀ o, res = .ok o → o.inode.iNo = i ∧ (i = ino → o.inode.mode = m)) ∧ (i = ino → ∃ o, res = .ok o)

lemma readsAs_check (hne : ino ≠ 0) (hno : o.inode.iNo = i ∨ o.inode.iNo = 0)
    (ho : i = ino → o.inode.iNo = ino ∧ o.inode.mode = m) (s : CachedFs) :
    ReadsAs i ino m (checkObj o s).1 ∧ (checkObj o s).2 = s := by
  rw [checkObj_eq]
  split_ifs with h0
  · refine ⟨⟨?_, ?_⟩, rfl⟩
    · intro o' ho'
      cases ho'
    · intro hi
      exact absurd ((ho hi).1.symm.trans h0) hne
  · refine ⟨⟨?_, fun _ => ⟨o, rfl⟩⟩, rfl⟩
    intro o' ho'
    obtain rfl := Except.ok.inj ho'
    exact ⟨hno.resolve_right h0, fun hi => (ho hi).2⟩

lemma Lasting.loadInode (h : Lasting U ino m s) (hi : i ∈ U) (hmiss : s.inoCache i = none) :
    ∃ s', (loadInode i s).2 = s' ∧ Lasting U ino m s' ∧ s'.cacheEnabled = s.cacheEnabled ∧
      ReadsAs i ino m (loadInode i s).1 := by
  have hlt := h.coherent.inRange i hi
  obtain ⟨r, hr⟩ := Option.isSome_iff_exists.mp (h.coherent.readable i hlt)
  obtain ⟨-, b, hb, hslot⟩ := inode_eq_some.mp hr
  have hno := h.coherent.slots i hi r hr
  have htarget : i = ino → r.iNo = ino ∧ r.mode = m := by
    rintro rfl
    obtain ⟨r', hr', hno', hm⟩ := h.has.of_none hmiss
    obtain rfl := Option.some.inj (hr.symm.trans hr')
    exact ⟨hno', hm⟩
  have hkey : r.iNo ∈ U ∨ r.iNo = 0 := by
    rcases hno with heq | h0
    · exact Or.inl (heq.symm ▸ hi)
    · exact Or.inr h0
  obtain ⟨s', hins, hs', hen, -⟩ := h.insertCache (o := ⟨r, false⟩) hkey (Or.inl rfl) (by
    intro hrino
    rcases hno with heq | h0
    · have hii : i = ino := heq.symm.trans hrino
      refine ⟨hrino, (htarget hii).2, Or.inr ?_⟩
      exact hii ▸ h.has.of_none (hii ▸ hmiss)
    · exact absurd (hrino.symm.trans h0) h.ne_zero)
  have hrun : CachedFs.loadInode i s = checkObj ⟨r, false⟩ s' := by
    have hread : onFs (Prog.reads (readBlk · (itabBlkLoc i))) s = (.ok b, s) := by
      rw [onFs, Prog.reads_apply, hb]
    rw [CachedFs.loadInode, Prog.bind_of_ok hread, hslot, Prog.bind_of_ok hins]
  obtain ⟨hres, hsame⟩ := readsAs_check h.ne_zero (o := ⟨r, false⟩) hno htarget s'
  rw [hrun]
  exact ⟨s', hsame, hs', hen, hres⟩

lemma Lasting.readInode (h : Lasting U ino m s) (hi : i ∈ U) (pop : Bool)
    (hpop : pop = true → i ≠ ino) :
    ∃ s', (readInode i pop s).2 = s' ∧ Lasting U ino m s' ∧ s'.cacheEnabled = s.cacheEnabled ∧
      ReadsAs i ino m (readInode i pop s).1 := by
  cases ho : s.inoCache i with
  | none =>
    have hrun : CachedFs.readInode i pop s = CachedFs.loadInode i s := by
      rw [CachedFs.readInode, ho]
    rw [hrun]
    exact h.loadInode hi ho
  | some o =>
    have hrun : CachedFs.readInode i pop s = checkObj o (if pop then s.setCache i none else s) := by
      rw [CachedFs.readInode, ho]
    obtain ⟨hres, hsame⟩ := readsAs_check h.ne_zero (h.coherent.cached i o ho).2
      (fun hii => by
        obtain ⟨hno, hm, -⟩ := h.has.of_some (hii ▸ ho)
        exact ⟨hno, hm⟩) (if pop then s.setCache i none else s)
    rw [hrun]
    refine ⟨_, hsame, ?_, ?_, hres⟩
    · split_ifs with hp
      · exact h.dropCache (hpop hp)
      · exact h
    · split_ifs <;> rfl

end Invariant

section Runs

variable {U : Set UInt64} {s : CachedFs} {ino i k : UInt64} {m : UInt32} {o : InodeObj}

lemma Lasting.hold (h : Lasting U ino m s) (hi : i ∈ U) (hno : o.inode.iNo = i ∨ o.inode.iNo = 0)
    (ho : i = ino → o.inode.iNo = ino ∧ o.inode.mode = m ∧ o.dirty = true) :
    ∃ s', hold i o s = (.ok (), s') ∧ Lasting U ino m s' := by
  rw [CachedFs.hold, Prog.update_apply]
  split_ifs with hen
  · refine ⟨_, rfl, h.setCache hen (Or.inl hi) hno ?_⟩
    intro hii
    obtain ⟨hno', hm, hd⟩ := ho hii
    exact ⟨hno', hm, Or.inl hd⟩
  · exact ⟨s, rfl, h⟩

lemma Lasting.change (h : Lasting U ino m s) (hi : i ∈ U) {f : Inode → Inode}
    (same : ∀ r, (f r).iNo = r.iNo) (hf : i = ino → ∀ r, (f r).mode = r.mode) (written : Bool) :
    Lasting U ino m (access (.change i f same written) s).2 := by
  obtain ⟨s₁, hs₁, h₁, -, hres, -⟩ := h.readInode hi false (by simp)
  rw [access]
  rcases hrun : CachedFs.readInode i false s with ⟨e | o, s₂⟩
  · rw [hrun] at hs₁
    rw [Prog.bind_of_error hrun]
    exact hs₁ ▸ h₁
  · rw [hrun] at hs₁ hres
    obtain rfl : s₂ = s₁ := hs₁
    obtain ⟨hno, hm⟩ := hres o rfl
    have hfno : (f o.inode).iNo = i := (same _).trans hno
    obtain ⟨s₃, hhold, h₃⟩ := h₁.hold (o := ⟨f o.inode, true⟩) hi
      (Or.inl hfno) (fun hii => ⟨hfno.trans hii, (hf hii _).trans (hm hii), rfl⟩)
    rw [Prog.bind_of_ok hrun, hno, Prog.bind_of_ok hhold]
    split_ifs
    · obtain ⟨fs', hwrite, hfs⟩ := onFs_writeInode h₃.coherent (r := f o.inode)
        (hfno ▸ h.coherent.inRange i hi)
      rw [hwrite]
      exact h₃.writeSlot hfs (Or.inl rfl) fun hii =>
        ⟨hii, (hf (hfno.symm.trans hii) _).trans (hm (hfno.symm.trans hii))⟩
    · exact h₃

lemma Lasting.remove (h : Lasting U ino m s) (hi : i ∈ U) (hne : i ≠ ino) :
    Lasting U ino m (access (.remove i) s).2 := by
  obtain ⟨s₁, hs₁, h₁, -, hres, -⟩ := h.readInode hi true fun _ => hne
  rw [access, Prog.gets_bind_apply]
  rcases hrun : CachedFs.readInode i true s with ⟨e | o, s₂⟩
  · rw [hrun] at hs₁
    rw [Prog.bind_of_error hrun]
    exact hs₁ ▸ h₁
  · rw [hrun] at hs₁ hres
    obtain rfl : s₂ = s₁ := hs₁
    obtain ⟨hno, -⟩ := hres o rfl
    rw [Prog.bind_of_ok hrun]
    have hlast : ∀ s₃, Lasting U ino m s₃ →
        Lasting U ino m (onFs (writeInodeAt i { o.inode with iNo := 0 }) s₃).2 := by
      intro s₃ h₃
      have hlt := h₃.coherent.inRange i hi
      obtain ⟨fs', hwrite, hfs⟩ := writeInodeAt_effect hlt (h₃.coherent.readable i hlt)
        { o.inode with iNo := 0 }
      rw [onFs, hwrite]
      exact h₃.writeSlot hfs (Or.inr rfl) fun hii => absurd hii hne
    split_ifs
    · exact hlast s₂ h₁
    · obtain ⟨s₃, hhold, h₃⟩ := h₁.hold (o := ⟨{ o.inode with iNo := 0 }, true⟩) hi (Or.inr rfl)
        (fun hii => absurd hii hne)
      rw [hno, Prog.bind_of_ok hhold]
      exact hlast s₃ h₃

lemma Lasting.insert_used (h : Lasting U ino m s) {j : UInt64} (hj : j.toNat < numInodes)
    (hslot : ∀ r, s.fs.inode j = some r → r.iNo = j ∨ r.iNo = 0) : Lasting (insert j U) ino m s where
  coherent :=
    { inRange := by
        intro i hi
        cases hi with
        | inl heq => exact heq ▸ hj
        | inr hmem => exact h.coherent.inRange i hmem
      readable := h.coherent.readable
      slots := by
        intro i hi r hr
        cases hi with
        | inl heq =>
          subst heq
          exact hslot r hr
        | inr hmem => exact h.coherent.slots i hmem r hr
      cached := by
        intro k o ho
        obtain ⟨hk, hno⟩ := h.coherent.cached k o ho
        exact ⟨hk.imp_left fun hmem => Set.mem_insert_of_mem j hmem, hno⟩
      off := h.coherent.off }
  mem := Set.mem_insert_of_mem j h.mem
  ne_zero := h.ne_zero
  has := h.has

lemma Lasting.create (h : Lasting U ino m s) {r : Inode} (hr : r.iNo.toNat < numInodes)
    (hne : r.iNo ≠ ino) : Lasting (insert r.iNo U) ino m (access (.create r) s).2 := by
  obtain ⟨fs', hwrite, hfs⟩ := onFs_writeInode h.coherent hr
  have h₁ := h.writeSlot hfs (Or.inl rfl) fun hii => absurd hii hne
  have h₂ : Lasting (insert r.iNo U) ino m { s with fs := fs' } := by
    refine h₁.insert_used hr ?_
    intro r' hr'
    have heq : fs'.inode r.iNo = some r := by rw [hfs, Function.update_self]
    exact Or.inl (by rw [Option.some.inj (hr'.symm.trans heq)])
  obtain ⟨s', hins, hs', -⟩ := h₂.insertCache (o := ⟨r, true⟩)
    (Or.inl (Set.mem_insert r.iNo U)) (Or.inl rfl) (fun hii => absurd hii hne)
  rw [access, Prog.bind_of_ok hwrite, hins]
  exact hs'

/-- An entry leaves the cache. The object of `ino` is dirty, and then its slot gets it, or like its
slot. -/
lemma Lasting.evict (h : Lasting U ino m s) (k : UInt64) :
    Lasting U ino m (access (.evict k) s).2 := by
  rw [access, Prog.gets_bind_apply]
  cases ho : s.inoCache k with
  | none => exact h
  | some o =>
    obtain ⟨hk, hno⟩ := h.coherent.cached k o ho
    by_cases hki : k = ino
    · subst hki
      obtain ⟨hno', hm, hd⟩ := h.has.of_some ho
      have hco := h.coherent.dropCache k
      dsimp only
      rw [Prog.update_bind_apply, CachedFs.flushInode]
      split_ifs with hdirty
      · obtain ⟨fs', hwrite, hfs⟩ := onFs_writeInode hco (hco.obj_lt hk hno)
        rw [hwrite]
        refine ⟨hco.writeSlot hfs (Or.inl rfl), h.mem, h.ne_zero, ?_⟩
        refine has_of_none (setCache_self s k none) ⟨o.inode, ?_, hno', hm⟩
        show fs'.inode k = some o.inode
        rw [hfs, hno', Function.update_self]
      · exact ⟨hco, h.mem, h.ne_zero, has_of_none (setCache_self s k none)
          (hd.resolve_left hdirty)⟩
    · obtain ⟨s', hrun, hs', -⟩ := (h.dropCache hki).flushInode hk hno (by
        intro hi
        rcases hno with heq | h0
        · exact absurd (heq.symm.trans hi) hki
        · exact absurd (hi.symm.trans h0) h.ne_zero)
      dsimp only
      rw [Prog.update_bind_apply, hrun]
      exact hs'

lemma Lasting.writeBlk (h : Lasting U ino m s) {b : ℕ}
    (hb : ∀ i : UInt64, i.toNat < numInodes → itabBlkLoc i ≠ b) (c : Block) :
    Lasting U ino m (access (.writeBlk b c) s).2 := by
  have hinode : (Native.writeBlk b c s.fs).2.inode = s.fs.inode := inode_writeBlk c hb
  refine ⟨⟨h.coherent.inRange, ?_, ?_, h.coherent.cached, h.coherent.off⟩, h.mem, h.ne_zero, ?_⟩
  · intro i hi
    show ((Native.writeBlk b c s.fs).2.inode i).isSome
    rw [hinode]
    exact h.coherent.readable i hi
  · intro i hi r hr
    refine h.coherent.slots i hi r ?_
    rw [← hinode]
    exact hr
  · refine h.has.congr rfl ?_
    rintro ⟨r, hr, hrest⟩
    refine ⟨r, ?_, hrest⟩
    show (Native.writeBlk b c s.fs).2.inode ino = some r
    rw [hinode, hr]

lemma Lasting.access (h : Lasting U ino m s) {a : InodeAccess} (ha : a.Spares U ino) :
    Lasting (a.used U) ino m (access a s).2 := by
  cases a with
  | get i =>
    obtain ⟨s', hs', h', -⟩ := h.readInode ha false (by simp)
    rw [CachedFs.access]
    rcases hrun : CachedFs.readInode i false s with ⟨e | o, s₂⟩
    · rw [Prog.bind_of_error hrun]
      rw [hrun] at hs'
      exact hs' ▸ h'
    · rw [Prog.bind_of_ok hrun]
      rw [hrun] at hs'
      exact hs' ▸ h'
  | change i f same written => exact h.change ha.1 same ha.2 written
  | create r => exact h.create ha.1 ha.2
  | remove i => exact h.remove ha.1 ha.2
  | pop i =>
    obtain ⟨s', hs', h', -⟩ := h.readInode ha.1 true fun _ => ha.2
    rw [CachedFs.access]
    rcases hrun : CachedFs.readInode i true s with ⟨e | o, s₂⟩
    · rw [Prog.bind_of_error hrun]
      rw [hrun] at hs'
      exact hs' ▸ h'
    · rw [Prog.bind_of_ok hrun]
      rw [hrun] at hs'
      exact hs' ▸ h'
  | evict i => exact h.evict i
  | writeBlk b c => exact h.writeBlk ha c

lemma Lasting.run (h : Lasting U ino m s) (as : List InodeAccess) (has : SparesAll ino U as) :
    ∃ o, (CachedFs.readInode ino false (s.run as)).1 = .ok o ∧ o.inode.mode = m := by
  induction as generalizing s U with
  | nil =>
    obtain ⟨-, -, -, -, hres, hread⟩ := h.readInode h.mem false (by simp)
    obtain ⟨o, ho⟩ := hread rfl
    exact ⟨o, ho, (hres o ho).2 rfl⟩
  | cons a as ih => exact ih (h.access has.1) has.2

/-- The mode of `ino` behind a successful `bfs_chmod`: the new one if the object is shared with the
cache, and the old one if it was a copy. -/
lemma Lasting.chmod {s₁ : CachedFs} {uid newMode : UInt32} (h : Lasting U ino m s)
    (hrun : chmod uid ino newMode s = (.ok (), s₁)) :
    Lasting U ino (if s.cacheEnabled then newMode else m) s₁ := by
  obtain ⟨s', hs', h', hen, hres, -⟩ := h.readInode h.mem false (by simp)
  obtain ⟨o, s₂, hread, hrun⟩ := Prog.bind_eq_ok.mp hrun
  rw [hread] at hs' hres
  obtain rfl : s₂ = s' := hs'
  obtain ⟨hno, -⟩ := hres o rfl
  obtain ⟨-, hrun⟩ := Prog.require_bind_eq_ok.mp hrun
  rw [CachedFs.hold, Prog.update_apply, hen, hno] at hrun
  obtain ⟨-, rfl⟩ := Prod.mk.inj hrun
  split_ifs with hcache
  · refine ⟨h'.coherent.setCache (hen.trans hcache) (Or.inl h.mem) (Or.inl hno), h.mem, h.ne_zero, ?_⟩
    exact has_of_some (setCache_self s₂ ino _) hno rfl (Or.inl rfl)
  · exact h'

end Runs

section Disabled

variable {s : CachedFs} {ino : UInt64}

lemma readInode_of_disabled (hoff : s.cacheEnabled = false) (hnone : s.inoCache ino = none)
    (pop : Bool) : readInode ino pop s =
      ((Native.readInode s.fs ino).map fun r => ⟨r, false⟩, s) := by
  have hrun : readInode ino pop s = loadInode ino s := by rw [readInode, hnone]
  rw [hrun, loadInode, Native.readInode]
  cases hb : readBlk s.fs (itabBlkLoc ino) with
  | error e =>
    have hread : onFs (Prog.reads (readBlk · (itabBlkLoc ino))) s = (.error e, s) := by
      rw [onFs, Prog.reads_apply, hb]
    rw [Prog.bind_of_error hread]
    rfl
  | ok b =>
    have hread : onFs (Prog.reads (readBlk · (itabBlkLoc ino))) s = (.ok b, s) := by
      rw [onFs, Prog.reads_apply, hb]
    have hins : ∀ key o, insertCache key o s = (.ok (), s) := by
      intro key o
      rw [insertCache, hoff]
      rfl
    rw [Prog.bind_of_ok hread, Prog.bind_of_ok (hins _ _), checkObj_eq, Fallible.ok_bind]
    dsimp only
    split_ifs <;> rfl

end Disabled

end CachedFs

section Durability

variable {U : Set UInt64} {s : CachedFs} {ino : UInt64} {m uid newMode : UInt32}

end Durability

section Examples

end Examples

end Bfs.Native
