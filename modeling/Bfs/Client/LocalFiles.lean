import Bfs.Client.WriteBack
import Bfs.Rpc.Errors

/-! The client without direct IO: reads and writes go to local files that are named after the path of the
open, while names live on the server. Calls are compared with one sequence of bytes for each name. -/
namespace Bfs.Client
open ByteSeq
open Bfs.Rpc

section Model

abbrev Serve (σ : Type) := Request → σ → Option (UInt64 × σ)

/-- The files below `/tmp`, `file_cache` and `dirty_chunks`. A local file keeps its name, which is that of
the open, and is never removed. -/
structure LocalCache where
  files : Path → Option (List UInt8)
  fileCache : UInt64 → Option Path
  dirtyChunks : UInt64 → Finset ℕ
  totalDirtyChunks : ℕ

def LocalCache.empty : LocalCache := ⟨fun _ => none, fun _ => none, fun _ => ∅, 0⟩

def LocalCache.bytes (c : LocalCache) (path : Path) : List UInt8 := (c.files path).getD []

/-- The local file of an open, with the flags `O_CREAT` and maybe `O_TRUNC`. -/
def LocalCache.openLocal (c : LocalCache) (fh : UInt64) (path : Path) (trunc : Bool) : LocalCache where
  files := Function.update c.files path (some (if trunc then [] else c.bytes path))
  fileCache := Function.update c.fileCache fh (some path)
  dirtyChunks := Function.update c.dirtyChunks fh ∅
  totalDirtyChunks := c.totalDirtyChunks

def LocalCache.closeLocal (c : LocalCache) (fh : UInt64) : LocalCache :=
  { c with
    fileCache := Function.update c.fileCache fh none
    dirtyChunks := Function.update c.dirtyChunks fh ∅ }

/-- What `bfs_write_helper` finds for a handle, and what it leaves. -/
def LocalCache.wbState (c : LocalCache) (fh : UInt64) (path : Path) : WbState :=
  ⟨c.bytes path, c.dirtyChunks fh, c.totalDirtyChunks⟩

def LocalCache.setWbState (c : LocalCache) (fh : UInt64) (path : Path) (st : WbState) : LocalCache :=
  { c with
    files := Function.update c.files path (some st.cache)
    dirtyChunks := Function.update c.dirtyChunks fh st.dirtyChunks
    totalDirtyChunks := st.totalDirtyChunks }

inductive Call
  | create (path : Path) (mode : UInt32)
  | openFile (path : Path)
  | read (path : Path) (fh : UInt64) (size off : ℕ)
  | write (path : Path) (fh : UInt64) (off : ℕ) (buf : List UInt8)
  | truncate (path : Path) (fh : UInt64) (length : Int64)
  | flush (path : Path) (fh : UInt64)
  | release (path : Path) (fh : UInt64)
  | rename (frPath toPath : Path)
  | unlink (path : Path)
  deriving DecidableEq

inductive Result
  | done
  | handle (fh : UInt64)
  | bytes (bs : List UInt8)
  deriving DecidableEq

structure Mount (σ : Type) where
  server : σ
  cache : LocalCache

def Mount.start {σ : Type} (server : σ) : Mount σ := ⟨server, .empty⟩

variable {σ : Type} (serve : Serve σ) (fuel : ℕ) (w : Mount σ)

def Mount.openWith (req : Request) (path : Path) (trunc : Bool) : Option (Mount σ × Result) := do
  let (fh, sv) ← serve req w.server
  if fh.toInt64 < startFd then none
  else some (⟨sv, w.cache.openLocal fh path trunc⟩, .handle fh)

def Mount.request (req : Request) (c : LocalCache) : Option (Mount σ × Result) := do
  let (ret, sv) ← serve req w.server
  if ret.toUInt32 = 0 then some (⟨sv, c⟩, .done) else none

def sendWrite (fh : UInt64) (sv : σ) (op : WriteOp) : σ × Option ℕ :=
  match serve (.write fh (UInt64.ofNat op.data.length) (UInt64.ofNat op.offset) op.data) sv with
  | none => (sv, none)
  | some (n, sv) => (sv, some n.toNat)

/-- `bfs_write`, which is also `bfs_flush`. -/
def Mount.write (fh : UInt64) (a : WriteArgs) : Option (Mount σ × Result) := do
  let path ← w.cache.fileCache fh
  let (st, sv, ret) ← bfsWriteHelper fuel (sendWrite serve fh) a (w.cache.wbState fh path) w.server
  if ret < 0 then none else some (⟨sv, w.cache.setWbState fh path st⟩, .done)

/-- `ftruncate`. -/
def resize (n : ℕ) (bs : List UInt8) : List UInt8 := (padTo 0 n bs).take n

/-- `bfs_truncate`. The server gets 32 bits of the length, and the local file all of them. -/
def Mount.truncate (path : Path) (fh : UInt64) (length : Int64) : Option (Mount σ × Result) := do
  let (ret, sv) ← serve (.truncate path fh length.toUInt64.toUInt32) w.server
  let localPath ← w.cache.fileCache fh
  if ret ≠ 0 ∨ length < 0 then none
  else
    let bs := resize length.toInt.toNat (w.cache.bytes localPath)
    some (⟨sv, { w.cache with files := Function.update w.cache.files localPath (some bs) }⟩, .done)

def Mount.call : Call → Option (Mount σ × Result)
  | .create path mode => w.openWith serve (.create path mode) path true
  | .openFile path => w.openWith serve (.openFile path) path false
  | .read _ fh size off => do
    let path ← w.cache.fileCache fh
    some (w, .bytes (slice (w.cache.bytes path) off size))
  | .write _ fh off buf => w.write serve fuel fh ⟨buf, off, false, false, false⟩
  | .flush _ fh => w.write serve fuel fh ⟨[], 0, false, true, false⟩
  | .truncate path fh length => w.truncate serve path fh length
  | .release _ fh => w.request serve (.release fh) (w.cache.closeLocal fh)
  | .rename frPath toPath => w.request serve (.rename frPath toPath) w.cache
  | .unlink path => w.request serve (.unlink path) w.cache

def Mount.trace : Mount σ → List Call → Option (List (Call × Result))
  | _, [] => some []
  | w, call::calls => do
    let (w, res) ← w.call serve fuel call
    let tr ← Mount.trace w calls
    some ((call, res)::tr)

end Model

section Property

structure FileMap where
  files : Path → Option (List UInt8)
  named : UInt64 → Option Path

def FileMap.empty : FileMap := ⟨fun _ => none, fun _ => none⟩

def FileMap.modify (m : FileMap) (path : Path) (f : List UInt8 → List UInt8) : FileMap :=
  { m with files := Function.update m.files path ((m.files path).map f) }

lemma FileMap.modify_files (m : FileMap) (path : Path) (f : List UInt8 → List UInt8) :
    (m.modify path f).files = Function.update m.files path ((m.files path).map f) := rfl

def renamed (frPath toPath : Path) (name : Option Path) : Option Path :=
  if name = some frPath then some toPath else if name = some toPath then none else name

def FileMap.step (m : FileMap) : Call × Result → FileMap
  | (.create path _, .handle fh) =>
    ⟨Function.update m.files path (some ((m.files path).getD [])),
      Function.update m.named fh (some path)⟩
  | (.openFile path, .handle fh) => { m with named := Function.update m.named fh (some path) }
  | (.write path _ off buf, _) => m.modify path (pwrite 0 · off buf)
  | (.truncate path _ length, _) => m.modify path (resize length.toInt.toNat)
  | (.release _ fh, _) => { m with named := Function.update m.named fh none }
  | (.rename frPath toPath, _) =>
    ⟨Function.update (Function.update m.files frPath none) toPath (m.files frPath),
      fun fh => renamed frPath toPath (m.named fh)⟩
  | (.unlink path, _) =>
    ⟨Function.update m.files path none, fun fh => if m.named fh = some path then none else m.named fh⟩
  | _ => m

def FileMap.Right (m : FileMap) : Call × Result → Prop
  | (.read path _ size off, res) => (m.files path).map (fun bs => .bytes (slice bs off size)) = some res
  | _ => True

instance (m : FileMap) : DecidablePred m.Right
  | (.read _ _ _ _, _) => inferInstanceAs (Decidable (_ = _))
  | (.create _ _, _) | (.openFile _, _) | (.write _ _ _ _, _) | (.truncate _ _ _, _) | (.flush _ _, _)
  | (.release _ _, _) | (.rename _ _, _) | (.unlink _, _) => isTrue trivial

def FileMap.AllRight : FileMap → List (Call × Result) → Prop
  | _, [] => True
  | m, x::tr => m.Right x ∧ (m.step x).AllRight tr

def homeStep (home : Path → Option Path) : Call → Path → Option Path
  | .create path _ => Function.update home path (some path)
  | .rename frPath toPath => Function.update (Function.update home frPath none) toPath (home frPath)
  | .unlink path => Function.update home path none
  | _ => home

/-- A name is opened only if its bytes are in the local file of that name, and created only if it does not
exist and its local file is not that of another name; files are used under their present name. -/
def Call.AtHome (m : FileMap) (home : Path → Option Path) : Call → Prop
  | .create path _ => home path = none ∧ ∀ q, home q ≠ some path
  | .openFile path => home path = some path
  | .read path fh _ _ => m.named fh = some path
  | .write path fh _ _ => m.named fh = some path
  | .truncate path fh _ => m.named fh = some path
  | _ => True

def FileMap.AllAtHome : FileMap → (Path → Option Path) → List (Call × Result) → Prop
  | _, _, [] => True
  | m, home, x::tr => x.1.AtHome m home ∧ (m.step x).AllAtHome (homeStep home x.1) tr

end Property

section Simulation

/-- The bytes of every name are in its local file, no two names share one, and handles lead to the local
file of the name of their file. -/
structure Simulates (c : LocalCache) (m : FileMap) (home : Path → Option Path) : Prop where
  present : ∀ p l, home p = some l → ∃ bs, m.files p = some bs ∧ c.files l = some bs
  absent : ∀ p, home p = none → m.files p = none
  inj : ∀ p q l, home p = some l → home q = some l → p = q
  named : ∀ fh p, m.named fh = some p → ∃ l, home p = some l ∧ c.fileCache fh = some l

variable {c : LocalCache} {m : FileMap} {home : Path → Option Path}

lemma simulates_empty : Simulates .empty .empty fun _ => none where
  present := by rintro p l ⟨⟩
  absent _ _ := rfl
  inj := by rintro p q l ⟨⟩
  named := by rintro fh p ⟨⟩

lemma Simulates.bytes (h : Simulates c m home) {fh : UInt64} {p l : Path} (hname : m.named fh = some p)
    (hl : c.fileCache fh = some l) : home p = some l ∧ m.files p = some (c.bytes l) := by
  obtain ⟨l', hhome, hl'⟩ := h.named fh p hname
  obtain rfl : l' = l := Option.some.inj (hl'.symm.trans hl)
  obtain ⟨bs, hm, hc⟩ := h.present p l' hhome
  refine ⟨hhome, ?_⟩
  rw [LocalCache.bytes, hc, hm]
  rfl

lemma Simulates.read (h : Simulates c m home) {fh : UInt64} {p l : Path} (hname : m.named fh = some p)
    (hl : c.fileCache fh = some l) (size off : ℕ) :
    m.Right (.read p fh size off, .bytes (slice (c.bytes l) off size)) := by
  rw [FileMap.Right, (h.bytes hname hl).2]
  rfl

lemma Simulates.modify (h : Simulates c m home) {fh : UInt64} {p l : Path}
    (hname : m.named fh = some p) (hl : c.fileCache fh = some l) (f : List UInt8 → List UInt8)
    {c' : LocalCache} (hfiles : c'.files = Function.update c.files l (some (f (c.bytes l))))
    (hcache : c'.fileCache = c.fileCache) : Simulates c' (m.modify p f) home := by
  obtain ⟨hhome, hbytes⟩ := h.bytes hname hl
  refine ⟨?_, ?_, h.inj, ?_⟩
  · intro q l' hq
    rw [FileMap.modify_files, hfiles]
    by_cases hqp : q = p
    · subst hqp
      obtain rfl : l = l' := Option.some.inj (hhome.symm.trans hq)
      refine ⟨f (c.bytes l), ?_, ?_⟩
      · rw [Function.update_self, hbytes]
        rfl
      · rw [Function.update_self]
    · have hne : l' ≠ l := by
        rintro rfl
        exact hqp (h.inj q p l' hq hhome)
      rw [Function.update_of_ne hqp, Function.update_of_ne hne]
      exact h.present q l' hq
  · intro q hq
    have hne : q ≠ p := by
      rintro rfl
      rw [hhome] at hq
      cases hq
    rw [FileMap.modify_files, Function.update_of_ne hne]
    exact h.absent q hq
  · rw [hcache]
    exact h.named

lemma Simulates.create (h : Simulates c m home) {p : Path} (hnone : home p = none)
    (hfree : ∀ q, home q ≠ some p) (mode : UInt32) (fh : UInt64) :
    Simulates (c.openLocal fh p true) (m.step (.create p mode, .handle fh))
      (homeStep home (.create p mode)) := by
  have hm : m.files p = none := h.absent p hnone
  refine ⟨?_, ?_, ?_, ?_⟩
  · intro q l hq
    rw [homeStep] at hq
    simp only [LocalCache.openLocal, FileMap.step, hm]
    by_cases hqp : q = p
    · subst hqp
      rw [Function.update_self, Option.some.injEq] at hq
      subst hq
      exact ⟨[], Function.update_self .., Function.update_self ..⟩
    · rw [Function.update_of_ne hqp] at hq
      have hne : l ≠ p := by
        rintro rfl
        exact hfree q hq
      rw [Function.update_of_ne hqp, Function.update_of_ne hne]
      exact h.present q l hq
  · intro q hq
    rw [homeStep] at hq
    have hqp : q ≠ p := by
      rintro rfl
      rw [Function.update_self] at hq
      cases hq
    rw [Function.update_of_ne hqp] at hq
    show Function.update m.files p _ q = none
    rw [Function.update_of_ne hqp]
    exact h.absent q hq
  · intro q q' l hq hq'
    rw [homeStep] at hq hq'
    by_cases hqp : q = p <;> by_cases hqp' : q' = p
    · rw [hqp, hqp']
    · subst hqp
      rw [Function.update_self, Option.some.injEq] at hq
      rw [Function.update_of_ne hqp', ← hq] at hq'
      exact absurd hq' (hfree q')
    · subst hqp'
      rw [Function.update_self, Option.some.injEq] at hq'
      rw [Function.update_of_ne hqp, ← hq'] at hq
      exact absurd hq (hfree q)
    · rw [Function.update_of_ne hqp] at hq
      rw [Function.update_of_ne hqp'] at hq'
      exact h.inj q q' l hq hq'
  · intro fh' q hq
    simp only [LocalCache.openLocal, FileMap.step, homeStep] at hq ⊢
    by_cases hfh : fh' = fh
    · subst hfh
      rw [Function.update_self, Option.some.injEq] at hq
      subst hq
      exact ⟨p, Function.update_self .., Function.update_self ..⟩
    · rw [Function.update_of_ne hfh] at hq ⊢
      obtain ⟨l, hl, hcache⟩ := h.named fh' q hq
      have hqp : q ≠ p := by
        rintro rfl
        rw [hnone] at hl
        cases hl
      rw [Function.update_of_ne hqp]
      exact ⟨l, hl, hcache⟩

lemma Simulates.openFile (h : Simulates c m home) {p : Path} (hp : home p = some p) (fh : UInt64) :
    Simulates (c.openLocal fh p false) (m.step (.openFile p, .handle fh)) home := by
  have hfiles : (c.openLocal fh p false).files = c.files := by
    obtain ⟨bs, -, hc⟩ := h.present p p hp
    show Function.update c.files p (some (c.bytes p)) = c.files
    rw [LocalCache.bytes, hc, Option.getD_some, ← hc, Function.update_eq_self]
  refine ⟨?_, h.absent, h.inj, ?_⟩
  · rw [hfiles]
    exact h.present
  · intro fh' q hq
    simp only [LocalCache.openLocal, FileMap.step] at hq ⊢
    by_cases hfh : fh' = fh
    · subst hfh
      rw [Function.update_self, Option.some.injEq] at hq
      subst hq
      exact ⟨p, hp, Function.update_self ..⟩
    · rw [Function.update_of_ne hfh] at hq ⊢
      exact h.named fh' q hq

lemma Simulates.flush (h : Simulates c m home) {fh : UInt64} {l : Path} (hl : c.fileCache fh = some l)
    {st : WbState} (hst : st.cache = c.bytes l) : Simulates (c.setWbState fh l st) m home := by
  refine ⟨?_, h.absent, h.inj, h.named⟩
  intro p l' hp
  obtain ⟨bs, hm, hc⟩ := h.present p l' hp
  refine ⟨bs, hm, ?_⟩
  show Function.update c.files l (some st.cache) l' = some bs
  by_cases hne : l' = l
  · subst hne
    rw [Function.update_self, hst, LocalCache.bytes, hc]
    rfl
  · rw [Function.update_of_ne hne, hc]

lemma Simulates.release (h : Simulates c m home) (p : Path) (fh : UInt64) :
    Simulates (c.closeLocal fh) (m.step (.release p fh, .done)) home := by
  refine ⟨h.present, h.absent, h.inj, ?_⟩
  intro fh' q hq
  simp only [LocalCache.closeLocal, FileMap.step] at hq ⊢
  by_cases hfh : fh' = fh
  · subst hfh
    rw [Function.update_self] at hq
    cases hq
  · rw [Function.update_of_ne hfh] at hq ⊢
    exact h.named fh' q hq

lemma Simulates.unlink (h : Simulates c m home) (p : Path) :
    Simulates c (m.step (.unlink p, .done)) (homeStep home (.unlink p)) := by
  have hhome : ∀ q l, homeStep home (.unlink p) q = some l → q ≠ p ∧ home q = some l := by
    intro q l hq
    rw [homeStep] at hq
    have hqp : q ≠ p := by
      rintro rfl
      rw [Function.update_self] at hq
      cases hq
    rw [Function.update_of_ne hqp] at hq
    exact ⟨hqp, hq⟩
  refine ⟨?_, ?_, ?_, ?_⟩
  · intro q l hq
    obtain ⟨hqp, hq⟩ := hhome q l hq
    show ∃ bs, Function.update m.files p none q = some bs ∧ _
    rw [Function.update_of_ne hqp]
    exact h.present q l hq
  · intro q hq
    show Function.update m.files p none q = none
    by_cases hqp : q = p
    · rw [hqp, Function.update_self]
    · rw [homeStep, Function.update_of_ne hqp] at hq
      rw [Function.update_of_ne hqp]
      exact h.absent q hq
  · intro q q' l hq hq'
    exact h.inj q q' l (hhome q l hq).2 (hhome q' l hq').2
  · intro fh q hq
    simp only [FileMap.step] at hq
    split_ifs at hq with hp
    obtain ⟨l, hl, hcache⟩ := h.named fh q hq
    have hqp : q ≠ p := by
      rintro rfl
      exact hp hq
    exact ⟨l, by rw [homeStep, Function.update_of_ne hqp, hl], hcache⟩

lemma homeStep_rename {frPath toPath q l : Path} (hq : homeStep home (.rename frPath toPath) q = some l) :
    (q = toPath ∧ home frPath = some l) ∨ (q ≠ toPath ∧ q ≠ frPath ∧ home q = some l) := by
  rw [homeStep] at hq
  by_cases hto : q = toPath
  · rw [hto, Function.update_self] at hq
    exact .inl ⟨hto, hq⟩
  · rw [Function.update_of_ne hto] at hq
    have hfr : q ≠ frPath := by
      rintro rfl
      rw [Function.update_self] at hq
      cases hq
    rw [Function.update_of_ne hfr] at hq
    exact .inr ⟨hto, hfr, hq⟩

lemma Simulates.rename (h : Simulates c m home) (frPath toPath : Path) :
    Simulates c (m.step (.rename frPath toPath, .done)) (homeStep home (.rename frPath toPath)) := by
  refine ⟨?_, ?_, ?_, ?_⟩
  · intro q l hq
    show ∃ bs, Function.update (Function.update m.files frPath none) toPath _ q = some bs ∧ _
    rcases homeStep_rename hq with ⟨rfl, hl⟩ | ⟨hto, hfr, hl⟩
    · rw [Function.update_self]
      exact h.present frPath l hl
    · rw [Function.update_of_ne hto, Function.update_of_ne hfr]
      exact h.present q l hl
  · intro q hq
    rw [homeStep] at hq
    show Function.update (Function.update m.files frPath none) toPath _ q = none
    by_cases hto : q = toPath
    · rw [hto, Function.update_self] at hq ⊢
      exact h.absent frPath hq
    · rw [Function.update_of_ne hto] at hq ⊢
      by_cases hfr : q = frPath
      · rw [hfr, Function.update_self]
      · rw [Function.update_of_ne hfr] at hq ⊢
        exact h.absent q hq
  · intro q q' l hq hq'
    rcases homeStep_rename hq with ⟨hto, hl⟩ | ⟨hto, hfr, hl⟩ <;>
      rcases homeStep_rename hq' with ⟨hto', hl'⟩ | ⟨hto', hfr', hl'⟩
    · rw [hto, hto']
    · exact absurd (h.inj q' frPath l hl' hl) hfr'
    · exact absurd (h.inj q frPath l hl hl') hfr
    · exact h.inj q q' l hl hl'
  · intro fh q hq
    simp only [FileMap.step, renamed] at hq
    rw [homeStep]
    split_ifs at hq with hfr hto
    · obtain ⟨l, hl, hcache⟩ := h.named fh frPath hfr
      obtain rfl := Option.some.inj hq
      exact ⟨l, by rw [Function.update_self, hl], hcache⟩
    · obtain ⟨l, hl, hcache⟩ := h.named fh q hq
      have hqto : q ≠ toPath := by
        rintro rfl
        exact hto hq
      have hqfr : q ≠ frPath := by
        rintro rfl
        exact hfr hq
      exact ⟨l, by rw [Function.update_of_ne hqto, Function.update_of_ne hqfr, hl], hcache⟩

end Simulation

section Runs

variable {σ : Type} {serve : Serve σ} {fuel : ℕ} {w w' : Mount σ} {m : FileMap}
  {home : Path → Option Path} {res : Result}

lemma openWith_eq_some {req : Request} {path : Path} {trunc : Bool}
    (h : w.openWith serve req path trunc = some (w', res)) :
    ∃ fh, w'.cache = w.cache.openLocal fh path trunc ∧ res = .handle fh := by
  obtain ⟨⟨fh, sv⟩, -, hrest⟩ := Option.bind_eq_some_iff.mp h
  dsimp only at hrest
  split_ifs at hrest
  cases hrest
  exact ⟨fh, rfl, rfl⟩

lemma request_eq_some {req : Request} {c : LocalCache} (h : w.request serve req c = some (w', res)) :
    w'.cache = c ∧ res = .done := by
  obtain ⟨⟨ret, sv⟩, -, hrest⟩ := Option.bind_eq_some_iff.mp h
  dsimp only at hrest
  split_ifs at hrest
  cases hrest
  exact ⟨rfl, rfl⟩

lemma write_eq_some {fh : UInt64} {a : WriteArgs} (h : w.write serve fuel fh a = some (w', res)) :
    ∃ path st sv ret, w.cache.fileCache fh = some path ∧
      bfsWriteHelper fuel (sendWrite serve fh) a (w.cache.wbState fh path) w.server =
        some (st, sv, ret) ∧
      w'.cache = w.cache.setWbState fh path st ∧ res = .done := by
  obtain ⟨path, hpath, hrest⟩ := Option.bind_eq_some_iff.mp h
  obtain ⟨⟨st, sv, ret⟩, hwrite, hrest⟩ := Option.bind_eq_some_iff.mp hrest
  dsimp only at hrest
  split_ifs at hrest
  cases hrest
  exact ⟨path, st, sv, ret, hpath, hwrite, rfl, rfl⟩

lemma truncate_eq_some {path : Path} {fh : UInt64} {length : Int64}
    (h : w.truncate serve path fh length = some (w', res)) :
    ∃ l, w.cache.fileCache fh = some l ∧ w'.cache.files = Function.update w.cache.files l
      (some (resize length.toInt.toNat (w.cache.bytes l))) ∧
      w'.cache.fileCache = w.cache.fileCache ∧ res = .done := by
  obtain ⟨⟨ret, sv⟩, -, hrest⟩ := Option.bind_eq_some_iff.mp h
  obtain ⟨l, hl, hrest⟩ := Option.bind_eq_some_iff.mp hrest
  dsimp only at hrest
  split_ifs at hrest
  cases hrest
  exact ⟨l, hl, rfl, rfl, rfl⟩

lemma Simulates.call (h : Simulates w.cache m home) {call : Call} (hhome : call.AtHome m home)
    (hcall : w.call serve fuel call = some (w', res)) :
    Simulates w'.cache (m.step (call, res)) (homeStep home call) ∧ m.Right (call, res) := by
  cases call with
  | create path mode =>
    obtain ⟨fh, hc, rfl⟩ := openWith_eq_some hcall
    rw [hc]
    exact ⟨h.create hhome.1 hhome.2 mode fh, trivial⟩
  | openFile path =>
    obtain ⟨fh, hc, rfl⟩ := openWith_eq_some hcall
    rw [hc]
    exact ⟨h.openFile hhome fh, trivial⟩
  | read path fh size off =>
    obtain ⟨l, hl, hrest⟩ := Option.bind_eq_some_iff.mp hcall
    cases hrest
    exact ⟨h, h.read hhome hl size off⟩
  | write path fh off buf =>
    obtain ⟨l, st, sv, ret, hl, hwrite, hc, rfl⟩ := write_eq_some hcall
    cases hwrite
    rw [hc]
    exact ⟨h.modify hhome hl (pwrite 0 · off buf) rfl rfl, trivial⟩
  | truncate path fh length =>
    obtain ⟨l, hl, hfiles, hcache, rfl⟩ := truncate_eq_some hcall
    exact ⟨h.modify hhome hl (resize length.toInt.toNat) hfiles hcache, trivial⟩
  | flush path fh =>
    obtain ⟨l, st, sv, ret, hl, hwrite, hc, rfl⟩ := write_eq_some hcall
    obtain ⟨s, -, hst⟩ := Option.map_eq_some_iff.mp hwrite
    rw [hc]
    exact ⟨h.flush hl (congrArg (fun r => r.1.cache) hst).symm, trivial⟩
  | release path fh =>
    obtain ⟨hc, rfl⟩ := request_eq_some hcall
    rw [hc]
    exact ⟨h.release path fh, trivial⟩
  | rename frPath toPath =>
    obtain ⟨hc, rfl⟩ := request_eq_some hcall
    rw [hc]
    exact ⟨h.rename frPath toPath, trivial⟩
  | unlink path =>
    obtain ⟨hc, rfl⟩ := request_eq_some hcall
    rw [hc]
    exact ⟨h.unlink path, trivial⟩

lemma Simulates.allRight {calls : List Call} {tr : List (Call × Result)}
    (h : Simulates w.cache m home) (htr : w.trace serve fuel calls = some tr)
    (hhome : m.AllAtHome home tr) : m.AllRight tr := by
  induction calls generalizing w m home tr with
  | nil =>
    cases htr
    trivial
  | cons call calls ih =>
    obtain ⟨⟨w', res⟩, hcall, hrest⟩ := Option.bind_eq_some_iff.mp htr
    obtain ⟨tr', htr', hcons⟩ := Option.bind_eq_some_iff.mp hrest
    cases hcons
    obtain ⟨hsim, hright⟩ := h.call hhome.1 hcall
    exact ⟨hright, ih hsim htr' hhome.2⟩

/-- Every read of a sequence of calls that succeed, on any server, returns the bytes that the calls before
have left in the file, if names are opened only while their bytes are in the local file of that name,
and created only while no other name has its bytes there. -/
theorem reads_right_of_atHome (serve : Serve σ) (fuel : ℕ) (server : σ) {calls : List Call}
    {tr : List (Call × Result)} (htr : (Mount.start server).trace serve fuel calls = some tr)
    (hhome : FileMap.empty.AllAtHome (fun _ => none) tr) : FileMap.empty.AllRight tr :=
  Simulates.allRight simulates_empty htr hhome

def mapServer : Serve (FileMap × UInt64) := fun req (m, next) =>
  match req with
  | .create path mode =>
    if (m.files path).isSome then none
    else some (next, m.step (.create path mode, .handle next), next + 1)
  | .openFile path =>
    if (m.files path).isSome then some (next, m.step (.openFile path, .handle next), next + 1) else none
  | .write fh size off data => do
    let path ← m.named fh
    some (size, m.step (.write path fh off.toNat data, .done), next)
  | .truncate path fh len =>
    some (0, m.step (.truncate path fh len.toUInt64.toInt64, .done), next)
  | .release fh => some (0, m.step (.release [] fh, .done), next)
  | .rename frPath toPath =>
    if (m.files frPath).isSome then some (0, m.step (.rename frPath toPath, .done), next) else none
  | .unlink path =>
    if (m.files path).isSome then some (0, m.step (.unlink path, .done), next) else none
  | _ => none

def freshMount : Mount (FileMap × UInt64) := .start (.empty, 3)

def pathA : Path := [47, 97]
def pathB : Path := [47, 98]

def reopened : List (Call × Result) :=
  [(.create pathA 0o777, .handle 3), (.write pathA 3 0 [104, 105], .done), (.flush pathA 3, .done),
    (.release pathA 3, .done), (.openFile pathA, .handle 4), (.truncate pathA 4 1, .done),
    (.read pathA 4 16 0, .bytes [104])]

theorem reads_right_reopened :
    freshMount.trace mapServer 10 (reopened.map Prod.fst) = some reopened ∧
      FileMap.empty.AllRight reopened := by
  have htr : freshMount.trace mapServer 10 (reopened.map Prod.fst) = some reopened := by
    decide +kernel
  refine ⟨htr, reads_right_of_atHome mapServer 10 (.empty, 3) htr ?_⟩
  simp [reopened, FileMap.AllAtHome, Call.AtHome, homeStep, FileMap.step, FileMap.empty,
    FileMap.modify]

def reopenedRenamed : List (Call × Result) :=
  [(.create pathA 0o777, .handle 3), (.write pathA 3 0 [104, 105], .done), (.flush pathA 3, .done),
    (.release pathA 3, .done), (.rename pathA pathB, .done), (.openFile pathB, .handle 4),
    (.read pathB 4 16 0, .bytes [])]

/-- Under its new name the file is empty. -/
theorem renamed_file_reads_empty :
    freshMount.trace mapServer 10 (reopenedRenamed.map Prod.fst) = some reopenedRenamed ∧
      ¬FileMap.empty.AllRight reopenedRenamed := by
  have hne : slice (pwrite 0 [] 0 [104, 105]) 0 16 ≠ ([] : List UInt8) := by decide
  refine ⟨by decide +kernel, ?_⟩
  simp [reopenedRenamed, FileMap.AllRight, FileMap.Right, FileMap.step, FileMap.empty,
    FileMap.modify, hne]

end Runs

end Bfs.Client
