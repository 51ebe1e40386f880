import Bfs.Rpc.Errors

/-! The open file table of the lwext4 backend: handles from two counters, insertion that keeps what is
there, and a release that tells files from directories by the number of the handle. -/
namespace Bfs.Ext4
open Bfs.Rpc

section Model

inductive Kind
  | file
  | dir
  deriving DecidableEq

/-- `bfs_lwext4_open_file_t`; `f` is what lwext4 keeps for the open file or directory. -/
structure OpenFile (α : Type) where
  f : α
  path : Path
  fh : UInt64

/-- `next_fh`, `next_dfh`, `open_file_tab` and its mutex. Some errors return without an unlock. -/
structure HandleTab (α : Type) where
  next : Kind → UInt64
  openFileTab : Std.TreeMap UInt64 (OpenFile α)
  locked : Bool

def startFd : ℕ := 3
def maxOpenFiles : ℕ := 1000000

def firstFh : Kind → ℕ
  | .file => startFd
  | .dir => maxOpenFiles + startFd

def HandleTab.init (α : Type) : HandleTab α := ⟨fun k => UInt64.ofNat (firstFh k), ∅, false⟩

variable {α : Type}

/-- `alloc_fh`. -/
def HandleTab.allocFh (s : HandleTab α) (k : Kind) : UInt64 × HandleTab α :=
  if s.openFileTab.size = maxOpenFiles then (0, s)
  else (s.next k, { s with next := Function.update s.next k (s.next k + 1) })

/-- `init_open_file`. -/
def HandleTab.initOpenFile (s : HandleTab α) (path : Path) (f : α) (k : Kind) :
    Option UInt64 × HandleTab α :=
  let (fh, s) := s.allocFh k
  if fh = 0 then (none, { s with locked := true })
  else (some fh, { s with openFileTab := s.openFileTab.insertIfNew fh ⟨f, path, fh⟩ })

/-- `del_open_file`. -/
def HandleTab.delOpenFile (s : HandleTab α) (fh : UInt64) : Bool × HandleTab α :=
  if fh ∈ s.openFileTab then (true, { s with openFileTab := s.openFileTab.erase fh })
  else (false, { s with locked := true })

/-- How a call ends. A handle is returned as an `int`, and an unknown one raises an exception; a call that
waits for a mutex that nobody unlocks does not return. -/
inductive Outcome
  | handle (fh : UInt64)
  | error (r : Int32)
  | released (closedAs : Kind)
  | outOfRange
  | blocked
  deriving DecidableEq

def bfsFailure : Int32 := -1

def asInt (fh : UInt64) : UInt64 := fh.toUInt32.toInt32.toInt64.toUInt64

/-- The common part of create, open and opendir: what lwext4 opened goes to the table, and `after` is the
result of what else is done then. -/
def HandleTab.openWith (s : HandleTab α) (k : Kind) (path : Path) (opened : Except Int32 α)
    (after : Int32) : Outcome × HandleTab α :=
  match opened with
  | .error r => (.error r, s)
  | .ok f =>
    if s.locked then (.blocked, s)
    else
      match s.initOpenFile path f k with
      | (none, s) => (.error bfsFailure, s)
      | (some fh, s) => (if after = 0 then .handle (asInt fh) else .error after, s)

/-- `__do_lwext4_create`, with the results of the calls to lwext4. -/
def HandleTab.create (s : HandleTab α) (path : Path) (opened : Except Int32 α)
    (modeSet touched : Int32) : Outcome × HandleTab α :=
  s.openWith .file path opened
    (if modeSet ≠ 0 then modeSet else if touched ≠ 0 then bfsFailure else 0)

/-- `__do_lwext4_open`. Nothing is set for a file that exists. -/
def HandleTab.openFile (s : HandleTab α) (path : Path) (opened : Except Int32 α) (found : Bool)
    (touched modeSet : Int32) : Outcome × HandleTab α :=
  s.openWith .file path opened
    (if found then 0 else if touched ≠ 0 then bfsFailure else modeSet)

/-- `__do_lwext4_opendir`. -/
def HandleTab.opendir (s : HandleTab α) (path : Path) (opened : Except Int32 α) :
    Outcome × HandleTab α :=
  s.openWith .dir path opened 0

/-- `__do_lwext4_release`, with the result of the close. The handle is compared as a `double`, which keeps
the order. -/
def HandleTab.release (s : HandleTab α) (fh : UInt64) (closed : Int32) : Outcome × HandleTab α :=
  if s.locked then (.blocked, s)
  else
    match s.openFileTab[fh]? with
    | none => (.outOfRange, { s with locked := true })
    | some of =>
      if closed ≠ 0 then (.error closed, s)
      else
        match s.delOpenFile of.fh with
        | (false, s) => (.error bfsFailure, s)
        | (true, s) => (.released (if firstFh .dir ≤ fh.toNat then .dir else .file), s)

inductive HandleCall (α : Type)
  | create (path : Path) (opened : Except Int32 α) (modeSet touched : Int32)
  | openFile (path : Path) (opened : Except Int32 α) (found : Bool) (touched modeSet : Int32)
  | opendir (path : Path) (opened : Except Int32 α)
  | release (fh : UInt64) (closed : Int32)

def HandleTab.call (s : HandleTab α) : HandleCall α → Outcome × HandleTab α
  | .create path opened modeSet touched => s.create path opened modeSet touched
  | .openFile path opened found touched modeSet => s.openFile path opened found touched modeSet
  | .opendir path opened => s.opendir path opened
  | .release fh closed => s.release fh closed

end Model

section Property

variable {α : Type}

structure Live (α : Type) where
  handle : UInt64
  kind : Kind
  f : α

def HandleCall.opens : HandleCall α → Option (Kind × α)
  | .create _ (.ok f) _ _ => some (.file, f)
  | .openFile _ (.ok f) _ _ _ => some (.file, f)
  | .opendir _ (.ok f) => some (.dir, f)
  | _ => none

def track (live : List (Live α)) (c : HandleCall α) : Outcome → List (Live α)
  | .handle fh =>
    match c.opens with
    | some (k, f) => ⟨fh, k, f⟩::live
    | none => live
  | .released _ =>
    match c with
    | .release fh _ => live.filter (·.handle ≠ fh)
    | _ => live
  | _ => live

def HandleTab.Resolves (s : HandleTab α) (live : List (Live α)) : Prop :=
  (∀ l ∈ live, ∃ of, s.openFileTab[l.handle]? = some of ∧ of.f = l.f) ∧
    (live.map Live.handle).Nodup

def ClosesRight (live : List (Live α)) (c : HandleCall α) : Outcome → Prop
  | .released k => ∀ l ∈ live, ∀ closed, c = .release l.handle closed → l.kind = k
  | _ => True

def HandleTab.AllRight : HandleTab α → List (Live α) → List (HandleCall α) → Prop
  | s, live, [] => s.Resolves live
  | s, live, c::cs =>
    s.Resolves live ∧ ClosesRight live c (s.call c).1 ∧
      (s.call c).2.AllRight (track live c (s.call c).1) cs

def opened (k : Kind) (cs : List (HandleCall α)) : ℕ :=
  cs.countP fun c => c.opens.any fun o => o.1 = k

end Property

section Ranges

/-- Where the handles of a kind have to end: those of files below those of directories, and those of
directories within an `int`. -/
def lastFh : Kind → ℕ
  | .file => firstFh .dir
  | .dir => 2^31

lemma startFd_le_firstFh (k : Kind) : startFd ≤ firstFh k := by cases k <;> decide

lemma lastFh_le (k : Kind) : lastFh k ≤ 2^31 := by cases k <;> decide

lemma kind_of_range {k : Kind} {n : ℕ} (hlo : firstFh k ≤ n) (hhi : n < lastFh k) :
    (if firstFh .dir ≤ n then Kind.dir else .file) = k := by
  cases k with
  | file => exact if_neg (Nat.not_le.mpr hhi)
  | dir => exact if_pos hlo

lemma asInt_of_lt {fh : UInt64} (h : fh.toNat < 2^31) : asInt fh = fh := by
  have hbits : fh.toUInt32.toInt32.toInt = fh.toUInt32.toBitVec.toInt := rfl
  have hmod : fh.toUInt32.toBitVec.toNat = fh.toNat % 2^32 := by simp
  have hint : fh.toUInt32.toInt32.toInt = fh.toNat := by
    rw [hbits, BitVec.toInt_eq_toNat_cond, hmod]
    split_ifs <;> omega
  have hneg : ¬fh.toUInt32.toInt32 < 0 := by
    rw [Int32.lt_iff_toInt_lt, hint]
    simp
  have hval := toNat_signExtended fh.toUInt32.toInt32
  rw [if_neg hneg, hint] at hval
  apply UInt64.toNat.inj
  exact_mod_cast hval

end Ranges

section Invariant

variable {α : Type}

/-- Handles are below their counter, which has room for what is still opened, and the table has every live
handle with what it was returned for. -/
structure HandleTab.Inv (s : HandleTab α) (live : List (Live α)) (room : Kind → ℕ) : Prop where
  low : ∀ k, firstFh k ≤ (s.next k).toNat
  room : ∀ k, (s.next k).toNat + room k ≤ lastFh k
  keys : ∀ (fh : UInt64) (of : OpenFile α), s.openFileTab[fh]? = some of →
    of.fh = fh ∧ ∃ k, firstFh k ≤ fh.toNat ∧ fh.toNat < (s.next k).toNat
  entries : ∀ l ∈ live, (∃ of, s.openFileTab[l.handle]? = some of ∧ of.f = l.f) ∧
    firstFh l.kind ≤ l.handle.toNat ∧ l.handle.toNat < (s.next l.kind).toNat
  nodup : (live.map Live.handle).Nodup

lemma inv_init (room : Kind → ℕ) (hroom : ∀ k, firstFh k + room k ≤ lastFh k) :
    (HandleTab.init α).Inv [] room := by
  have hnext : ∀ k, ((HandleTab.init α).next k).toNat = firstFh k := by
    intro k
    cases k <;> rfl
  refine ⟨fun k => (hnext k).ge, fun k => (hnext k).symm ▸ hroom k, ?_, by simp, by simp⟩
  intro fh of hof
  simp [HandleTab.init] at hof

variable {s : HandleTab α} {live : List (Live α)} {room : Kind → ℕ}

lemma HandleTab.Inv.mono (h : s.Inv live room) {room' : Kind → ℕ} (hle : ∀ k, room' k ≤ room k) :
    s.Inv live room' :=
  { h with room := fun k => (Nat.add_le_add_left (hle k) _).trans (h.room k) }

lemma HandleTab.Inv.lock (h : s.Inv live room) : ({ s with locked := true } : HandleTab α).Inv live room :=
  ⟨h.low, h.room, h.keys, h.entries, h.nodup⟩

lemma HandleTab.Inv.resolves (h : s.Inv live room) : s.Resolves live :=
  ⟨fun l hl => (h.entries l hl).1, h.nodup⟩

lemma HandleTab.Inv.next_fresh (h : s.Inv live room) {k : Kind} (hk : 0 < room k) :
    s.openFileTab[s.next k]? = none := by
  by_contra hne
  obtain ⟨of, hof⟩ := Option.ne_none_iff_exists'.mp hne
  obtain ⟨-, k', hlo, hhi⟩ := h.keys _ _ hof
  have hself := h.room k
  have hother := h.room k'
  have hlow := h.low k
  cases k <;> cases k' <;> simp only [lastFh] at hself hother <;> omega

def HandleTab.added (s : HandleTab α) (k : Kind) (path : Path) (f : α) : HandleTab α :=
  { s with
    next := Function.update s.next k (s.next k + 1)
    openFileTab := s.openFileTab.insertIfNew (s.next k) ⟨f, path, s.next k⟩ }

lemma HandleTab.initOpenFile_eq (path : Path) (f : α) {k : Kind} (hne : s.next k ≠ 0) :
    s.initOpenFile path f k =
      if s.openFileTab.size = maxOpenFiles then (none, { s with locked := true })
      else (some (s.next k), s.added k path f) := by
  rw [HandleTab.initOpenFile, HandleTab.allocFh]
  split_ifs with hfull
  · rfl
  · exact if_neg hne

lemma HandleTab.Inv.next_succ (h : s.Inv live room) {k : Kind} (hk : 0 < room k) :
    (s.next k + 1).toNat = (s.next k).toNat + 1 := by
  have hroom := h.room k
  have hlast := lastFh_le k
  rw [UInt64.toNat_add, UInt64.toNat_one]
  omega

lemma HandleTab.Inv.next_le (h : s.Inv live room) {k : Kind} (hk : 0 < room k) (k' : Kind) :
    (s.next k').toNat ≤ (Function.update s.next k (s.next k + 1) k').toNat := by
  by_cases hkk : k' = k
  · subst hkk
    rw [Function.update_self, h.next_succ hk]
    exact Nat.le_succ _
  · rw [Function.update_of_ne hkk]

lemma HandleTab.getElem?_added (k : Kind) (path : Path) (f : α) (hfresh : s.openFileTab[s.next k]? = none)
    (fh : UInt64) : (s.added k path f).openFileTab[fh]? =
      if fh = s.next k then some ⟨f, path, s.next k⟩ else s.openFileTab[fh]? := by
  have hmem : s.next k ∉ s.openFileTab := by
    rw [Std.TreeMap.mem_iff_isSome_getElem?, hfresh]
    simp
  rw [HandleTab.added, Std.TreeMap.getElem?_insertIfNew]
  by_cases hfh : fh = s.next k
  · rw [if_pos ⟨Std.compare_eq_iff_eq.mpr hfh.symm, hmem⟩, if_pos hfh]
  · rw [if_neg fun hc => hfh (Std.compare_eq_iff_eq.mp hc.1).symm, if_neg hfh]

lemma HandleTab.Inv.added (h : s.Inv live room) {k : Kind} (hk : 0 < room k) (path : Path) (f : α) :
    (s.added k path f).Inv (⟨s.next k, k, f⟩::live) (Function.update room k (room k - 1)) := by
  have hfresh := h.next_fresh hk
  have hget := HandleTab.getElem?_added k path f hfresh
  have hself : firstFh k ≤ (s.next k).toNat ∧
      (s.next k).toNat < (Function.update s.next k (s.next k + 1) k).toNat := by
    rw [Function.update_self, h.next_succ hk]
    exact ⟨h.low k, Nat.lt_succ_self _⟩
  refine ⟨fun k' => (h.low k').trans (h.next_le hk k'), ?_, ?_, ?_, ?_⟩
  · intro k'
    have hroom := h.room k'
    show (Function.update s.next k (s.next k + 1) k').toNat + _ ≤ _
    by_cases hkk : k' = k
    · subst hkk
      rw [Function.update_self, Function.update_self, h.next_succ hk]
      omega
    · rwa [Function.update_of_ne hkk, Function.update_of_ne hkk]
  · intro fh of hof
    rw [hget] at hof
    split_ifs at hof with hfh
    · obtain rfl := Option.some.inj hof
      rw [hfh]
      exact ⟨rfl, k, hself⟩
    · obtain ⟨heq, k', hlo, hhi⟩ := h.keys fh of hof
      exact ⟨heq, k', hlo, hhi.trans_le (h.next_le hk k')⟩
  · intro l hl
    rcases List.mem_cons.mp hl with rfl | hl
    · refine ⟨⟨⟨f, path, s.next k⟩, ?_, rfl⟩, hself⟩
      rw [hget, if_pos rfl]
    · obtain ⟨⟨of, hof, hf⟩, hlo, hhi⟩ := h.entries l hl
      have hne : l.handle ≠ s.next k := by
        intro heq
        rw [heq, hfresh] at hof
        cases hof
      refine ⟨⟨of, ?_, hf⟩, hlo, hhi.trans_le (h.next_le hk l.kind)⟩
      rw [hget, if_neg hne, hof]
  · rw [List.map_cons, List.nodup_cons]
    refine ⟨?_, h.nodup⟩
    intro hmem
    obtain ⟨l, hl, heq⟩ := List.mem_map.mp hmem
    obtain ⟨⟨of, hof, -⟩, -⟩ := h.entries l hl
    rw [heq, hfresh] at hof
    cases hof

lemma HandleTab.Inv.tail {l : Live α} (h : s.Inv (l::live) room) : s.Inv live room :=
  ⟨h.low, h.room, h.keys, fun l' hl' => h.entries l' (List.mem_cons_of_mem _ hl'),
    (List.nodup_cons.mp h.nodup).2⟩

lemma HandleTab.Inv.openWith (h : s.Inv live room) {k : Kind} (hk : 0 < room k) (path : Path) (f : α)
    (after : Int32) {c : HandleCall α} (hc : c.opens = some (k, f)) :
    (s.openWith k path (.ok f) after).2.Inv (track live c (s.openWith k path (.ok f) after).1)
      (Function.update room k (room k - 1)) := by
  have hle : ∀ k', Function.update room k (room k - 1) k' ≤ room k' := by
    intro k'
    by_cases hkk : k' = k
    · subst hkk
      rw [Function.update_self]
      exact Nat.sub_le _ _
    · rw [Function.update_of_ne hkk]
  have hlow := (startFd_le_firstFh k).trans (h.low k)
  have hne : s.next k ≠ 0 := by
    intro hzero
    rw [hzero] at hlow
    exact absurd hlow (by decide)
  have hlt : (s.next k).toNat < 2^31 := by
    have hroom := h.room k
    have hlast := lastFh_le k
    omega
  rw [HandleTab.openWith, HandleTab.initOpenFile_eq path f hne]
  by_cases hlocked : s.locked
  · rw [if_pos hlocked]
    exact h.mono hle
  rw [if_neg hlocked]
  by_cases hfull : s.openFileTab.size = maxOpenFiles
  · rw [if_pos hfull]
    exact (h.mono hle).lock
  rw [if_neg hfull]
  by_cases hafter : after = 0
  · simp only [if_pos hafter, asInt_of_lt hlt, track, hc]
    exact h.added hk path f
  · simp only [if_neg hafter, track]
    exact (h.added hk path f).tail

lemma HandleTab.Inv.erased (h : s.Inv live room) (fh : UInt64) :
    ({ s with openFileTab := s.openFileTab.erase fh } : HandleTab α).Inv
      (live.filter (·.handle ≠ fh)) room := by
  have hget : ∀ fh', (s.openFileTab.erase fh)[fh']? =
      if fh' = fh then none else s.openFileTab[fh']? := by
    intro fh'
    rw [Std.TreeMap.getElem?_erase]
    by_cases hfh : fh' = fh
    · rw [if_pos (Std.compare_eq_iff_eq.mpr hfh.symm), if_pos hfh]
    · rw [if_neg fun hc => hfh (Std.compare_eq_iff_eq.mp hc).symm, if_neg hfh]
  refine ⟨h.low, h.room, ?_, ?_, ?_⟩
  · intro fh' of hof
    have hof : (s.openFileTab.erase fh)[fh']? = some of := hof
    rw [hget] at hof
    split_ifs at hof
    exact h.keys fh' of hof
  · intro l hl
    obtain ⟨hl, hne⟩ := List.mem_filter.mp hl
    obtain ⟨⟨of, hof, hf⟩, hrange⟩ := h.entries l hl
    refine ⟨⟨of, ?_, hf⟩, hrange⟩
    show (s.openFileTab.erase fh)[l.handle]? = some of
    rw [hget, if_neg (by simpa using hne), hof]
  · exact h.nodup.sublist (List.filter_sublist.map _)

lemma HandleTab.Inv.release (h : s.Inv live room) (fh : UInt64) (closed : Int32) :
    (s.release fh closed).2.Inv (track live (.release fh closed) (s.release fh closed).1) room ∧
      ClosesRight live (.release fh closed) (s.release fh closed).1 := by
  rw [HandleTab.release]
  by_cases hlocked : s.locked
  · rw [if_pos hlocked]
    exact ⟨h, trivial⟩
  rw [if_neg hlocked]
  cases hof : s.openFileTab[fh]? with
  | none => exact ⟨h.lock, trivial⟩
  | some of =>
    by_cases hclosed : closed = 0
    · have hmem : fh ∈ s.openFileTab := by
        rw [Std.TreeMap.mem_iff_isSome_getElem?, hof]
        rfl
      simp only [hclosed, ne_eq, not_true_eq_false, if_false, HandleTab.delOpenFile, if_pos hmem,
        (h.keys fh of hof).1]
      refine ⟨h.erased fh, ?_⟩
      intro l hl closed' hc
      obtain ⟨-, hlo, hhi⟩ := h.entries l hl
      have hroom := h.room l.kind
      obtain ⟨rfl, -⟩ := HandleCall.release.inj hc
      exact (kind_of_range hlo (by omega)).symm
    · simp only [ne_eq, hclosed, not_false_eq_true, if_true]
      exact ⟨h, trivial⟩

end Invariant

section Runs

variable {α : Type} {s : HandleTab α} {live : List (Live α)}

lemma opened_cons (k : Kind) (c : HandleCall α) (cs : List (HandleCall α)) :
    opened k (c::cs) = opened k cs + if c.opens.any (fun o => o.1 = k) then 1 else 0 := by
  rw [opened, List.countP_cons]
  rfl

lemma opened_cons_of_opens {k : Kind} {f : α} {c : HandleCall α} (hc : c.opens = some (k, f))
    (cs : List (HandleCall α)) : 0 < opened k (c::cs) ∧
      Function.update (opened · (c::cs)) k (opened k (c::cs) - 1) = (opened · cs) := by
  refine ⟨?_, ?_⟩
  · rw [opened_cons, hc]
    simp
  · funext k'
    by_cases hkk : k' = k
    · subst hkk
      rw [Function.update_self, opened_cons, hc]
      simp
    · rw [Function.update_of_ne hkk, opened_cons, hc]
      simp [Ne.symm hkk]

lemma closesRight_of_ne {c : HandleCall α} (hc : ∀ fh closed, c ≠ .release fh closed) (o : Outcome) :
    ClosesRight live c o := by
  cases o with
  | released k => exact fun l _ closed heq => absurd heq (hc l.handle closed)
  | _ => trivial

lemma HandleTab.Inv.call {c : HandleCall α} {cs : List (HandleCall α)}
    (h : s.Inv live (opened · (c::cs))) :
    (s.call c).2.Inv (track live c (s.call c).1) (opened · cs) ∧ ClosesRight live c (s.call c).1 := by
  have hle : ∀ k, opened k cs ≤ opened k (c::cs) := fun k => by
    rw [opened_cons]
    exact Nat.le_add_right _ _
  have hopen : ∀ k path f after, c.opens = some (k, f) → s.call c = s.openWith k path (.ok f) after →
      (s.call c).2.Inv (track live c (s.call c).1) (opened · cs) := by
    intro k path f after hc heq
    obtain ⟨hpos, hrest⟩ := opened_cons_of_opens hc cs
    rw [heq, ← hrest]
    exact h.openWith hpos path f after hc
  cases c with
  | create path opened modeSet touched =>
    refine ⟨?_, closesRight_of_ne (by rintro _ _ ⟨⟩) _⟩
    cases opened with
    | error r => exact h.mono hle
    | ok f => exact hopen _ _ f _ rfl rfl
  | openFile path opened found touched modeSet =>
    refine ⟨?_, closesRight_of_ne (by rintro _ _ ⟨⟩) _⟩
    cases opened with
    | error r => exact h.mono hle
    | ok f => exact hopen _ _ f _ rfl rfl
  | opendir path opened =>
    refine ⟨?_, closesRight_of_ne (by rintro _ _ ⟨⟩) _⟩
    cases opened with
    | error r => exact h.mono hle
    | ok f => exact hopen _ _ f _ rfl rfl
  | release fh closed => exact (h.mono hle).release fh closed

lemma HandleTab.Inv.allRight {cs : List (HandleCall α)} (h : s.Inv live (opened · cs)) :
    s.AllRight live cs := by
  induction cs generalizing s live with
  | nil => exact h.resolves
  | cons c cs ih =>
    obtain ⟨hinv, hright⟩ := h.call
    exact ⟨h.resolves, hright, ih hinv⟩

/-- In a run that opens at most a million files, and as many directories as there are handles left in an
`int`, handles lead to what they were returned for, differ from each other and are closed as what they
are. -/
theorem handles_right_of_counts (cs : List (HandleCall α)) (hfiles : opened .file cs ≤ maxOpenFiles)
    (hdirs : opened .dir cs ≤ 2^31 - firstFh .dir) : (HandleTab.init α).AllRight [] cs := by
  refine (inv_init (opened · cs) ?_).allRight
  intro k
  cases k with
  | file =>
    simp only [firstFh, lastFh]
    omega
  | dir =>
    simp only [firstFh, lastFh, maxOpenFiles, startFd] at hdirs ⊢
    omega

theorem handles_right_file_and_dir :
    (HandleTab.init ℕ).AllRight []
      [.create [47, 97] (.ok 7) 0 0, .opendir [47] (.ok 8), .release 3 0, .release 1000003 0] :=
  handles_right_of_counts _ (by decide) (by decide)

end Runs

section Crossing

def openClose (fh : UInt64) : List (HandleCall Unit) :=
  [.openFile [47, 97] (.ok ()) true 0 0, .release fh 0]

structure Idle (s : HandleTab Unit) (n : ℕ) : Prop where
  next : s.next .file = UInt64.ofNat (startFd + n)
  empty : s.openFileTab.size = 0
  unlocked : s.locked = false

variable {s : HandleTab Unit} {n : ℕ}

lemma idle_init : Idle (HandleTab.init Unit) 0 := ⟨rfl, rfl, rfl⟩

lemma Idle.toNat_next (h : Idle s n) (hn : n ≤ maxOpenFiles) :
    (s.next .file).toNat = startFd + n := by
  rw [h.next, UInt64.toNat_ofNat']
  simp only [maxOpenFiles, startFd] at hn ⊢
  omega

lemma Idle.openFile (h : Idle s n) (hn : n ≤ maxOpenFiles) :
    s.call (.openFile [47, 97] (.ok ()) true 0 0) =
      (.handle (s.next .file), s.added .file [47, 97] ()) := by
  have hnat := h.toNat_next hn
  have hne : s.next .file ≠ 0 := by
    intro hzero
    rw [hzero] at hnat
    simp only [UInt64.toNat_zero, startFd] at hnat
    omega
  have hlt : (s.next .file).toNat < 2^31 := by
    simp only [maxOpenFiles, startFd] at hn hnat
    omega
  have hsize : ¬s.openFileTab.size = maxOpenFiles := by
    rw [h.empty]
    decide
  show s.openWith .file [47, 97] (.ok ()) 0 = _
  simp only [HandleTab.openWith, h.unlocked, HandleTab.initOpenFile_eq _ _ hne, if_neg hsize,
    asInt_of_lt hlt, Bool.false_eq_true, if_false, if_true]

def HandleTab.reclosed (s : HandleTab Unit) : HandleTab Unit :=
  { s.added .file [47, 97] () with
    openFileTab := (s.added .file [47, 97] ()).openFileTab.erase (s.next .file)
    locked := false }

lemma Idle.release (h : Idle s n) (hn : n ≤ maxOpenFiles) :
    (s.added .file [47, 97] ()).call (.release (s.next .file) 0) =
      (.released (if firstFh .dir ≤ startFd + n then .dir else .file), s.reclosed) := by
  have hfresh : s.openFileTab[s.next .file]? = none := by
    apply Std.TreeMap.getElem?_of_isEmpty
    rw [Std.TreeMap.isEmpty_eq_size_eq_zero, h.empty]
    rfl
  have hget := HandleTab.getElem?_added .file [47, 97] () hfresh (s.next .file)
  rw [if_pos rfl] at hget
  have hmem : s.next .file ∈ (s.added .file [47, 97] ()).openFileTab := by
    rw [Std.TreeMap.mem_iff_isSome_getElem?, hget]
    rfl
  have hunlocked : (s.added .file [47, 97] ()).locked = false := h.unlocked
  show (s.added .file [47, 97] ()).release (s.next .file) 0 = _
  simp only [HandleTab.release, hunlocked, Bool.false_eq_true, if_false, hget, ne_eq,
    not_true_eq_false, HandleTab.delOpenFile, if_pos hmem, h.toNat_next hn]
  rfl

lemma Idle.reclosed (h : Idle s n) : Idle s.reclosed (n+1) := by
  refine ⟨?_, ?_, rfl⟩
  · show Function.update s.next .file (s.next .file + 1) .file = _
    rw [Function.update_self, h.next, ← Nat.add_assoc, UInt64.ofNat_add (startFd + n) 1]
    rfl
  · have hmem : s.next .file ∉ s.openFileTab := by
      rw [Std.TreeMap.mem_iff_isSome_getElem?, Std.TreeMap.getElem?_of_isEmpty]
      · simp
      · rw [Std.TreeMap.isEmpty_eq_size_eq_zero, h.empty]
        rfl
    show ((s.openFileTab.insertIfNew (s.next .file) _).erase (s.next .file)).size = 0
    rw [Std.TreeMap.size_erase, Std.TreeMap.contains_insertIfNew_self, if_pos rfl,
      Std.TreeMap.size_insertIfNew, if_neg hmem, h.empty]

lemma Idle.allRight_openClose (h : Idle s n) (hn : n ≤ maxOpenFiles) {cs : List (HandleCall Unit)}
    (hright : s.AllRight [] (openClose (s.next .file) ++ cs)) :
    (if firstFh .dir ≤ startFd + n then Kind.dir else .file) = .file ∧ s.reclosed.AllRight [] cs := by
  obtain ⟨-, -, -, hclose, hrest⟩ := hright
  rw [h.openFile hn] at hclose hrest
  simp only [track, HandleCall.opens] at hclose hrest
  rw [h.release hn] at hclose hrest
  refine ⟨(hclose _ List.mem_cons_self 0 rfl).symm, ?_⟩
  simpa [track] using hrest

def manyFiles (n : ℕ) : List (HandleCall Unit) :=
  (List.range n).flatMap fun i => openClose (UInt64.ofNat (startFd + i))

lemma exists_idle_of_manyFiles {m : ℕ} (hm : n + m ≤ maxOpenFiles) (h : Idle s n)
    {cs : List (HandleCall Unit)}
    (hright : s.AllRight [] ((List.range' n m).flatMap
      (fun i => openClose (UInt64.ofNat (startFd + i))) ++ cs)) :
    ∃ s', Idle s' (n + m) ∧ s'.AllRight [] cs := by
  induction m generalizing s n with
  | zero => exact ⟨s, h, hright⟩
  | succ m ih =>
    rw [List.range'_succ, List.flatMap_cons, List.append_assoc, ← h.next] at hright
    have hnext := (h.allRight_openClose (by omega) hright).2
    obtain ⟨s', hidle, hs'⟩ := ih (by omega) h.reclosed hnext
    exact ⟨s', by rwa [Nat.add_right_comm, Nat.add_assoc] at hidle, hs'⟩

lemma not_allRight_manyFiles (hn : n ≤ maxOpenFiles) (hdir : firstFh .dir ≤ startFd + n) :
    ¬(HandleTab.init Unit).AllRight [] (manyFiles n ++ openClose (UInt64.ofNat (startFd + n))) := by
  intro hright
  rw [manyFiles, List.range_eq_range'] at hright
  obtain ⟨s, hidle, hs⟩ := exists_idle_of_manyFiles (by omega) idle_init hright
  rw [Nat.zero_add] at hidle
  rw [← hidle.next, ← List.append_nil (openClose _)] at hs
  have hkind := (hidle.allRight_openClose hn hs).1
  rw [if_pos hdir] at hkind
  cases hkind

/-- The file behind a million others has the first handle of a directory. -/
theorem millionth_file_closed_as_dir :
    ¬(HandleTab.init Unit).AllRight [] (manyFiles maxOpenFiles ++ openClose 1000003) :=
  not_allRight_manyFiles (le_refl _) (by decide)

end Crossing

end Bfs.Ext4
