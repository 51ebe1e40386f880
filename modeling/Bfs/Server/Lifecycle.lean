import Bfs.Fs.BlockPath
import Bfs.Rpc.Message

/-! The life cycle of the server: `handle_init`, `handle_destroy` and the file requests, for both back
ends, over sequences of requests. -/
namespace Bfs.Server
open Bfs.Rpc (OpType)

/-- `BfsFsLayer::use_lwext4`. -/
inductive Backend
  | native
  | lwext4
  deriving DecidableEq, Repr

/-- How a call ends: with a code, with an exception that `handle_init` catches, or with the process. -/
inductive Call
  | returns (r : ℤ)
  | throws
  | dies
  deriving DecidableEq, Repr

/-- The calls that an init request makes: the work of `BfsHandle::mkfs` and `BfsHandle::mount` behind
the tests of the status, and the calls of the lwext4 library. -/
structure InitCalls where
  mkfs : Call
  mount : Call
  ext4Mkfs : Call
  ext4MkfsReadInfo : Call
  ext4DeviceRegister : Call
  ext4Mount : Call
  ext4MountSetupLocks : Call
  ext4Recover : Call
  ext4JournalStart : Call
  deriving DecidableEq, Repr

def Call.andThen {α : Type} (x : Call) (bad : α) (other : Call → α) (next : α) : α :=
  match x with
  | .returns 0 => next
  | .returns _ => bad
  | e => other e

section Native

/-- `BfsHandle::mkfs`. -/
def nativeMkfs (c : InitCalls) (status : Fs.Status) : Fs.Status × Call :=
  if status ≠ .initialized then (status, .throws)
  else
    match c.mkfs with
    | .returns _ => (.formatted, .returns 0)
    | e => (.formatting, e)

/-- `BfsHandle::mount`. -/
def nativeMount (c : InitCalls) (status : Fs.Status) : Fs.Status × Call :=
  if status ≠ .formatted then (status, .throws)
  else
    match c.mount with
    | .returns _ => (.mounted, .returns 0)
    | e => (status, e)

end Native

section Lwext4

/-- `__do_lwext4_mkfs`. -/
def doLwext4Mkfs (c : InitCalls) (status : Fs.Status) : Fs.Status × Call :=
  if status ≠ .initialized then (status, .returns (-1))
  else
    c.ext4Mkfs.andThen (.formatting, .returns (-1)) (fun e => (.formatting, e))
      (c.ext4MkfsReadInfo.andThen (.formatting, .returns (-1)) (fun e => (.formatting, e))
        (.formatted, .returns 0))

def enotsup : ℤ := 95

/-- The calls behind `ext4_mount`; a failure returns `false`, which is `BFS_SUCCESS`. -/
def afterExt4Mount (c : InitCalls) : Call :=
  c.ext4MountSetupLocks.andThen (.returns 0) id
    (match c.ext4Recover with
      | .returns r =>
        if r ≠ 0 ∧ r ≠ enotsup then .returns 0
        else c.ext4JournalStart.andThen (.returns 0) id (.returns 0)
      | e => e)

/-- `__do_lwext4_mount`; where it returns `false` that is `BFS_SUCCESS`, too. -/
def doLwext4Mount (c : InitCalls) (status : Fs.Status) : Fs.Status × Call :=
  if status ≠ .formatted then (status, .returns (-1))
  else
    c.ext4DeviceRegister.andThen (status, .returns 0) (fun e => (status, e))
      (c.ext4Mount.andThen (status, .returns 0) (fun e => (status, e))
        (.mounted, afterExt4Mount c))

end Lwext4

def Backend.mkfs : Backend → InitCalls → Fs.Status → Fs.Status × Call
  | .native => nativeMkfs
  | .lwext4 => doLwext4Mkfs

def Backend.mount : Backend → InitCalls → Fs.Status → Fs.Status × Call
  | .native => nativeMount
  | .lwext4 => doLwext4Mount

/-- The formatting and mounting in `handle_init`, from the status of the back end. -/
def mkfsAndMount (b : Backend) (doMkfs : Bool) (c : InitCalls) (status : Fs.Status) :
    Fs.Status × Call :=
  let formatted : Fs.Status × Call := if doMkfs then b.mkfs c status else (status, .returns 0)
  match formatted.2 with
  | .returns ret =>
    let mounted := b.mount c formatted.1
    match mounted.2 with
    | .returns ret' => (mounted.1, .returns (ret + ret'))
    | other => (mounted.1, other)
  | other => (formatted.1, other)

/-- The state of `bfs_server_ecalls` and of the back end: `fs_initialized`, the object of `bfs_handle`
by its status, and the static status of the lwext4 helpers. -/
structure Life where
  fsInitialized : Bool
  bfsHandle : Option Fs.Status
  extStatus : Fs.Status
  running : Bool
  deriving DecidableEq, Repr

/-- After `enclave_init`. -/
def Life.start : Life := ⟨false, none, .initialized, true⟩

def Life.mounted (b : Backend) (l : Life) : Bool :=
  match b with
  | .native => l.bfsHandle == some .mounted
  | .lwext4 => l.extStatus == .mounted

/-- What a client can see of a request: the answer to an init request, with whether a file system is
mounted then, and the execution of a file request, with the same. -/
inductive LifeEvent
  | initAnswer (ret : ℤ) (mounted : Bool)
  | fileRun (mounted : Bool)
  deriving DecidableEq, Repr

def Life.withStatus (b : Backend) (l : Life) (status : Fs.Status) : Life :=
  match b with
  | .native => { l with bfsHandle := some status }
  | .lwext4 => { l with extStatus := status }

def Life.initStatus (b : Backend) (l : Life) : Fs.Status :=
  match b with
  | .native => .initialized
  | .lwext4 => l.extStatus

def Life.initialized (b : Backend) (l : Life) (status : Fs.Status) : Life :=
  { l.withStatus b status with fsInitialized := true }

/-- `handle_init`. -/
def handleInit (b : Backend) (doMkfs : Bool) (c : InitCalls) (l : Life) : Life × List LifeEvent :=
  if l.fsInitialized then (l, [.initAnswer 0 (l.mounted b)])
  else
    match mkfsAndMount b doMkfs c (l.initStatus b) with
    | (status, .returns ret) =>
      (l.initialized b status, [.initAnswer ret ((l.initialized b status).mounted b)])
    | (status, .throws) => (l.withStatus b status, [])
    | (status, .dies) => ({ l.withStatus b status with running := false }, [])

/-- `handle_destroy`. -/
def handleDestroy (l : Life) : Life := { l with bfsHandle := none }

def usesFs (b : Backend) (op : OpType) : Bool := !(b == .native && op == .truncate)

def handleFile (b : Backend) (op : OpType) (l : Life) : Life × List LifeEvent :=
  if usesFs b op then
    ({ l with running := b == .lwext4 || l.bfsHandle.isSome }, [.fileRun (l.mounted b)])
  else (l, [])

def Life.step (b : Backend) (l : Life) (req : OpType × InitCalls) : Life × List LifeEvent :=
  if l.running then
    match req.1 with
    | .init => handleInit b false req.2 l
    | .initMkfs => handleInit b true req.2 l
    | .destroy => (handleDestroy l, [])
    | op => handleFile b op l
  else (l, [])

def Life.events (b : Backend) : Life → List (OpType × InitCalls) → List LifeEvent
  | _, [] => []
  | l, req::reqs => (l.step b req).2 ++ Life.events b (l.step b req).1 reqs

def LifeEvent.Ok : LifeEvent → Prop
  | .initAnswer ret mounted => ret = 0 → mounted = true
  | .fileRun mounted => mounted = true

section Phases

/-- The phases of the server, by its history alone: nothing was initialised yet, a file system is
mounted, or the server counts as initialised with nothing mounted. -/
inductive Phase
  | fresh (status : Fs.Status)
  | mounted
  | gone
  | down
  deriving DecidableEq, Repr

def Phase.isMounted : Phase → Bool
  | .fresh status => status == .mounted
  | .mounted => true
  | _ => false

def Phase.afterInit (b : Backend) (doMkfs : Bool) (c : InitCalls) : Phase → Phase
  | .fresh status =>
    match mkfsAndMount b doMkfs c status with
    | (status, .returns _) => if status = .mounted then .mounted else .gone
    | (status, .throws) => .fresh (match b with | .native => .initialized | .lwext4 => status)
    | (_, .dies) => .down
  | ph => ph

def Phase.afterDestroy (b : Backend) : Phase → Phase
  | .mounted => match b with | .native => .gone | .lwext4 => .mounted
  | ph => ph

def Phase.next (b : Backend) (ph : Phase) (req : OpType × InitCalls) : Phase :=
  match req.1 with
  | .init => ph.afterInit b false req.2
  | .initMkfs => ph.afterInit b true req.2
  | .destroy => ph.afterDestroy b
  | _ => ph

/-- An init request that may come in a phase: the first ones must not return success without a mounted
file system, and none may come when the file system is gone. -/
def Phase.AllowsInit (b : Backend) (doMkfs : Bool) (c : InitCalls) : Phase → Prop
  | .fresh status => (mkfsAndMount b doMkfs c status).2 = .returns 0 →
    (mkfsAndMount b doMkfs c status).1 = .mounted
  | .gone => False
  | _ => True

def Phase.Allows (b : Backend) (ph : Phase) (req : OpType × InitCalls) : Prop :=
  match req.1 with
  | .init => ph.AllowsInit b false req.2
  | .initMkfs => ph.AllowsInit b true req.2
  | .destroy => True
  | op => usesFs b op = true → ph.isMounted = true ∨ ph = .down

def Phase.Orderly (b : Backend) : Phase → List (OpType × InitCalls) → Prop
  | _, [] => True
  | ph, req::reqs => ph.Allows b req ∧ Phase.Orderly b (ph.next b req) reqs

def Phase.Describes (b : Backend) (l : Life) : Phase → Prop
  | .fresh status => l.running = true ∧ l.fsInitialized = false ∧
    match b with
    | .native => status = .initialized ∧ l.bfsHandle ≠ some .mounted
    | .lwext4 => l.extStatus = status
  | .mounted => l.running = true ∧ l.fsInitialized = true ∧ l.mounted b = true
  | .gone => l.running = true ∧ l.fsInitialized = true ∧ l.mounted b = false
  | .down => l.running = false

variable {b : Backend} {l : Life} {ph : Phase}

lemma Phase.Describes.mounted_eq (h : ph.Describes b l) (hrun : l.running = true) :
    l.mounted b = ph.isMounted := by
  cases ph with
  | fresh status =>
    obtain ⟨-, -, h⟩ := h
    cases b with
    | native =>
      obtain ⟨rfl, hne⟩ := h
      simpa [Life.mounted, Phase.isMounted] using hne
    | lwext4 =>
      subst h
      rfl
  | mounted => exact h.2.2
  | gone => exact h.2.2
  | down =>
    rw [Phase.Describes, hrun] at h
    cases h

lemma native_not_mounted_of_throws {doMkfs : Bool} {c : InitCalls} {status : Fs.Status}
    (h : mkfsAndMount .native doMkfs c .initialized = (status, .throws)) : status ≠ .mounted := by
  cases doMkfs with
  | false =>
    simp [mkfsAndMount, Backend.mount, nativeMount] at h
    simp [← h]
  | true =>
    cases hmkfs : c.mkfs with
    | returns r =>
      cases hmount : c.mount <;>
        simp [mkfsAndMount, Backend.mkfs, Backend.mount, nativeMkfs, nativeMount, hmkfs, hmount] at h
      simp [← h]
    | throws =>
      simp [mkfsAndMount, Backend.mkfs, nativeMkfs, hmkfs] at h
      simp [← h]
    | dies => simp [mkfsAndMount, Backend.mkfs, nativeMkfs, hmkfs] at h

@[simp] lemma Life.mounted_initialized (status : Fs.Status) :
    (l.initialized b status).mounted b = (status == .mounted) := by
  cases b with
  | native => cases status <;> rfl
  | lwext4 => rfl

@[simp] lemma Life.running_initialized (status : Fs.Status) :
    (l.initialized b status).running = l.running := by
  cases b <;> rfl

@[simp] lemma Life.fsInitialized_initialized (status : Fs.Status) :
    (l.initialized b status).fsInitialized = true := rfl

lemma Phase.Describes.init_fresh {status : Fs.Status} (h : (Phase.fresh status).Describes b l)
    (doMkfs : Bool) (c : InitCalls) :
    ((∀ e ∈ (handleInit b doMkfs c l).2, e.Ok) ↔ (Phase.fresh status).AllowsInit b doMkfs c) ∧
      ((Phase.fresh status).afterInit b doMkfs c).Describes b (handleInit b doMkfs c l).1 := by
  obtain ⟨hrun, hinit, hstatus⟩ := h
  have hst : l.initStatus b = status := by
    cases b with
    | native => exact hstatus.1.symm
    | lwext4 => exact hstatus
  rw [handleInit, hinit, if_neg (by simp), hst, Phase.AllowsInit, Phase.afterInit]
  rcases hm : mkfsAndMount b doMkfs c status with ⟨status', ret | - | -⟩
  · refine ⟨by simp [LifeEvent.Ok], ?_⟩
    by_cases hmnt : status' = .mounted
    · simp [hmnt, Phase.Describes, hrun]
    · simp [hmnt, Phase.Describes, hrun]
  · refine ⟨by simp, ?_⟩
    cases b with
    | native =>
      obtain rfl : status = .initialized := hstatus.1
      have hnot := native_not_mounted_of_throws hm
      simp [Phase.Describes, hrun, hinit, Life.withStatus, hnot]
    | lwext4 => simp [Phase.Describes, hrun, hinit, Life.withStatus]
  · exact ⟨by simp, rfl⟩

lemma Phase.Describes.init (h : ph.Describes b l) (hrun : l.running = true) (doMkfs : Bool)
    (c : InitCalls) :
    ((∀ e ∈ (handleInit b doMkfs c l).2, e.Ok) ↔ ph.AllowsInit b doMkfs c) ∧
      (ph.afterInit b doMkfs c).Describes b (handleInit b doMkfs c l).1 := by
  cases ph with
  | fresh status => exact h.init_fresh doMkfs c
  | mounted =>
    rw [handleInit, if_pos h.2.1]
    exact ⟨by simp [LifeEvent.Ok, Phase.AllowsInit, h.2.2], h⟩
  | gone =>
    rw [handleInit, if_pos h.2.1]
    exact ⟨by simp [LifeEvent.Ok, Phase.AllowsInit, h.2.2], h⟩
  | down =>
    rw [Phase.Describes, hrun] at h
    cases h

lemma Phase.Describes.destroy (h : ph.Describes b l) : (ph.afterDestroy b).Describes b (handleDestroy l) := by
  cases ph with
  | fresh status =>
    obtain ⟨hrun, hinit, hstatus⟩ := h
    refine ⟨hrun, hinit, ?_⟩
    cases b with
    | native => exact ⟨hstatus.1, by simp [handleDestroy]⟩
    | lwext4 => exact hstatus
  | mounted =>
    cases b with
    | native => exact ⟨h.1, h.2.1, rfl⟩
    | lwext4 => exact h
  | gone =>
    cases b with
    | native => exact ⟨h.1, h.2.1, rfl⟩
    | lwext4 => exact h
  | down => exact h

lemma Phase.Describes.file (h : ph.Describes b l) (hrun : l.running = true) (op : OpType) :
    ((∀ e ∈ (handleFile b op l).2, e.Ok) ↔ (usesFs b op = true → ph.isMounted = true ∨ ph = .down)) ∧
      ((∀ e ∈ (handleFile b op l).2, e.Ok) → ph.Describes b (handleFile b op l).1) := by
  have hdown : ph ≠ .down := by
    rintro rfl
    rw [Phase.Describes, hrun] at h
    cases h
  unfold handleFile
  split_ifs with huses
  · have hmnt := h.mounted_eq hrun
    refine ⟨by simp [LifeEvent.Ok, huses, hmnt, hdown], ?_⟩
    intro hok
    have hmounted : l.mounted b = true := by simpa [LifeEvent.Ok] using hok
    have hsame : ({ l with running := b == .lwext4 || l.bfsHandle.isSome } : Life) = l := by
      have hstill : (b == .lwext4 || l.bfsHandle.isSome) = l.running := by
        cases b with
        | lwext4 => simp [hrun]
        | native =>
          have hhandle : l.bfsHandle = some .mounted := by simpa [Life.mounted] using hmounted
          simp [hhandle, hrun]
      rw [hstill]
    rw [hsame]
    exact h
  · exact ⟨by simp [huses], fun _ => h⟩

lemma Phase.Describes.step (h : ph.Describes b l) (req : OpType × InitCalls) :
    ((∀ e ∈ (l.step b req).2, e.Ok) ↔ ph.Allows b req) ∧
      (ph.Allows b req → (ph.next b req).Describes b (l.step b req).1) := by
  obtain ⟨op, c⟩ := req
  cases hrun : l.running with
  | false =>
    obtain rfl : ph = .down := by
      cases ph with
      | fresh status => exact absurd (h.1.symm.trans hrun) (by simp)
      | mounted => exact absurd (h.1.symm.trans hrun) (by simp)
      | gone => exact absurd (h.1.symm.trans hrun) (by simp)
      | down => rfl
    have hstep : l.step b (op, c) = (l, []) := by
      rw [Life.step, hrun]
      rfl
    rw [hstep]
    refine ⟨?_, fun _ => ?_⟩
    · cases op <;> simp [Phase.Allows, Phase.AllowsInit]
    · cases op <;> exact h
  | true =>
    have hfile : ((∀ e ∈ (handleFile b op l).2, e.Ok) ↔
        (usesFs b op = true → ph.isMounted = true ∨ ph = .down)) ∧
        ((usesFs b op = true → ph.isMounted = true ∨ ph = .down) →
          ph.Describes b (handleFile b op l).1) :=
      ⟨(h.file hrun op).1, fun ha => (h.file hrun op).2 ((h.file hrun op).1.mpr ha)⟩
    unfold Life.step
    rw [if_pos hrun]
    cases op with
    | init => exact ⟨(h.init hrun false c).1, fun _ => (h.init hrun false c).2⟩
    | initMkfs => exact ⟨(h.init hrun true c).1, fun _ => (h.init hrun true c).2⟩
    | destroy => exact ⟨by simp [Phase.Allows], fun _ => h.destroy⟩
    | _ => exact hfile

lemma Phase.Describes.run (h : ph.Describes b l) (reqs : List (OpType × InitCalls)) :
    (∀ e ∈ l.events b reqs, e.Ok) ↔ ph.Orderly b reqs := by
  induction reqs generalizing l ph with
  | nil => simp [Life.events, Phase.Orderly]
  | cons req reqs ih =>
    obtain ⟨hok, hnext⟩ := h.step req
    rw [Life.events, Phase.Orderly, ← hok]
    simp only [List.mem_append, or_imp, forall_and]
    apply and_congr_right
    intro hevents
    exact ih (hnext (hok.mp hevents))

end Phases

end Bfs.Server
