import Bfs.Client.DirtyAccount
import Bfs.Client.Sending
import Bfs.Lib.Prog
import Bfs.Rpc.Session

/-! The locks of the client calls: `mux_lock` around an exchange with the server, and `writeback_lock`
around the local files. A call is run with the outcomes of everything that it asks of the network, the
cryptography and the local files, and the locks of the calling thread are followed to its end. -/
namespace Bfs.Client.Locking
open Bfs.Rpc Prog

section Model

/-- How `writeback_lock` is held. -/
inductive Hold
  | free
  | shared
  | exclusive
  deriving DecidableEq

structure Locks where
  mux : Bool
  writeback : Hold
  deriving DecidableEq

def Locks.nothing : Locks := ⟨false, .free⟩

/-- The exceptions `bfsCryptoError *`, `bfsUtilError *` and `std::runtime_error`. -/
inductive Exn
  | crypto
  | util
  | system
  deriving DecidableEq

/-- What ends a call other than its return: an exception on its way, the end of the process, a wait
that does not end, or undefined behaviour. -/
inductive Stop
  | thrown (e : Exn)
  | ended
  | waiting
  | undefined
  deriving DecidableEq

abbrev Action (α : Type) := Prog Locks Stop α

/-- `pthread_mutex_lock(&mux_lock)`, which waits for ever on a lock that the thread holds itself. -/
def lockMux : Action Unit := fun s =>
  if s.mux then (.error .waiting, s) else (.ok (), { s with mux := true })

def unlockMux : Action Unit := fun s =>
  if s.mux then (.ok (), { s with mux := false }) else (.error .undefined, s)

/-- `writeback_lock.lock()` and `lock_shared()`. -/
def lockWriteback (hold : Hold) : Action Unit := fun s =>
  if s.writeback = .free then (.ok (), { s with writeback := hold }) else (.error .waiting, s)

def unlockWriteback (hold : Hold) : Action Unit := fun s =>
  if s.writeback = hold then (.ok (), { s with writeback := .free }) else (.error .undefined, s)

/-- A `try` block with the exceptions that have a `catch` clause; any other ends the process. -/
def catching {α : Type} (clauses : List Exn) (x : Action α) : Action (Option α) := fun s =>
  match x s with
  | (.ok a, s') => (.ok (some a), s')
  | (.error (.thrown e), s') => if e ∈ clauses then (.ok Option.none, s') else (.error .ended, s')
  | (.error stop, s') => (.error stop, s')

def afterTry {α β : Type} (b : β) (next : α → Action β) : Option α → Action β
  | none => pure b
  | some a => next a

def allClauses : List Exn := [.crypto, .util, .system]

/-- `bfs_init` and `bfs_destroy` do not catch the errors of the cryptography. -/
def noCrypto : List Exn := [.util, .system]

/-- A round of the loop in `recv_msgp`: `waitConnections` fails, the client is not among the ready
connections, or `recvPacketizedBuffer` returns. -/
inductive MuxEvent
  | failed
  | notReady
  | received (bytesRead : Int64)

/-- A message of the server: how it is waited for, and what `decryptData` makes of it. -/
structure Message where
  events : List MuxEvent
  decrypted : Except Exn (List UInt8)

/-- A request and its reply: the exception of `encryptData`, whether all bytes were sent, and the
message that comes back. -/
structure Exchange where
  encrypted : Except Exn Unit
  sent : Bool
  reply : Message

def throwing {α : Type} : Except Exn α → Action α
  | .ok a => pure a
  | .error e => raise (.thrown e)

/-- The loop of `recv_msgp`. A closed connection is the only end at which it unlocks `mux_lock`. -/
def waitMessage : List MuxEvent → Action Unit
  | [] => raise .waiting
  | .failed::_ => raise (.thrown .system)
  | .notReady::events => waitMessage events
  | .received bytesRead::_ =>
    if bytesRead = 0 ∨ bytesRead = -1 then do
      unlockMux
      raise (.thrown .system)
    else pure ()

/-- The tests of `recv_msgp` on a decrypted message: the operation that the header has to name, if any,
and the length, if it may not be short. -/
def checkMessage (otype : Option OpType) (len : Option ℕ) (plain : List UInt8) :
    Except Exn (List UInt8) := do
  let rest ← (
    match otype with
    | none => .ok plain
    | some otype =>
      match takeHeader plain with
      | .error _ => .error .util
      | .ok ((rMtype, rOtype), rest) =>
        if rMtype ≠ MsgType.fromServer.code ∨ rOtype ≠ otype.code then .error .system
        else .ok rest : Except Exn (List UInt8))
  match len with
  | none => if plain.length < 8 then .error .system else .ok rest
  | some len => if plain.length ≠ len then .error .system else .ok rest

/-- `recv_msgp`. -/
def recvMsgp (m : Message) (otype : Option OpType) (len : Option ℕ) : Action (List UInt8) := do
  waitMessage m.events
  let plain ← throwing m.decrypted
  throwing (checkMessage otype len plain)

/-- From the lock of `mux_lock` to its unlock: the message behind its header. -/
def exchange (req : Request) (x : Exchange) : Action (List UInt8) := do
  lockMux
  throwing x.encrypted
  -- send_msgp
  require (x.sent = true) (.thrown .system)
  let rest ← recvMsgp x.reply (some req.replyOp) req.replyLen
  unlockMux
  pure rest

/-- A call up to the end of its `try` block, in which the fields of the reply are read, and the code
behind the block. -/
def call {α : Type} (clauses : List Exn) (req : Request) (x : Exchange)
    (fields : List UInt8 → Except Exn α) (next : α → Action ℤ) : Action ℤ :=
  catching clauses (do
    let rest ← exchange req x
    throwing (fields rest)) >>= afterTry bfsFailure next

def int32Field (rest : List UInt8) : Except Exn ℤ :=
  match takeU32 rest with
  | .error _ => .error .util
  | .ok (ret, _) => .ok ret.toInt32.toInt

def uint64Field (rest : List UInt8) : Except Exn UInt64 :=
  match takeU64 rest with
  | .error _ => .error .util
  | .ok (ret, _) => .ok ret

def bytesReadField (rest : List UInt8) : Except Exn (UInt64 × ℕ) :=
  match takeU64 rest with
  | .error _ => .error .util
  | .ok (bytesRead, data) => .ok (bytesRead, data.length)

def bfsMkdir (path : Path) (mode : UInt32) (x : Exchange) : Action ℤ :=
  call allClauses (.mkdir path mode) x int32Field pure

def bfsUnlink (path : Path) (x : Exchange) : Action ℤ :=
  call allClauses (.unlink path) x int32Field pure

def bfsRmdir (path : Path) (x : Exchange) : Action ℤ :=
  call allClauses (.rmdir path) x int32Field pure

def bfsRename (fr dest : Path) (x : Exchange) : Action ℤ :=
  call allClauses (.rename fr dest) x int32Field pure

def bfsChmod (path : Path) (mode : UInt32) (x : Exchange) : Action ℤ :=
  call allClauses (.chmod path mode) x uint64Field fun ret => pure ret.toInt64.toInt32.toInt

/-- `ENOENT`. -/
def enoent : ℤ := 2

/-- The fields of the reply to `bfs_getattr`; only the code and the number of the inode matter to what
is returned. -/
def getattrFields (rest : List UInt8) : Except Exn (ℤ × UInt64) := do
  let ret ← int32Field rest
  let ino ← uint64Field (rest.drop 20)
  .ok (ret, ino)

def bfsGetattr (path : Path) (x : Exchange) : Action ℤ :=
  call allClauses (.getattr path) x getattrFields fun (ret, ino) =>
    pure (if ret ≠ bfsSuccess ∧ ino < 2 then -enoent else bfsSuccess)

def bfsOpendir (path : Path) (x : Exchange) : Action ℤ :=
  call allClauses (.opendir path) x uint64Field fun ret =>
    pure (if ret.toInt64 < rootIno then ret.toInt64.toInt32.toInt else bfsSuccess)

/-- `writeback_lock` around a local call. When the call fails, the lock is kept. -/
def locally (hold : Hold) (done : Bool) (ret : ℤ) : Action ℤ := do
  lockWriteback hold
  if done = false then pure bfsFailure
  else do
    unlockWriteback hold
    pure ret

/-- `bfs_open`, with the outcome of the local `open`. -/
def bfsOpen (path : Path) (x : Exchange) (opened : Bool) : Action ℤ :=
  call allClauses (.openFile path) x uint64Field fun ret =>
    if ret.toInt64 < startFd then pure ret.toInt64.toInt32.toInt
    else locally .exclusive opened bfsSuccess

def bfsCreate (path : Path) (mode : UInt32) (x : Exchange) (opened : Bool) : Action ℤ :=
  call allClauses (.create path mode) x uint64Field fun ret =>
    if ret.toInt64 < startFd then pure ret.toInt64.toInt32.toInt
    else locally .exclusive opened bfsSuccess

/-- `bfs_truncate`, with the outcome of the local `ftruncate`. -/
def bfsTruncate (path : Path) (fh : UInt64) (length : Int64) (x : Exchange) (truncated : Bool) :
    Action ℤ := do
  require (3 ≤ fh) .ended
  call allClauses (.truncate path fh length.toUInt64.toUInt32) x uint64Field fun ret =>
    if ret ≠ 0 then pure ret.toInt64.toInt32.toInt
    else locally .shared truncated bfsSuccess

/-- `bfs_read`. `cached` is the result of `pread` on the cached file, if there is one. -/
def bfsRead (direct : Bool) (fh size off : UInt64) (cached : Option (Option ℕ)) (x : Exchange) :
    Action ℤ := do
  lockWriteback .shared
  if direct = false then
    match cached with
    | some (some br) => do
      unlockWriteback .shared
      pure br
    | some none => pure bfsFailure
    | none => raise .ended
  else do
    unlockWriteback .shared
    require (3 ≤ fh) .ended
    call allClauses (.read fh size off) x bytesReadField fun (bytesRead, len) => do
      require (bytesRead.toNat ≤ len) .undefined
      pure bytesRead.toUInt32.toInt32.toInt

/-- The outcomes of the local calls of `bfs_write_helper`. -/
structure LocalIo where
  pwrite : Option ℕ
  statOk : Bool
  preadOk : ℕ → Bool

def directOps (offset totalSize : ℕ) (writeBuf : List UInt8) : ℕ → ℕ → List WriteOp
  | 0, _ => []
  | n+1, totalBytesWritten =>
    if totalBytesWritten < totalSize then
      let writeBytes := min chunkSize (totalSize - totalBytesWritten)
      ⟨offset + totalBytesWritten, ByteSeq.slice writeBuf totalBytesWritten writeBytes⟩ ::
        directOps offset totalSize writeBuf n (totalBytesWritten + writeBytes)
    else []

def stagedOps (a : WriteArgs) (st : WbState) (s : Staging) : List WriteOp :=
  let e := stageEnv a st
  if e.flush || e.forceFlush then sendOps e.totalSize s.writeBuf s.dirtyChunksLocal 0
  else directOps e.offset e.totalSize s.writeBuf e.totalSize 0

def WriteOp.request (fh : UInt64) (op : WriteOp) : Request :=
  .write fh (UInt64.ofNat op.data.length) (UInt64.ofNat op.offset) op.data

def sendAll (fh : UInt64) (xs : ℕ → Exchange) : List WriteOp → ℕ → Action Bool
  | [], _ => pure true
  | op::ops, i =>
    catching allClauses (do
      require (3 ≤ fh) .ended
      let rest ← exchange (WriteOp.request fh op) (xs i)
      throwing (uint64Field rest)) >>= afterTry false fun bytesWritten =>
        if bytesWritten < UInt64.ofNat op.data.length then pure false else sendAll fh xs ops (i + 1)

/-- `bfs_write_helper`. -/
def bfsWriteHelper (fuel : ℕ) (fh : UInt64) (io : LocalIo) (xs : ℕ → Exchange) (a : WriteArgs)
    (st : WbState) : Action ℤ := do
  lockWriteback .exclusive
  if !a.directIo && !a.flush then
    match io.pwrite with
    | none => pure bfsFailure
    | some wb => do
      require (a.wbForceFlush = false) .ended
      unlockWriteback .exclusive
      pure wb
  else if !a.directIo && !io.statOk then pure bfsFailure
  else
    match stageLoopIo io.preadOk (stageEnv a st) fuel (stageStart a st) with
    | none => raise .waiting
    | some (_, false) => pure bfsFailure
    | some (s, true) => do
      unlockWriteback .exclusive
      let ops := stagedOps a st s
      let done ← sendAll fh xs ops 0
      pure (if done = false then bfsFailure
        else if a.directIo then ((ops.map fun op => op.data.length).sum : ℕ) else bfsSuccess)

/-- `bfs_release` and `bfs_releasedir`. `closed` is the outcome of `close` for a handle with a cached
file. -/
def bfsRelease (fh : UInt64) (closed : Option Bool) (x : Exchange) : Action ℤ := do
  lockWriteback .exclusive
  if closed = some false then pure bfsFailure
  else do
    unlockWriteback .exclusive
    require (3 ≤ fh) .ended
    call allClauses (.release fh) x int32Field pure

/-- `bfs_readdir`. The message with the entries is received without `mux_lock`, and `entries` is what is
made of it. -/
def bfsReaddir (fh : UInt64) (x : Exchange) (data : Message) (entries : List UInt8 → Except Exn Unit) :
    Action ℤ := do
  require (3 ≤ fh) .ended
  catching allClauses (do
    let rest ← exchange (.readdir fh) x
    let numEnts ← throwing (uint64Field rest)
    let plain ← recvMsgp data none (some (numEnts.toNat * (255 + 36) % 2^32))
    throwing (entries plain)) >>= afterTry bfsFailure fun _ => pure bfsSuccess

/-- `bfs_init`, which makes a new `mux_lock`. -/
def bfsInit (connected doMkfs spawned direct : Bool) (x : Exchange) : Action ℤ := do
  require (connected = true) .ended
  update fun s => { s with mux := false }
  call noCrypto (if doMkfs then .initMkfs else .init) x int32Field fun ret =>
    if ret ≠ bfsSuccess then pure bfsFailure
    else do
      require (direct = true ∨ spawned = true) .ended
      pure bfsSuccess

def bfsDestroy (x : Exchange) : Action ℤ := call noCrypto .destroy x int32Field pure

/-- `bfs_fallocate`: a file is created and a buffer written to it. -/
def bfsFallocate (fuel : ℕ) (path : Path) (mode : UInt32) (x : Exchange) (opened allocated : Bool)
    (fh : UInt64) (io : LocalIo) (xs : ℕ → Exchange) (a : WriteArgs) (st : WbState) : Action ℤ := do
  let ret ← bfsCreate path mode x opened
  if ret ≠ bfsSuccess then pure (-1)
  else if allocated = false then pure (-1)
  else do
    let ret ← bfsWriteHelper fuel fh io xs a st
    pure (if ret ≠ a.buf.length then -1 else 0)

end Model

section Outcomes

/-- How the loop of `recv_msgp` ends. -/
inductive WaitEnd
  | message
  | closed
  | failed
  | waiting

def waitEnd : List MuxEvent → WaitEnd
  | [] => .waiting
  | .failed::_ => .failed
  | .notReady::events => waitEnd events
  | .received bytesRead::_ => if bytesRead = 0 ∨ bytesRead = -1 then .closed else .message

inductive Outcome
  | accepted (rest : List UInt8)
  | closed
  | failed (e : Exn)
  | waiting
  deriving DecidableEq

def Message.outcome (m : Message) (otype : Option OpType) (len : Option ℕ) : Outcome :=
  match waitEnd m.events with
  | .message =>
    match m.decrypted >>= checkMessage otype len with
    | .ok rest => .accepted rest
    | .error e => .failed e
  | .closed => .closed
  | .failed => .failed .system
  | .waiting => .waiting

def Exchange.outcome (req : Request) (x : Exchange) : Outcome :=
  match x.encrypted with
  | .error e => .failed e
  | .ok () =>
    if x.sent = true then x.reply.outcome (some req.replyOp) req.replyLen else .failed .system

/-- The exchange does not end with an exception that is caught while `mux_lock` is held. -/
def Exchange.Releases (clauses : List Exn) (req : Request) (x : Exchange) : Prop :=
  ∀ e ∈ clauses, x.outcome req ≠ .failed e

def Exchange.Grants (req : Request) (x : Exchange) : Prop :=
  ∃ rest fh, x.outcome req = .accepted rest ∧ uint64Field rest = .ok fh ∧ ¬fh.toInt64 < startFd

def Exchange.Succeeds (req : Request) (x : Exchange) : Prop :=
  ∃ rest, x.outcome req = .accepted rest ∧ uint64Field rest = .ok 0

variable {s : Locks} {α : Type}

lemma waitMessage_eq (events : List MuxEvent) (s : Locks) :
    waitMessage events s =
      match waitEnd events with
      | .message => (.ok (), s)
      | .closed => (unlockMux >>= fun _ => raise (.thrown .system)) s
      | .failed => (.error (.thrown .system), s)
      | .waiting => (.error .waiting, s) := by
  induction events with
  | nil => rfl
  | cons event events ih =>
    cases event with
    | failed => rfl
    | notReady => exact ih
    | received bytesRead =>
      rw [waitMessage, waitEnd]
      by_cases hend : bytesRead = 0 ∨ bytesRead = -1
      · rw [if_pos hend, if_pos hend]
      · rw [if_neg hend, if_neg hend]
        rfl

lemma throwing_ok (a : α) (s : Locks) : throwing (.ok a) s = (.ok a, s) := rfl

/-- The part of `recv_msgp` behind its loop. -/
lemma checked_eq (m : Message) (otype : Option OpType) (len : Option ℕ) (s : Locks) :
    (throwing m.decrypted >>= fun plain => throwing (checkMessage otype len plain)) s =
      match m.decrypted >>= checkMessage otype len with
      | .ok rest => (.ok rest, s)
      | .error e => (.error (.thrown e), s) := by
  cases m.decrypted with
  | error e => rfl
  | ok plain =>
    rw [bind_of_ok (throwing_ok plain s), Fallible.ok_bind]
    cases checkMessage otype len plain <;> rfl

lemma recvMsgp_eq (m : Message) (otype : Option OpType) (len : Option ℕ) (s : Locks) :
    recvMsgp m otype len s =
      match m.outcome otype len with
      | .accepted rest => (.ok rest, s)
      | .closed => (unlockMux >>= fun _ => raise (.thrown .system)) s
      | .failed e => (.error (.thrown e), s)
      | .waiting => (.error .waiting, s) := by
  have hwait := waitMessage_eq m.events s
  rw [recvMsgp, Message.outcome]
  cases hend : waitEnd m.events with
  | message =>
    rw [hend] at hwait
    rw [bind_of_ok hwait, checked_eq]
    cases m.decrypted >>= checkMessage otype len <;> rfl
  | closed =>
    rw [hend] at hwait
    by_cases hmux : s.mux = true
    · have hunlock : unlockMux s = (.ok (), { s with mux := false }) := if_pos hmux
      dsimp only at hwait ⊢
      rw [bind_of_ok hunlock] at hwait ⊢
      rw [bind_of_error hwait]
      rfl
    · have hunlock : unlockMux s = (.error .undefined, s) := if_neg hmux
      dsimp only at hwait ⊢
      rw [bind_of_error hunlock] at hwait ⊢
      rw [bind_of_error hwait]
  | failed =>
    rw [hend] at hwait
    rw [bind_of_error hwait]
  | waiting =>
    rw [hend] at hwait
    rw [bind_of_error hwait]

/-- An exchange leaves `mux_lock` locked when it fails, except for a closed connection. -/
lemma exchange_eq (req : Request) (x : Exchange) (hmux : s.mux = false) :
    exchange req x s =
      match x.outcome req with
      | .accepted rest => (.ok rest, s)
      | .closed => (.error (.thrown .system), s)
      | .failed e => (.error (.thrown e), { s with mux := true })
      | .waiting => (.error .waiting, { s with mux := true }) := by
  obtain ⟨mux, writeback⟩ := s
  obtain rfl : mux = false := hmux
  have hlock : lockMux ⟨false, writeback⟩ = (.ok (), ⟨true, writeback⟩) := rfl
  have hrecv := recvMsgp_eq x.reply (some req.replyOp) req.replyLen ⟨true, writeback⟩
  rw [exchange, bind_of_ok hlock, Exchange.outcome]
  cases x.encrypted with
  | error e => rfl
  | ok u =>
    rw [bind_of_ok (throwing_ok u _)]
    by_cases hsent : x.sent = true
    · rw [require_bind_of hsent]
      dsimp only
      rw [if_pos hsent]
      cases hreply : x.reply.outcome (some req.replyOp) req.replyLen with
      | accepted rest =>
        rw [hreply] at hrecv
        rw [bind_of_ok hrecv]
        rfl
      | closed =>
        rw [hreply] at hrecv
        rw [bind_of_error hrecv]
      | failed e =>
        rw [hreply] at hrecv
        rw [bind_of_error hrecv]
      | waiting =>
        rw [hreply] at hrecv
        rw [bind_of_error hrecv]
    · rw [require_bind_of_not hsent]
      dsimp only
      rw [if_neg hsent]

end Outcomes

section Balance

variable {α β : Type} {s s' : Locks}

def Balanced (t : Locks) (p : Action α) : Prop := ∀ a s, p t = (.ok a, s) → s = .nothing

variable {t : Locks} {p : Action α}

lemma balanced_pure (a : α) : Balanced .nothing (pure a) := by
  intro a' s h
  cases h
  rfl

lemma balanced_of_error {stop : Stop} (h : p t = (.error stop, s)) : Balanced t p := by
  intro a s' hret
  rw [h] at hret
  cases hret

lemma balanced_of_ok {a : α} (h : p t = (.ok a, s)) : Balanced t p ↔ s = .nothing := by
  constructor
  · intro hp
    exact hp a s h
  · rintro hs a' s' hret
    rw [h] at hret
    cases hret
    exact hs

lemma balanced_bind_of_ok {f : α → Action β} {a : α} (h : p t = (.ok a, s)) :
    Balanced t (p >>= f) ↔ Balanced s (f a) := by
  rw [Balanced, bind_of_ok h, Balanced]

lemma balanced_require_bind {c : Prop} [Decidable c] {stop : Stop} {f : Unit → Action β} :
    Balanced t (require c stop >>= f) ↔ (c → Balanced t (f ())) := by
  by_cases hc : c
  · rw [balanced_bind_of_ok (require_of hc stop t), forall_prop_of_true hc]
  · exact iff_of_true (balanced_of_error (require_bind_of_not hc)) fun h => absurd h hc

lemma balanced_map (f : α → β) :
    Balanced t (p >>= fun a => pure (f a)) ↔ Balanced t p := by
  rcases hp : p t with ⟨stop | a, s⟩
  · exact iff_of_true (balanced_of_error (bind_of_error hp)) (balanced_of_error hp)
  · rw [balanced_of_ok hp]
    exact balanced_of_ok (bind_of_ok hp)

lemma balanced_lock {hold : Hold} {f : Unit → Action β} :
    Balanced .nothing (lockWriteback hold >>= f) ↔ Balanced ⟨false, hold⟩ (f ()) :=
  balanced_bind_of_ok rfl

lemma balanced_unlock {hold : Hold} {f : Unit → Action β} :
    Balanced ⟨false, hold⟩ (unlockWriteback hold >>= f) ↔ Balanced .nothing (f ()) :=
  balanced_bind_of_ok (if_pos rfl)

lemma not_balanced_pure {hold : Hold} (hhold : hold ≠ .free) (a : α) :
    ¬Balanced ⟨false, hold⟩ (pure a) := by
  intro h
  exact hhold (congrArg Locks.writeback (h a _ rfl))

lemma catching_of_ok {clauses : List Exn} {x : Action α} {a : α} (h : x s = (.ok a, s')) :
    catching clauses x s = (.ok (some a), s') := by
  rw [catching, h]

lemma catching_of_mem {clauses : List Exn} {x : Action α} {e : Exn} (he : e ∈ clauses)
    (h : x s = (.error (.thrown e), s')) : catching clauses x s = (.ok none, s') := by
  rw [catching, h]
  exact if_pos he

lemma catching_of_not_mem {clauses : List Exn} {x : Action α} {e : Exn} (he : e ∉ clauses)
    (h : x s = (.error (.thrown e), s')) : catching clauses x s = (.error .ended, s') := by
  rw [catching, h]
  exact if_neg he

lemma catching_of_stop {clauses : List Exn} {x : Action α} {stop : Stop}
    (h : x s = (.error stop, s')) (hstop : ∀ e, stop ≠ .thrown e) :
    catching clauses x s = (.error stop, s') := by
  rw [catching, h]
  cases stop with
  | thrown e => exact absurd rfl (hstop e)
  | ended => rfl
  | waiting => rfl
  | undefined => rfl

lemma eq_ok_of_catching {clauses : List Exn} {x : Action α} {a : α}
    (h : catching clauses x s = (.ok (some a), s')) : x s = (.ok a, s') := by
  rw [catching] at h
  rcases hx : x s with ⟨stop | a', s''⟩
  · rw [hx] at h
    cases stop with
    | thrown e =>
      dsimp only at h
      split_ifs at h <;> cases h
    | ended => cases h
    | waiting => cases h
    | undefined => cases h
  · rw [hx] at h
    cases h
    rfl

lemma state_of_exchange {req : Request} {x : Exchange} {rest : List UInt8}
    (h : exchange req x .nothing = (.ok rest, s)) : s = .nothing := by
  rw [exchange_eq req x rfl] at h
  cases ho : x.outcome req with
  | accepted rest' =>
    rw [ho] at h
    cases h
    rfl
  | closed =>
    rw [ho] at h
    cases h
  | failed e =>
    rw [ho] at h
    cases h
  | waiting =>
    rw [ho] at h
    cases h

section Tried

variable {clauses : List Exn} {b : β} {next : α → Action β}

lemma balanced_of_thrown {t : Action α} {e : Exn} (h : t .nothing = (.error (.thrown e), s)) :
    Balanced .nothing (catching clauses t >>= afterTry b next) ↔ (e ∈ clauses → s = .nothing) := by
  by_cases he : e ∈ clauses
  · rw [forall_prop_of_true he]
    exact balanced_of_ok (bind_of_ok (catching_of_mem he h))
  · exact iff_of_true (balanced_of_error (bind_of_error (catching_of_not_mem he h)))
      fun hmem => absurd hmem he

def Keeps (p : Action α) : Prop :=
  ∀ s, (∀ a, p .nothing = (.ok a, s) → s = .nothing) ∧
    ∀ e, p .nothing = (.error (.thrown e), s) → s = .nothing

lemma keeps_throwing (r : Except Exn α) : Keeps (throwing r) := by
  intro s
  constructor
  · intro a h
    cases r with
    | ok a' =>
      cases h
      rfl
    | error e => cases h
  · intro e h
    cases r with
    | ok a => cases h
    | error e' =>
      cases h
      rfl

lemma balanced_tried (req : Request) (x : Exchange) {f : List UInt8 → Action α}
    (hf : ∀ rest, Keeps (f rest)) :
    Balanced .nothing (catching clauses (exchange req x >>= f) >>= afterTry b next) ↔
    x.Releases clauses req ∧ ∀ rest a, x.outcome req = .accepted rest →
      f rest .nothing = (.ok a, .nothing) → Balanced .nothing (next a) := by
  have hx : exchange req x .nothing = _ := exchange_eq req x rfl
  cases ho : x.outcome req with
  | accepted rest =>
    rw [ho] at hx
    have hreleases : x.Releases clauses req := by
      intro e _
      rw [ho]
      exact Outcome.noConfusion
    rw [and_iff_right hreleases]
    rcases hrest : f rest .nothing with ⟨stop | a, s⟩
    · have hrun : (exchange req x >>= f) .nothing = (.error stop, s) := by
        rw [bind_of_ok hx, hrest]
      refine iff_of_true ?_ ?_
      · cases stop with
        | thrown e => exact (balanced_of_thrown hrun).mpr fun _ => (hf rest s).2 e hrest
        | ended => exact balanced_of_error (bind_of_error (catching_of_stop hrun (by simp)))
        | waiting => exact balanced_of_error (bind_of_error (catching_of_stop hrun (by simp)))
        | undefined => exact balanced_of_error (bind_of_error (catching_of_stop hrun (by simp)))
      · rintro rest' a heq ha
        cases heq
        rw [hrest] at ha
        cases ha
    · obtain rfl : s = .nothing := (hf rest s).1 a hrest
      have hrun : (exchange req x >>= f) .nothing = (.ok a, .nothing) := by
        rw [bind_of_ok hx, hrest]
      rw [balanced_bind_of_ok (catching_of_ok hrun)]
      constructor
      · rintro h rest' a' heq ha
        cases heq
        rw [hrest] at ha
        cases ha
        exact h
      · intro h
        exact h rest a rfl hrest
  | closed =>
    rw [ho] at hx
    refine iff_of_true ((balanced_of_thrown (bind_of_error hx)).mpr fun _ => rfl) ⟨?_, ?_⟩
    · intro e _
      rw [ho]
      exact Outcome.noConfusion
    · rintro rest a heq
      cases heq
  | failed e =>
    rw [ho] at hx
    rw [balanced_of_thrown (bind_of_error hx)]
    constructor
    · intro h
      refine ⟨?_, fun rest a heq => Outcome.noConfusion heq⟩
      intro e' he' heq
      obtain rfl : e = e' := by simpa [ho] using heq
      exact absurd (h he') (by decide)
    · rintro ⟨h, -⟩ he
      exact absurd ho (h e he)
  | waiting =>
    rw [ho] at hx
    refine iff_of_true
      (balanced_of_error (bind_of_error (catching_of_stop (bind_of_error hx) (by simp)))) ⟨?_, ?_⟩
    · intro e _
      rw [ho]
      exact Outcome.noConfusion
    · rintro rest a heq
      cases heq

lemma balanced_fields (req : Request) (x : Exchange) (fields : List UInt8 → Except Exn α) :
    Balanced .nothing (catching clauses (exchange req x >>= fun rest => throwing (fields rest)) >>=
      afterTry b next) ↔
    x.Releases clauses req ∧ ∀ rest a, x.outcome req = .accepted rest → fields rest = .ok a →
      Balanced .nothing (next a) := by
  have hread : ∀ {rest : List UInt8} {a : α},
      throwing (fields rest) Locks.nothing = (.ok a, .nothing) ↔ fields rest = .ok a := by
    intro rest a
    cases fields rest <;> simp [throwing]
  refine (balanced_tried req x fun rest => keeps_throwing (fields rest)).trans ?_
  simp only [hread]

end Tried

lemma balanced_call (clauses : List Exn) (req : Request) (x : Exchange)
    (fields : List UInt8 → Except Exn α) (next : α → Action ℤ) :
    Balanced .nothing (call clauses req x fields next) ↔
      x.Releases clauses req ∧ ∀ rest a, x.outcome req = .accepted rest → fields rest = .ok a →
        Balanced .nothing (next a) :=
  balanced_fields req x fields

lemma balanced_call_pure (clauses : List Exn) (req : Request) (x : Exchange)
    (fields : List UInt8 → Except Exn α) (ret : α → ℤ) :
    Balanced .nothing (call clauses req x fields fun a => pure (ret a)) ↔ x.Releases clauses req := by
  rw [balanced_call, and_iff_left]
  intro rest a _ _
  exact balanced_pure (ret a)

lemma balanced_locally {hold : Hold} (hhold : hold ≠ .free) (done : Bool) (ret : ℤ) :
    Balanced .nothing (locally hold done ret) ↔ done = true := by
  rw [locally, balanced_lock]
  cases done with
  | false => exact iff_of_false (not_balanced_pure hhold _) Bool.false_ne_true
  | true =>
    rw [if_neg (by decide), balanced_unlock]
    exact iff_of_true (balanced_pure ret) rfl

lemma balanced_opening (req : Request) (x : Exchange) (opened : Bool) :
    Balanced .nothing (call allClauses req x uint64Field fun ret =>
      if ret.toInt64 < startFd then pure ret.toInt64.toInt32.toInt
      else locally .exclusive opened bfsSuccess) ↔
    x.Releases allClauses req ∧ (x.Grants req → opened = true) := by
  rw [balanced_call]
  refine and_congr_right fun _ => ?_
  constructor
  · rintro h ⟨rest, fh, hrest, hfh, hleast⟩
    have hnext := h rest fh hrest hfh
    rw [if_neg hleast] at hnext
    exact (balanced_locally (by decide) opened _).mp hnext
  · intro h rest fh hrest hfh
    by_cases hleast : fh.toInt64 < startFd
    · rw [if_pos hleast]
      exact balanced_pure _
    · rw [if_neg hleast, balanced_locally (by decide)]
      exact h ⟨rest, fh, hrest, hfh, hleast⟩

lemma balanced_bfsTruncate (path : Path) (fh : UInt64) (length : Int64) (x : Exchange)
    (truncated : Bool) :
    Balanced .nothing (bfsTruncate path fh length x truncated) ↔
      (3 ≤ fh → x.Releases allClauses (.truncate path fh length.toUInt64.toUInt32) ∧
        (x.Succeeds (.truncate path fh length.toUInt64.toUInt32) → truncated = true)) := by
  rw [bfsTruncate, balanced_require_bind, balanced_call]
  refine forall_congr' fun _ => and_congr_right fun _ => ?_
  constructor
  · rintro h ⟨rest, hrest, hret⟩
    have hnext := h rest 0 hrest hret
    rw [if_neg (not_not.mpr rfl)] at hnext
    exact (balanced_locally (by decide) truncated _).mp hnext
  · intro h rest ret hrest hret
    by_cases hzero : ret = 0
    · subst hzero
      rw [if_neg (not_not.mpr rfl), balanced_locally (by decide)]
      exact h ⟨rest, hrest, hret⟩
    · rw [if_pos hzero]
      exact balanced_pure _

lemma balanced_bfsRead (direct : Bool) (fh size off : UInt64) (cached : Option (Option ℕ))
    (x : Exchange) :
    Balanced .nothing (bfsRead direct fh size off cached x) ↔
      if direct then 3 ≤ fh → x.Releases allClauses (.read fh size off) else cached ≠ some none := by
  unfold bfsRead
  rw [balanced_lock]
  cases direct with
  | false =>
    rw [if_pos rfl, if_neg Bool.false_ne_true]
    match cached with
    | some (some br) => exact iff_of_true (balanced_unlock.mpr (balanced_pure _)) (by simp)
    | some none => exact iff_of_false (not_balanced_pure (by decide) _) (by simp)
    | none => exact iff_of_true (balanced_of_error rfl) (by simp)
  | true =>
    rw [if_neg (by decide), if_pos rfl, balanced_unlock, balanced_require_bind, balanced_call]
    refine forall_congr' fun _ => and_iff_left ?_
    rintro rest ⟨bytesRead, len⟩ _ _
    exact balanced_require_bind.mpr fun _ => balanced_pure _

lemma balanced_bfsRelease (fh : UInt64) (closed : Option Bool) (x : Exchange) :
    Balanced .nothing (bfsRelease fh closed x) ↔
      closed ≠ some false ∧ (3 ≤ fh → x.Releases allClauses (.release fh)) := by
  rw [bfsRelease, balanced_lock]
  by_cases hclosed : closed = some false
  · rw [if_pos hclosed]
    exact iff_of_false (not_balanced_pure (by decide) _) fun h => h.1 hclosed
  · rw [if_neg hclosed, balanced_unlock, balanced_require_bind, and_iff_right hclosed]
    exact forall_congr' fun _ => balanced_call_pure ..

lemma keeps_listing (data : Message) (entries : List UInt8 → Except Exn Unit) (rest : List UInt8) :
    Keeps (throwing (uint64Field rest) >>= fun numEnts =>
      recvMsgp data none (some (numEnts.toNat * (255 + 36) % 2^32)) >>= fun plain =>
        throwing (entries plain)) := by
  cases uint64Field rest with
  | error e => exact keeps_throwing (.error e)
  | ok numEnts =>
    have hrecv := recvMsgp_eq data none (some (numEnts.toNat * (255 + 36) % 2^32)) .nothing
    intro s
    rw [bind_of_ok (throwing_ok numEnts _)]
    cases ho : data.outcome none (some (numEnts.toNat * (255 + 36) % 2^32)) with
    | accepted plain =>
      rw [ho] at hrecv
      rw [bind_of_ok hrecv]
      exact keeps_throwing (entries plain) s
    | closed =>
      rw [ho] at hrecv
      rw [bind_of_error (hrecv.trans (bind_of_error rfl))]
      simp
    | failed e =>
      rw [ho] at hrecv
      rw [bind_of_error hrecv]
      exact keeps_throwing (α := Unit) (.error e) s
    | waiting =>
      rw [ho] at hrecv
      rw [bind_of_error hrecv]
      simp

lemma balanced_bfsReaddir (fh : UInt64) (x : Exchange) (data : Message)
    (entries : List UInt8 → Except Exn Unit) :
    Balanced .nothing (bfsReaddir fh x data entries) ↔
      (3 ≤ fh → x.Releases allClauses (.readdir fh)) := by
  rw [bfsReaddir, balanced_require_bind]
  refine forall_congr' fun _ => (balanced_tried _ x (keeps_listing data entries)).trans ?_
  exact and_iff_left fun _ _ _ _ => balanced_pure _

def SendsRelease (fh : UInt64) (xs : ℕ → Exchange) : List WriteOp → ℕ → Prop
  | [], _ => True
  | op::ops, i => (xs i).Releases allClauses (WriteOp.request fh op) ∧
    ∀ rest bytesWritten, (xs i).outcome (WriteOp.request fh op) = .accepted rest →
      uint64Field rest = .ok bytesWritten → ¬bytesWritten < UInt64.ofNat op.data.length →
        SendsRelease fh xs ops (i + 1)

lemma balanced_sendAll (fh : UInt64) (xs : ℕ → Exchange) (ops : List WriteOp) (i : ℕ) :
    Balanced .nothing (sendAll fh xs ops i) ↔ (3 ≤ fh → SendsRelease fh xs ops i) := by
  induction ops generalizing i with
  | nil => exact iff_of_true (balanced_pure true) fun _ => trivial
  | cons op ops ih =>
    rw [sendAll]
    by_cases hfh : 3 ≤ fh
    · have hrequire : (require (3 ≤ fh) Stop.ended >>= fun _ =>
          exchange (WriteOp.request fh op) (xs i) >>= fun rest => throwing (uint64Field rest)) =
          (exchange (WriteOp.request fh op) (xs i) >>= fun rest => throwing (uint64Field rest)) :=
        funext fun s => require_bind_of hfh
      rw [hrequire, balanced_fields, forall_prop_of_true hfh, SendsRelease]
      refine and_congr_right fun _ => forall_congr' fun rest => forall_congr' fun bytesWritten =>
        forall_congr' fun _ => forall_congr' fun _ => ?_
      by_cases hshort : bytesWritten < UInt64.ofNat op.data.length
      · rw [if_pos hshort]
        exact iff_of_true (balanced_pure false) fun h => absurd hshort h
      · rw [if_neg hshort, ih, forall_prop_of_true hfh, forall_prop_of_true hshort]
    · refine iff_of_true ?_ fun h => absurd h hfh
      exact balanced_of_error (bind_of_error
        (catching_of_stop (require_bind_of_not hfh) (by simp)))

lemma balanced_bfsWriteHelper (fuel : ℕ) (fh : UInt64) (io : LocalIo) (xs : ℕ → Exchange)
    (a : WriteArgs) (st : WbState) :
    Balanced .nothing (bfsWriteHelper fuel fh io xs a st) ↔
      if !a.directIo && !a.flush then io.pwrite ≠ none
      else (a.directIo = false → io.statOk = true) ∧
        ∀ s ok, stageLoopIo io.preadOk (stageEnv a st) fuel (stageStart a st) = some (s, ok) →
          ok = true ∧ (3 ≤ fh → SendsRelease fh xs (stagedOps a st s) 0) := by
  unfold bfsWriteHelper
  rw [balanced_lock]
  by_cases hbuffered : (!a.directIo && !a.flush) = true
  · rw [if_pos hbuffered, if_pos hbuffered]
    cases io.pwrite with
    | none => exact iff_of_false (not_balanced_pure (by decide) _) (by simp)
    | some wb =>
      refine iff_of_true (balanced_require_bind.mpr fun _ => balanced_unlock.mpr ?_) (by simp)
      exact balanced_pure _
  · rw [if_neg hbuffered, if_neg hbuffered]
    by_cases hstat : (!a.directIo && !io.statOk) = true
    · rw [if_pos hstat]
      refine iff_of_false (not_balanced_pure (by decide) _) ?_
      rintro ⟨h, -⟩
      simp_all
    · rw [if_neg hstat, and_iff_right (by simpa using hstat)]
      rcases hloop : stageLoopIo io.preadOk (stageEnv a st) fuel (stageStart a st) with
        _ | ⟨s, _ | _⟩
      · exact iff_of_true (balanced_of_error rfl) (by simp)
      · refine iff_of_false (not_balanced_pure (by decide) _) ?_
        intro h
        exact Bool.false_ne_true (h s false rfl).1
      · dsimp only
        rw [balanced_unlock, balanced_map, balanced_sendAll]
        constructor
        · rintro h s' ok heq
          cases heq
          exact ⟨rfl, h⟩
        · intro h
          exact (h s true rfl).2

lemma balanced_bfsInit (connected doMkfs spawned direct : Bool) (x : Exchange) :
    Balanced .nothing (bfsInit connected doMkfs spawned direct x) ↔
      (connected = true → x.Releases noCrypto (if doMkfs then .initMkfs else .init)) := by
  rw [bfsInit, balanced_require_bind]
  refine forall_congr' fun _ => (balanced_bind_of_ok (update_apply _ _)).trans ?_
  refine (balanced_call ..).trans (and_iff_left ?_)
  intro rest ret _ _
  by_cases hret : ret ≠ bfsSuccess
  · rw [if_pos hret]
    exact balanced_pure _
  · rw [if_neg hret, balanced_require_bind]
    exact fun _ => balanced_pure _

lemma next_of_call {clauses : List Exn} {req : Request} {x : Exchange}
    {fields : List UInt8 → Except Exn α} {next : α → Action ℤ} {ret : ℤ}
    (h : call clauses req x fields next .nothing = (.ok ret, s)) (hret : ret ≠ bfsFailure) :
    ∃ a, next a .nothing = (.ok ret, s) := by
  obtain ⟨r, s₁, hcatch, hnext⟩ := bind_eq_ok.mp h
  cases r with
  | none =>
    cases hnext
    exact absurd rfl hret
  | some a =>
    obtain ⟨rest, s₂, hexchange, hfields⟩ := bind_eq_ok.mp (eq_ok_of_catching hcatch)
    obtain rfl := state_of_exchange hexchange
    obtain rfl : s₁ = .nothing := (keeps_throwing (fields rest) s₁).1 a hfields
    exact ⟨a, hnext⟩

lemma nothing_of_bfsCreate {path : Path} {mode : UInt32} {x : Exchange} {opened : Bool}
    (h : bfsCreate path mode x opened .nothing = (.ok bfsSuccess, s)) : s = .nothing := by
  obtain ⟨fh, hnext⟩ := next_of_call h (by decide)
  by_cases hleast : fh.toInt64 < startFd
  · rw [if_pos hleast] at hnext
    exact (congrArg Prod.snd hnext).symm
  · rw [if_neg hleast] at hnext
    cases opened with
    | false => cases hnext
    | true => exact (balanced_locally (by decide) true _).mpr rfl _ s hnext

lemma balanced_bfsFallocate (fuel : ℕ) (path : Path) (mode : UInt32) (x : Exchange)
    (opened allocated : Bool) (fh : UInt64) (io : LocalIo) (xs : ℕ → Exchange) (a : WriteArgs)
    (st : WbState) :
    Balanced .nothing (bfsFallocate fuel path mode x opened allocated fh io xs a st) ↔
      Balanced .nothing (bfsCreate path mode x opened) ∧
        (bfsCreate path mode x opened .nothing = (.ok bfsSuccess, .nothing) → allocated = true →
          Balanced .nothing (bfsWriteHelper fuel fh io xs a st)) := by
  unfold bfsFallocate
  rcases hcreate : bfsCreate path mode x opened .nothing with ⟨stop | ret, s⟩
  · exact iff_of_true (balanced_of_error (bind_of_error hcreate))
      ⟨balanced_of_error hcreate, by simp⟩
  · rw [balanced_bind_of_ok hcreate, balanced_of_ok hcreate]
    by_cases hret : ret = bfsSuccess
    · subst hret
      obtain rfl := nothing_of_bfsCreate hcreate
      rw [if_neg (not_not.mpr rfl), and_iff_right rfl, forall_prop_of_true rfl]
      cases allocated with
      | false => exact iff_of_true (balanced_pure _) fun h => absurd h Bool.false_ne_true
      | true => rw [if_neg (by decide), balanced_map, forall_prop_of_true rfl]
    · rw [if_pos hret]
      refine (balanced_of_ok (pure_apply _ _)).trans (and_iff_left ?_).symm
      intro heq
      cases heq
      exact absurd rfl hret

end Balance

section Calls

/-- The calls of the client, and the background thread that writes chunks back, with the outcomes of
everything they ask for. -/
inductive ClientCall
  | getattr (path : Path) (x : Exchange)
  | mkdir (path : Path) (mode : UInt32) (x : Exchange)
  | unlink (path : Path) (x : Exchange)
  | rmdir (path : Path) (x : Exchange)
  | rename (fr dest : Path) (x : Exchange)
  | chmod (path : Path) (mode : UInt32) (x : Exchange)
  | opendir (path : Path) (x : Exchange)
  | openFile (path : Path) (x : Exchange) (opened : Bool)
  | create (path : Path) (mode : UInt32) (x : Exchange) (opened : Bool)
  | truncate (path : Path) (fh : UInt64) (length : Int64) (x : Exchange) (truncated : Bool)
  | read (fh size off : UInt64) (cached : Option (Option ℕ)) (x : Exchange)
  | write (fh : UInt64) (offset : ℕ) (buf : List UInt8) (io : LocalIo) (xs : ℕ → Exchange)
      (st : WbState)
  | flush (fh : UInt64) (io : LocalIo) (xs : ℕ → Exchange) (st : WbState)
  | fsync (fh : UInt64) (io : LocalIo) (xs : ℕ → Exchange) (st : WbState)
  | background (fh : UInt64) (io : LocalIo) (xs : ℕ → Exchange) (st : WbState)
  | release (fh : UInt64) (closed : Option Bool) (x : Exchange)
  | releasedir (fh : UInt64) (closed : Option Bool) (x : Exchange)
  | readdir (fh : UInt64) (x : Exchange) (data : Message) (entries : List UInt8 → Except Exn Unit)
  | init (connected doMkfs spawned : Bool) (x : Exchange)
  | destroy (x : Exchange)
  | fallocate (path : Path) (mode : UInt32) (x : Exchange) (opened allocated : Bool) (fh : UInt64)
      (buf : List UInt8) (io : LocalIo) (xs : ℕ → Exchange) (st : WbState)

namespace ClientCall

/-- The call with `direct_io_flag`; the fuel is for the staging loop. -/
def run (direct : Bool) (fuel : ℕ) : ClientCall → Action ℤ
  | getattr path x => bfsGetattr path x
  | mkdir path mode x => bfsMkdir path mode x
  | unlink path x => bfsUnlink path x
  | rmdir path x => bfsRmdir path x
  | rename fr dest x => bfsRename fr dest x
  | chmod path mode x => bfsChmod path mode x
  | opendir path x => bfsOpendir path x
  | openFile path x opened => bfsOpen path x opened
  | create path mode x opened => bfsCreate path mode x opened
  | truncate path fh length x truncated => bfsTruncate path fh length x truncated
  | read fh size off cached x => bfsRead direct fh size off cached x
  | write fh offset buf io xs st => bfsWriteHelper fuel fh io xs ⟨buf, offset, direct, false, false⟩ st
  | flush fh io xs st => bfsWriteHelper fuel fh io xs (LocalCache.flushArgs direct false) st
  | fsync fh io xs st => bfsWriteHelper fuel fh io xs (LocalCache.flushArgs direct false) st
  | background fh io xs st => bfsWriteHelper fuel fh io xs (LocalCache.flushArgs direct true) st
  | release fh closed x => bfsRelease fh closed x
  | releasedir fh closed x => bfsRelease fh closed x
  | readdir fh x data entries => bfsReaddir fh x data entries
  | init connected doMkfs spawned x => bfsInit connected doMkfs spawned direct x
  | destroy x => bfsDestroy x
  | fallocate path mode x opened allocated fh buf io xs st =>
    bfsFallocate fuel path mode x opened allocated fh io xs ⟨buf, 0, direct, false, false⟩ st

def Balanced (direct : Bool) (c : ClientCall) : Prop :=
  ∀ fuel, Locking.Balanced .nothing (c.run direct fuel)

def HelperReleases (fh : UInt64) (io : LocalIo) (xs : ℕ → Exchange) (a : WriteArgs) (st : WbState) :
    Prop :=
  if !a.directIo && !a.flush then io.pwrite ≠ none
  else (a.directIo = false → io.statOk = true) ∧
    ∀ fuel s ok, stageLoopIo io.preadOk (stageEnv a st) fuel (stageStart a st) = some (s, ok) →
      ok = true ∧ (3 ≤ fh → SendsRelease fh xs (stagedOps a st s) 0)

def Releases (direct : Bool) : ClientCall → Prop
  | getattr path x => x.Releases allClauses (.getattr path)
  | mkdir path mode x => x.Releases allClauses (.mkdir path mode)
  | unlink path x => x.Releases allClauses (.unlink path)
  | rmdir path x => x.Releases allClauses (.rmdir path)
  | rename fr dest x => x.Releases allClauses (.rename fr dest)
  | chmod path mode x => x.Releases allClauses (.chmod path mode)
  | opendir path x => x.Releases allClauses (.opendir path)
  | openFile path x opened =>
    x.Releases allClauses (.openFile path) ∧ (x.Grants (.openFile path) → opened = true)
  | create path mode x opened =>
    x.Releases allClauses (.create path mode) ∧ (x.Grants (.create path mode) → opened = true)
  | truncate path fh length x truncated =>
    3 ≤ fh → x.Releases allClauses (.truncate path fh length.toUInt64.toUInt32) ∧
      (x.Succeeds (.truncate path fh length.toUInt64.toUInt32) → truncated = true)
  | read fh size off cached x =>
    if direct then 3 ≤ fh → x.Releases allClauses (.read fh size off) else cached ≠ some none
  | write fh offset buf io xs st => HelperReleases fh io xs ⟨buf, offset, direct, false, false⟩ st
  | flush fh io xs st => HelperReleases fh io xs (LocalCache.flushArgs direct false) st
  | fsync fh io xs st => HelperReleases fh io xs (LocalCache.flushArgs direct false) st
  | background fh io xs st => HelperReleases fh io xs (LocalCache.flushArgs direct true) st
  | release fh closed x => closed ≠ some false ∧ (3 ≤ fh → x.Releases allClauses (.release fh))
  | releasedir fh closed x => closed ≠ some false ∧ (3 ≤ fh → x.Releases allClauses (.release fh))
  | readdir fh x _ _ => 3 ≤ fh → x.Releases allClauses (.readdir fh)
  | init connected doMkfs _ x =>
    connected = true → x.Releases noCrypto (if doMkfs then .initMkfs else .init)
  | destroy x => x.Releases noCrypto .destroy
  | fallocate path mode x opened allocated fh buf io xs st =>
    (x.Releases allClauses (.create path mode) ∧ (x.Grants (.create path mode) → opened = true)) ∧
      (bfsCreate path mode x opened .nothing = (.ok bfsSuccess, .nothing) → allocated = true →
        HelperReleases fh io xs ⟨buf, 0, direct, false, false⟩ st)

end ClientCall

lemma balanced_helper (fh : UInt64) (io : LocalIo) (xs : ℕ → Exchange) (a : WriteArgs) (st : WbState) :
    (∀ fuel, Balanced .nothing (bfsWriteHelper fuel fh io xs a st)) ↔
      ClientCall.HelperReleases fh io xs a st := by
  simp only [balanced_bfsWriteHelper, ClientCall.HelperReleases]
  by_cases hbuffered : (!a.directIo && !a.flush) = true
  · simp only [if_pos hbuffered, forall_const]
  · simp only [if_neg hbuffered, forall_and, forall_const]

/-- A call holds neither lock when it returns iff no exchange fails while `mux_lock` is held, other than
by a closed connection, and no local call fails under `writeback_lock`. -/
theorem locks_released_iff (direct : Bool) (c : ClientCall) : c.Balanced direct ↔ c.Releases direct := by
  cases c with
  | getattr path x => exact forall_const _ |>.trans (balanced_call_pure ..)
  | mkdir path mode x => exact forall_const _ |>.trans (balanced_call_pure ..)
  | unlink path x => exact forall_const _ |>.trans (balanced_call_pure ..)
  | rmdir path x => exact forall_const _ |>.trans (balanced_call_pure ..)
  | rename fr dest x => exact forall_const _ |>.trans (balanced_call_pure ..)
  | chmod path mode x => exact forall_const _ |>.trans (balanced_call_pure ..)
  | opendir path x => exact forall_const _ |>.trans (balanced_call_pure ..)
  | openFile path x opened => exact forall_const _ |>.trans (balanced_opening ..)
  | create path mode x opened => exact forall_const _ |>.trans (balanced_opening ..)
  | truncate path fh length x truncated => exact forall_const _ |>.trans (balanced_bfsTruncate ..)
  | read fh size off cached x => exact forall_const _ |>.trans (balanced_bfsRead ..)
  | write fh offset buf io xs st => exact balanced_helper ..
  | flush fh io xs st => exact balanced_helper ..
  | fsync fh io xs st => exact balanced_helper ..
  | background fh io xs st => exact balanced_helper ..
  | release fh closed x => exact forall_const _ |>.trans (balanced_bfsRelease ..)
  | releasedir fh closed x => exact forall_const _ |>.trans (balanced_bfsRelease ..)
  | readdir fh x data entries => exact forall_const _ |>.trans (balanced_bfsReaddir ..)
  | init connected doMkfs spawned x => exact forall_const _ |>.trans (balanced_bfsInit ..)
  | destroy x => exact forall_const _ |>.trans (balanced_call_pure ..)
  | fallocate path mode x opened allocated fh buf io xs st =>
    refine (forall_congr' fun fuel => balanced_bfsFallocate fuel ..).trans ?_
    rw [forall_and, forall_const]
    refine and_congr (balanced_opening ..) ?_
    rw [← balanced_helper]
    exact ⟨fun h hcreate halloc fuel => h fuel hcreate halloc,
      fun h fuel hcreate halloc => h hcreate halloc fuel⟩

/-- A reply with the header of an `unlink` in place of that of a `mkdir`. -/
def wrongReply : Exchange :=
  ⟨.ok (), true, [.received 60], .ok (header .fromServer .unlink (LittleEndian.u32 0))⟩

/-- After a reply of the wrong type the connection lock is kept, and a failed local `open` leaves the
write-back lock locked. -/
theorem locks_kept :
    (ClientCall.mkdir [47, 97] 0 wrongReply).run false 0 .nothing = (.ok (-1), ⟨true, .free⟩) ∧
      (ClientCall.openFile [47, 97] ⟨.ok (), true, [.received 60],
        .ok (header .fromServer .openFile (LittleEndian.u64 3))⟩ false).run false 0 .nothing =
          (.ok (-1), ⟨false, .exclusive⟩) := by
  decide +kernel

end Calls

end Bfs.Client.Locking
