import Bfs.Rpc.Session

/-! The way of an error from an operation of the server to the result of the client's call: the result
field of the reply, the test of the client, and what the caller gets. -/
namespace Bfs.Rpc
open Fallible LittleEndian

section Server

/-- How an operation of the server fails: with an exception that is answered, or with a code of an
lwext4 wrapper. -/
inductive Failure
  | accessDenied
  | requestFailed
  | code (r : Int32)
  deriving DecidableEq

def eperm : Int32 := 1

def Failure.ret : Failure → Int32
  | .accessDenied => -eperm
  | .requestFailed => -1
  | .code r => r

/-- What the result field of a reply is for the client: a code of 32 or 64 bits, a handle that must not
be less than a bound, or a number of bytes. -/
inductive ReplyKind
  | code32
  | code64
  | handle (least : Int64)
  | bytesRead
  | bytesWritten (size : UInt64)
  deriving DecidableEq

/-- `START_FD` and `ROOT_INO` in the tests of the client. -/
def startFd : Int64 := 3
def rootIno : Int64 := 2

def Request.kind : Request → Option ReplyKind
  | .mkdir _ _ => some .code32
  | .unlink _ => some .code32
  | .rmdir _ => some .code32
  | .rename _ _ => some .code32
  | .chmod _ _ => some .code64
  | .truncate _ _ _ => some .code64
  | .openFile _ => some (.handle startFd)
  | .create _ _ => some (.handle startFd)
  | .opendir _ => some (.handle rootIno)
  | .read _ _ _ => some .bytesRead
  | .write _ size _ _ => some (.bytesWritten size)
  | _ => none

/-- The result field of a failed operation. In the handlers with 64 bits, `ret` is unsigned. -/
def ReplyKind.field (k : ReplyKind) (r : Int32) : List UInt8 :=
  match k with
  | .code32 => u32 r.toUInt32
  | _ => u64 r.toInt64.toUInt64

def failureReply (req : Request) (k : ReplyKind) (f : Failure) (buf : List UInt8) : List UInt8 :=
  header .fromServer req.op (k.field f.ret ++ if k = .bytesRead then buf else [])

end Server

section Client

/-- How a call ends: with a result, a handle for the caller and bytes copied to the buffer of the
caller; a write that goes on has counted bytes; a copy that leaves the message is undefined. -/
inductive CallEnd
  | returns (ret : Int32) (fh : Option UInt64) (copied : List UInt8)
  | counts (n : UInt64)
  | undefined
  deriving DecidableEq

/-- `BFS_FAILURE`. -/
def CallEnd.failure : CallEnd := .returns (-1) none []

/-- The code behind `recv_msgp`, on the message behind its header. -/
def ReplyKind.finish (k : ReplyKind) (rest : List UInt8) : CallEnd :=
  match k with
  | .code32 =>
    match takeU32 rest with
    | .error _ => .failure
    | .ok (ret, _) => .returns ret.toInt32 none []
  | .code64 =>
    match takeU64 rest with
    | .error _ => .failure
    | .ok (ret, _) => .returns ret.toInt64.toInt32 none []
  | .handle least =>
    match takeU64 rest with
    | .error _ => .failure
    | .ok (ret, _) =>
      if ret.toInt64 < least then .returns ret.toInt64.toInt32 none [] else .returns 0 (some ret) []
  | .bytesRead =>
    match takeU64 rest with
    | .error _ => .failure
    | .ok (n, data) =>
      if n.toNat ≤ data.length then .returns n.toUInt32.toInt32 none (data.take n.toNat)
      else .undefined
  | .bytesWritten size =>
    match takeU64 rest with
    | .error _ => .failure
    | .ok (n, _) => if n < size then .failure else .counts size

/-- The end of a call when its reply has come. A message that `recv_msgp` does not accept ends the
call, too. -/
def Request.finish (req : Request) (k : ReplyKind) (plain : List UInt8) : CallEnd :=
  if req.accepts plain then
    match takeHeader plain with
    | .error _ => .failure
    | .ok (_, rest) => k.finish rest
  else .failure

def CallEnd.Failed : CallEnd → Prop
  | .returns ret fh copied => ret < 0 ∧ fh = none ∧ copied = []
  | _ => False

end Client

section Values

lemma toNat_signExtended (r : Int32) :
    (r.toInt64.toUInt64.toNat : ℤ) = if r < 0 then r.toInt + 2^64 else r.toInt := by
  have hint : r.toInt64.toInt = r.toInt := Int32.toInt_toInt64 r
  have hcond := BitVec.toInt_eq_toNat_cond r.toInt64.toBitVec
  have hlt := r.toInt64.toUInt64.toBitVec.isLt
  have hnat : r.toInt64.toUInt64.toNat = r.toInt64.toBitVec.toNat := rfl
  have hval : r.toInt64.toInt = r.toInt64.toBitVec.toInt := rfl
  have hneg : r < 0 ↔ r.toInt < 0 := Int32.lt_iff_toInt_lt
  have hlo := r.le_toInt
  have hhi := r.toInt_lt
  rw [hnat]
  by_cases h : r.toInt < 0
  · rw [if_pos (hneg.mpr h)]
    split_ifs at hcond <;> omega
  · rw [if_neg (fun hr => h (hneg.mp hr))]
    split_ifs at hcond <;> omega

end Values

section Reaching

variable {req : Request} {k : ReplyKind} (f : Failure) (buf : List UInt8)

lemma accepts_failureReply (hk : req.kind = some k) : req.accepts (failureReply req k f buf) = true := by
  cases req <;> simp only [Request.kind, Option.some.injEq, reduceCtorEq] at hk <;> subst hk <;>
    simp [Request.accepts, failureReply, Request.op, Request.replyOp, Request.replyLen,
      ReplyKind.field]

lemma finish_failureReply (hk : req.kind = some k) :
    req.finish k (failureReply req k f buf) =
      k.finish (k.field f.ret ++ if k = .bytesRead then buf else []) := by
  rw [Request.finish, if_pos (accepts_failureReply f buf hk), failureReply, takeHeader_header]

lemma failed_returns {ret : Int32} : (CallEnd.returns ret none []).Failed ↔ ret < 0 := by
  simp [CallEnd.Failed]

lemma failed_failure : CallEnd.failure.Failed := by
  rw [CallEnd.failure, failed_returns]
  decide

variable (r : Int32) (rest : List UInt8)

lemma failed_code32 : (ReplyKind.code32.finish (ReplyKind.code32.field r ++ rest)).Failed ↔ r < 0 := by
  simp only [ReplyKind.finish, ReplyKind.field, takeU32_append, failed_returns]
  simp

lemma failed_code64 : (ReplyKind.code64.finish (ReplyKind.code64.field r ++ rest)).Failed ↔ r < 0 := by
  simp only [ReplyKind.finish, ReplyKind.field, takeU64_append, failed_returns]
  simp

lemma failed_handle {least : Int64} (hleast : 0 < least) :
    ((ReplyKind.handle least).finish ((ReplyKind.handle least).field r ++ rest)).Failed ↔ r < 0 := by
  simp only [ReplyKind.finish, ReplyKind.field, takeU64_append]
  split_ifs with h
  · rw [failed_returns]
    simp
  · have hpos : ¬r < 0 := by
      intro hr
      apply h
      rw [Int64.toInt64_toUInt64, Int64.lt_iff_toInt_lt, Int32.toInt_toInt64]
      exact lt_trans (Int32.lt_iff_toInt_lt.mp hr) (Int64.lt_iff_toInt_lt.mp hleast)
    simp [CallEnd.Failed, hpos]

lemma not_failed_bytesRead (hr : r ≠ 0) :
    ¬(ReplyKind.bytesRead.finish (ReplyKind.bytesRead.field r ++ rest)).Failed := by
  simp only [ReplyKind.finish, ReplyKind.field, takeU64_append]
  split_ifs with h
  · rintro ⟨-, -, hcopied⟩
    have hlen := congrArg List.length hcopied
    rw [List.length_take, min_eq_left h, List.length_nil] at hlen
    have hzero := toNat_signExtended r
    rw [hlen] at hzero
    have hlo := r.le_toInt
    apply hr
    apply Int32.toInt.inj
    split_ifs at hzero <;> simp <;> omega
  · exact id

lemma failed_bytesWritten (size : UInt64) :
    ((ReplyKind.bytesWritten size).finish ((ReplyKind.bytesWritten size).field r ++ rest)).Failed ↔
      r.toInt64.toUInt64 < size := by
  simp only [ReplyKind.finish, ReplyKind.field, takeU64_append]
  split_ifs with h
  · exact iff_of_true failed_failure h
  · exact iff_of_false id h

end Reaching

/-- The codes that a caller sees as failures: negative ones, but for a read none at all, and for a write
only those that are less than the size of the request as unsigned numbers. -/
def ReplyKind.Reports (k : ReplyKind) (r : Int32) : Prop :=
  match k with
  | .bytesRead => False
  | .bytesWritten size => r.toInt64.toUInt64 < size
  | _ => r < 0

/-- For every call and every failure of its operation, the caller gets a negative result and nothing
else if and only if the code of the failure is one that the call can report. -/
theorem error_reaches_caller_iff {req : Request} {k : ReplyKind} (hk : req.kind = some k)
    {f : Failure} (hf : f.ret ≠ 0) (buf : List UInt8) :
    (req.finish k (failureReply req k f buf)).Failed ↔ k.Reports f.ret := by
  rw [finish_failureReply f buf hk]
  cases k with
  | code32 => exact failed_code32 _ _
  | code64 => exact failed_code64 _ _
  | handle least =>
    refine failed_handle _ _ ?_
    cases req <;> simp only [Request.kind, Option.some.injEq, reduceCtorEq, ReplyKind.handle.injEq]
      at hk <;> subst hk <;> decide
  | bytesRead => exact iff_of_false (not_failed_bytesRead _ _ hf) id
  | bytesWritten size => exact failed_bytesWritten _ _ size

theorem error_reaches_caller_mkdir :
    Failure.accessDenied.ret ≠ 0 ∧
      ((Request.mkdir [47, 97] 0).finish .code32
        (failureReply (.mkdir [47, 97] 0) .code32 .accessDenied [])).Failed :=
  ⟨by decide, (error_reaches_caller_iff rfl (by decide) []).mpr (show Failure.accessDenied.ret < 0 by decide)⟩

/-- A read of 16 bytes that the server refuses: the client copies as many bytes as the code says. -/
theorem refused_read_copies :
    (Request.read 3 16 0).kind = some .bytesRead ∧ Failure.accessDenied.ret ≠ 0 ∧
      (Request.read 3 16 0).finish .bytesRead
        (failureReply (.read 3 16 0) .bytesRead .accessDenied (List.replicate 16 0)) = .undefined ∧
      ¬((Request.read 3 16 0).finish .bytesRead
        (failureReply (.read 3 16 0) .bytesRead .accessDenied (List.replicate 16 0))).Failed := by
  have hend : (Request.read 3 16 0).finish .bytesRead
      (failureReply (.read 3 16 0) .bytesRead .accessDenied (List.replicate 16 0)) = .undefined := by
    decide +kernel
  refine ⟨rfl, by decide, hend, ?_⟩
  rw [hend]
  exact id

end Bfs.Rpc
