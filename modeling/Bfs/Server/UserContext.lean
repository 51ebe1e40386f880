import Bfs.Rpc.Message

/-! The server's user contexts, and `ecall_bfs_handle_in_msg`, which finds the context of a
connection, decrypts a message under it and calls the handler of the operation. -/
namespace Bfs.Server
open Fallible
open Bfs.Fs (Iv)
open Bfs.Device (DevErr PacketKey encryptData decryptData)
open Bfs.Rpc

/-- `BfsUserContext`; the key is the same in all of them. -/
structure UserContext where
  uid : UInt32
  userSendSeq : UInt32
  userRecvSeq : UInt32
  deriving DecidableEq, Repr

def UserContext.new (uid : UInt32) : UserContext := ⟨uid, 0, 0⟩

abbrev Conn := UInt64

/-- `BfsACLayer`. -/
structure ACLayer where
  userContexts : Conn → Option UserContext
  nextUid : UInt32

def firstUid : ℕ := 1001

def ACLayer.init : ACLayer := ⟨fun _ => none, UInt32.ofNat firstUid⟩

def ACLayer.setContext (l : ACLayer) (conn : Conn) (usr : UserContext) : ACLayer :=
  { l with userContexts := Function.update l.userContexts conn (some usr) }

/-- `BfsACLayer::add_user_context` for a connection that has no context. -/
def ACLayer.addUserContext (l : ACLayer) (conn : Conn) : ACLayer :=
  { l.setContext conn (UserContext.new l.nextUid) with nextUid := l.nextUid + 1 }

@[simp] lemma ACLayer.setContext_self (l : ACLayer) (conn : Conn) (usr : UserContext) :
    (l.setContext conn usr).userContexts conn = some usr := Function.update_self ..

lemma ACLayer.setContext_of_ne (l : ACLayer) {conn c : Conn} (usr : UserContext) (h : c ≠ conn) :
    (l.setContext conn usr).userContexts c = l.userContexts c := Function.update_of_ne h ..

@[simp] lemma ACLayer.setContext_nextUid (l : ACLayer) (conn : Conn) (usr : UserContext) :
    (l.setContext conn usr).nextUid = l.nextUid := rfl

@[simp] lemma ACLayer.setContext_setContext (l : ACLayer) (conn : Conn) (usr usr' : UserContext) :
    (l.setContext conn usr).setContext conn usr' = l.setContext conn usr' := by
  simp [ACLayer.setContext]

lemma ACLayer.setContext_eq_self {l : ACLayer} {conn : Conn} {usr : UserContext}
    (h : l.userContexts conn = some usr) : l.setContext conn usr = l := by
  simp [ACLayer.setContext, ← h]

/-- How the processing of a message ends: `BFS_SUCCESS`, `BFS_FAILURE`, the end of the process by an
exception that nobody catches or by an assertion, or undefined behaviour. -/
inductive Status
  | success
  | failure
  | terminated
  | undefined
  deriving DecidableEq, Repr

def Status.returns : Status → Bool
  | .success => true
  | .failure => true
  | _ => false

structure Handled (σ : Type) where
  replies : List (List UInt8)
  status : Status
  fs : σ

abbrev Handler (σ : Type) := UInt32 → OpType → List UInt8 → σ → Handled σ

structure State (σ : Type) where
  acl : ACLayer
  fs : σ

/-- What the server does with a message: the status, the packets sent, the message given to a handler
and the replies of the handler, and the new state. -/
structure Reaction (σ : Type) where
  status : Status
  sent : List (List UInt8)
  dispatched : Option (List UInt8 × List (List UInt8))
  state : State σ

def decryptStatus : DevErr → Status
  | .macFailure => .failure
  | .badPadding _ => .failure
  | _ => .terminated

def sealReplies (A : PacketKey) (ivs : ℕ → Iv) (seq : UInt32) (replies : List (List UInt8)) :
    List (List UInt8) :=
  replies.mapIdx fun i reply => encryptData A (ivs i) (seq + UInt32.ofNat i) reply

section HandleInMsg

variable {σ : Type} (A : PacketKey) (handle : Handler σ)

/-- The part of `ecall_bfs_handle_in_msg` behind the decryption, for a context that has counted the
message. -/
def dispatch (ivs : ℕ → Iv) (s : State σ) (conn : Conn) (usr : UserContext) (plain : List UInt8) :
    Reaction σ :=
  let s := { s with acl := s.acl.setContext conn usr }
  match takeHeader plain with
  | .error _ => ⟨.terminated, [], none, s⟩
  | .ok ((mtype, otype), rest) =>
    if mtype ≠ MsgType.toServer.code then ⟨.failure, [], none, s⟩
    else
      match OpType.ofCode otype with
      | none => ⟨.failure, [], none, s⟩
      | some op =>
        let h := handle usr.uid op rest s.fs
        let usr' := { usr with userSendSeq := usr.userSendSeq + UInt32.ofNat h.replies.length }
        ⟨h.status, sealReplies A ivs usr.userSendSeq h.replies, some (plain, h.replies),
          ⟨s.acl.setContext conn usr', h.fs⟩⟩

/-- `ecall_bfs_handle_in_msg`. A connection without context is registered, and then has to come
without a message; with a context, the message is dereferenced. -/
def handleInMsg (ivs : ℕ → Iv) (s : State σ) (conn : Conn) (pkt : Option (List UInt8)) :
    Reaction σ :=
  match s.acl.userContexts conn with
  | none =>
    ⟨if pkt.isSome then .failure else .success, [], none,
      { s with acl := s.acl.addUserContext conn }⟩
  | some usr =>
    match pkt with
    | none => ⟨.undefined, [], none, s⟩
    | some pkt =>
      match decryptData A usr.userRecvSeq pkt with
      | .error e => ⟨decryptStatus e, [], none, s⟩
      | .ok plain =>
        dispatch A handle ivs s conn { usr with userRecvSeq := usr.userRecvSeq + 1 } plain

variable {A handle} {s : State σ} {conn : Conn} {usr : UserContext}

lemma handleInMsg_new (h : s.acl.userContexts conn = none) (ivs : ℕ → Iv) :
    handleInMsg A handle ivs s conn none =
      ⟨.success, [], none, { s with acl := s.acl.addUserContext conn }⟩ := by
  simp [handleInMsg, h]

lemma handleInMsg_null (h : s.acl.userContexts conn = some usr) (ivs : ℕ → Iv) :
    handleInMsg A handle ivs s conn none = ⟨.undefined, [], none, s⟩ := by
  simp [handleInMsg, h]

lemma handleInMsg_error (h : s.acl.userContexts conn = some usr) {pkt : List UInt8} {e : DevErr}
    (hdec : decryptData A usr.userRecvSeq pkt = .error e) (ivs : ℕ → Iv) :
    handleInMsg A handle ivs s conn (some pkt) = ⟨decryptStatus e, [], none, s⟩ := by
  simp [handleInMsg, h, hdec]

lemma handleInMsg_ok (h : s.acl.userContexts conn = some usr) {pkt plain : List UInt8}
    (hdec : decryptData A usr.userRecvSeq pkt = .ok plain) (ivs : ℕ → Iv) :
    handleInMsg A handle ivs s conn (some pkt) =
      dispatch A handle ivs s conn { usr with userRecvSeq := usr.userRecvSeq + 1 } plain := by
  simp [handleInMsg, h, hdec]

lemma dispatch_acl (ivs : ℕ → Iv) (s : State σ) (conn : Conn) (usr : UserContext)
    (plain : List UInt8) : ∃ usr', usr'.uid = usr.uid ∧
      (dispatch A handle ivs s conn usr plain).state.acl = s.acl.setContext conn usr' := by
  unfold dispatch
  dsimp only
  split
  · exact ⟨usr, rfl, rfl⟩
  · split_ifs
    · exact ⟨usr, rfl, rfl⟩
    · split
      · exact ⟨usr, rfl, rfl⟩
      · refine ⟨_, ?_, ACLayer.setContext_setContext ..⟩
        rfl

variable (A handle) in
lemma handleInMsg_acl (h : s.acl.userContexts conn = some usr) (ivs : ℕ → Iv) (pkt : List UInt8) :
    ∃ usr', usr'.uid = usr.uid ∧
      (handleInMsg A handle ivs s conn (some pkt)).state.acl = s.acl.setContext conn usr' := by
  cases hdec : decryptData A usr.userRecvSeq pkt with
  | error e =>
    rw [handleInMsg_error h hdec]
    exact ⟨usr, rfl, (ACLayer.setContext_eq_self h).symm⟩
  | ok plain =>
    rw [handleInMsg_ok h hdec]
    exact dispatch_acl ivs s conn { usr with userRecvSeq := usr.userRecvSeq + 1 } plain

end HandleInMsg

end Bfs.Server
