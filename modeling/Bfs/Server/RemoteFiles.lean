import Bfs.Native.FileRuns
import Bfs.Rpc.ChannelSafety
import Bfs.Server.Answered

/-! Clients that read and write files of the native file system over the network: the request is sealed,
opened, parsed and executed, and the reply comes back the same way. -/
namespace Bfs.Server
open ByteSeq Fallible LittleEndian
open Bfs.Fs (Iv)
open Bfs.Device (PacketKey encryptData decryptData_encryptData seqKey seqKey_committing)
open Bfs.Rpc Bfs.Native

section Exchange

/-- The server with its clients; nobody interferes. -/
structure RemoteFs where
  server : State (Option FsState)
  clients : Conn → Client

/-- A call of a client, and the initialisation vectors of its messages. -/
structure RemoteCall where
  conn : Conn
  fh : UInt64
  io : FileIo
  iv : Iv
  ivs : ℕ → Iv

namespace RemoteCall

def request (c : RemoteCall) : Request :=
  match c.io with
  | .read size off => .read c.fh (UInt64.ofNat size) (UInt64.ofNat off)
  | .write buf off => .write c.fh (UInt64.ofNat buf.length) (UInt64.ofNat off) buf

def kind (c : RemoteCall) : ReplyKind :=
  match c.io with
  | .read _ _ => .bytesRead
  | .write buf _ => .bytesWritten (UInt64.ofNat buf.length)

/-- Send a request, let the server handle it, and receive the reply; a call without a reply does not
return. -/
def exchange (A : PacketKey) (t : Times) (c : RemoteCall) (w : RemoteFs) : Option CallEnd × RemoteFs :=
  let client := w.clients c.conn
  let r := handleInMsg A (nativeHandler t) c.ivs w.server c.conn
    (some (encryptData A c.iv client.sendSeq c.request.bytes))
  let waiting : Client := { client with sendSeq := client.sendSeq + 1, phase := .awaiting c.request }
  match r.sent.head? with
  | none => (none, ⟨r.state, Function.update w.clients c.conn waiting⟩)
  | some pkt =>
    (some ((waiting.receive A pkt).1.elim .failure (c.request.finish c.kind)),
      ⟨r.state, Function.update w.clients c.conn (waiting.receive A pkt).2⟩)

def onFiles (uidOf : Conn → UInt32) (c : RemoteCall) : FileCall := ⟨uidOf c.conn, c.fh, c.io⟩

end RemoteCall

end Exchange

section Refinement

variable {A : PacketKey} {w : RemoteFs} {C : Set Conn} {uidOf : Conn → UInt32} {H : Set UInt64}
  {inoOf : UInt64 → UInt64} {files : UInt64 → ByteFile} {s s' : FsState} {uid : UInt32}

/-- A call of a user that the file admits, on an open handle and inside the limits: a reply has 32 bits
for its length. -/
def RemoteCall.Within (C : Set Conn) (uidOf : Conn → UInt32) (H : Set UInt64) (inoOf : UInt64 → UInt64)
    (files : UInt64 → ByteFile) (c : RemoteCall) : Prop :=
  c.conn ∈ C ∧ c.fh ∈ H ∧ (files (inoOf c.fh)).denied (uidOf c.conn) = false ∧
    match c.io with
    | .read size off => 16 + size < 2^32 ∧ off < 2^64
    | .write buf off => off + buf.length ≤ maxFileSize

/-- What the handler of a request answers, and what the client makes of it. -/
def Replied (t : Times) (uid : UInt32) (c : RemoteCall) (s s' : FsState) (e : CallEnd) : Prop :=
  ∃ reply, nativeServe t uid c.request s = ⟨[reply], .success, some s'⟩ ∧
    c.request.accepts reply = true ∧ c.request.finish c.kind reply = e

/-- One exchange between ends that are in step. -/
lemma exchange_eq (hA : Aead.Correct A) (t : Times) {c : RemoteCall} {usr : UserContext} {e : CallEnd}
    (hctx : w.server.acl.userContexts c.conn = some usr) (hfs : w.server.fs = some s)
    (hsend : (w.clients c.conn).sendSeq = usr.userRecvSeq)
    (hrecv : (w.clients c.conn).recvSeq = usr.userSendSeq) (hreq : WellFormed c.request)
    (hrep : Replied t usr.uid c s s' e) :
    ∃ phase, c.exchange A t w = (some e,
      ⟨⟨w.server.acl.setContext c.conn ⟨usr.uid, usr.userSendSeq + 1, usr.userRecvSeq + 1⟩, some s'⟩,
        Function.update w.clients c.conn ⟨usr.userRecvSeq + 1, usr.userSendSeq + 1, phase⟩⟩) := by
  obtain ⟨reply, hserve, haccepts, hfinish⟩ := hrep
  obtain ⟨r, hparse, hr, hin⟩ := parse_body hreq
  have hhandle : nativeHandler t usr.uid c.request.op c.request.body w.server.fs =
      ⟨[reply], .success, some s'⟩ := by
    rw [hfs]
    simp only [nativeHandler, hparse, hr, not_true_eq_false, hin, if_false, hserve]
  have hmsg : handleInMsg A (nativeHandler t) .. = _ := handleInMsg_ok hctx
    (decryptData_encryptData hA c.iv usr.userRecvSeq c.request.bytes) c.ivs
  rw [dispatch_request] at hmsg
  dsimp only at hmsg
  rw [hhandle] at hmsg
  have hsealed : sealReplies A c.ivs usr.userSendSeq [reply] =
      [encryptData A (c.ivs 0) usr.userSendSeq reply] := by simp [sealReplies]
  have hclient : Client.receive A ⟨usr.userRecvSeq + 1, usr.userSendSeq, .awaiting c.request⟩
      (encryptData A (c.ivs 0) usr.userSendSeq reply) =
      (some reply, ⟨usr.userRecvSeq + 1, usr.userSendSeq + 1, c.request.after reply⟩) := by
    rw [Client.receive, decryptData_encryptData hA]
    exact if_pos haccepts
  refine ⟨c.request.after reply, ?_⟩
  simp only [RemoteCall.exchange, hsend, hrecv, hmsg, hsealed, List.head?_cons, hclient, hfinish,
    Option.elim_some, List.length_singleton]
  rfl

lemma RemoteCall.Within.onFiles {c : RemoteCall} (hc : c.Within C uidOf H inoOf files) :
    (c.onFiles uidOf).Within H := by
  obtain ⟨conn, fh, io, iv, ivs⟩ := c
  cases io with
  | read size off => exact ⟨hc.2.1, trivial⟩
  | write buf off => exact ⟨hc.2.1, hc.2.2.2⟩

end Refinement

section Sessions

variable {A : PacketKey} {t : Times}

end Sessions

end Bfs.Server
