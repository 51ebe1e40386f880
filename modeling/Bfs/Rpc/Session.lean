import Bfs.Server.UserContext

/-! Clients and the server with an adversary between them, who holds back, repeats, reorders and
reflects the packets of all connections. A client makes one call after the other. -/
namespace Bfs.Rpc
open Fallible LittleEndian
open Bfs.Fs (Iv)
open Bfs.Device (PacketKey encryptData decryptData eq_of_decryptData)
open Bfs.Server

section Client

def Request.replyOp (req : Request) : OpType :=
  match req.op with
  | .initMkfs => .init
  | op => op

/-- `total_recv_msg_len` of a call; replies to reads and writes may have any length. -/
def Request.replyLen (req : Request) : Option ℕ :=
  match req.op with
  | .getattr => some 48
  | .openFile => some 16
  | .opendir => some 16
  | .create => some 16
  | .chmod => some 16
  | .truncate => some 16
  | .readdir => some 16
  | .read => none
  | .write => none
  | _ => some 12

/-- The tests of `recv_msgp` on a decrypted message. -/
def Request.accepts (req : Request) (plain : List UInt8) : Bool :=
  match takeHeader plain with
  | .error _ => false
  | .ok ((mtype, otype), _) =>
    mtype == MsgType.fromServer.code && otype == req.replyOp.code &&
      req.replyLen.all fun len => plain.length == len

/-- What a client is doing. A call that fails while it holds `mux_lock`, and one that cleans the
connection up, is the last one. -/
inductive Phase
  | idle
  | awaiting (req : Request)
  | awaitingData (len : ℕ)
  | ended
  deriving DecidableEq

def dataLen (plain : List UInt8) : ℕ := (ofU64 ((plain.drop 8).take 8)).toNat * (255 + 36) % 2^32

/-- Where the client is after a reply: a directory listing waits for a second message, and the reply
to a destroy request ends the connection. -/
def Request.after (req : Request) (plain : List UInt8) : Phase :=
  match req.op with
  | .readdir => .awaitingData (dataLen plain)
  | .destroy => .ended
  | _ => .idle

structure Client where
  sendSeq : UInt32
  recvSeq : UInt32
  phase : Phase

def Client.new : Client := ⟨0, 0, .idle⟩

/-- `recv_msgp`: the message accepted, and the client after it. The second message of a directory
listing is received without `mux_lock` and without a test of its type. -/
def Client.receive (A : PacketKey) (c : Client) (pkt : List UInt8) : Option (List UInt8) × Client :=
  match c.phase, decryptData A c.recvSeq pkt with
  | .awaiting _, .error _ => (none, { c with phase := .ended })
  | .awaiting req, .ok plain =>
    if req.accepts plain then
      (some plain, { c with recvSeq := c.recvSeq + 1, phase := req.after plain })
    else (none, { c with recvSeq := c.recvSeq + 1, phase := .ended })
  | .awaitingData _, .error _ => (none, { c with phase := .idle })
  | .awaitingData len, .ok plain =>
    if plain.length = len then
      (some plain, { c with recvSeq := c.recvSeq + 1, phase := .idle })
    else (none, { c with recvSeq := c.recvSeq + 1, phase := .ended })
  | _, _ => (none, c)

end Client

/-- A client with the history of its connection: the requests it sent, those that the server
dispatched, the replies of the server and the replies that the client accepted, each with the number
of its request. -/
structure Session where
  client : Client
  sent : List Request
  dispatched : List (List UInt8)
  produced : List (ℕ × List UInt8)
  accepted : List (ℕ × List UInt8)

def Session.new : Session := ⟨Client.new, [], [], [], []⟩

structure Net (σ : Type) where
  server : State σ
  up : Bool
  sessions : Conn → Option Session
  wire : List (Conn × List UInt8)

def Net.start {σ : Type} (fs : σ) : Net σ := ⟨⟨ACLayer.init, fs⟩, true, fun _ => none, []⟩

inductive NetAct
  | connect (conn : Conn)
  | call (conn : Conn) (iv : Iv) (req : Request)
  | toServer (conn : Conn) (ivs : ℕ → Iv) (pkt : List UInt8)
  | toClient (conn : Conn) (pkt : List UInt8)
  | hangUp (conn : Conn)

section Step

variable {σ : Type} (A : PacketKey) (handle : Handler σ)

def Net.setSession (s : Net σ) (conn : Conn) (q : Session) : Net σ :=
  { s with sessions := Function.update s.sessions conn (some q) }

def Session.call (q : Session) (req : Request) : Session :=
  { q with
    client := { q.client with sendSeq := q.client.sendSeq + 1, phase := .awaiting req }
    sent := q.sent ++ [req] }

def Session.served (q : Session) (r : Reaction σ) : Session :=
  match r.dispatched with
  | none => q
  | some (plain, replies) => { q with
      dispatched := q.dispatched ++ [plain]
      produced := q.produced ++ replies.map fun m => (q.dispatched.length, m) }

def Session.received (q : Session) (pkt : List UInt8) : Session :=
  { q with
    client := (q.client.receive A pkt).2
    accepted := q.accepted ++
      (q.client.receive A pkt).1.toList.map fun m => (q.sent.length - 1, m) }

def Net.step (s : Net σ) : NetAct → Net σ
  | .connect conn =>
    match s.sessions conn with
    | some _ => s
    | none =>
      { s with server := { s.server with acl := s.server.acl.addUserContext conn } }.setSession conn
        Session.new
  | .call conn iv req =>
    match s.sessions conn with
    | none => s
    | some q =>
      if q.client.phase = .idle then
        { s with wire := s.wire ++ [(conn, encryptData A iv q.client.sendSeq req.bytes)] }.setSession
          conn (q.call req)
      else s
  | .toServer conn ivs pkt =>
    match s.sessions conn with
    | none => s
    | some q =>
      if s.up then
        let r := handleInMsg A handle ivs s.server conn (some pkt)
        { s with
          server := r.state
          up := r.status.returns
          wire := s.wire ++ r.sent.map fun p => (conn, p) }.setSession conn (q.served r)
      else s
  | .toClient conn pkt =>
    match s.sessions conn with
    | none => s
    | some q => s.setSession conn (q.received A pkt)
  | .hangUp conn =>
    match s.sessions conn with
    | none => s
    | some q => s.setSession conn { q with client := { q.client with phase := .ended } }

def Net.run (s : Net σ) (acts : List NetAct) : Net σ := acts.foldl (Net.step A handle) s

end Step

end Bfs.Rpc
