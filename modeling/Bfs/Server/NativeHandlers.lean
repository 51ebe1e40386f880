import Bfs.Native.FileIo
import Bfs.Rpc.Errors
import Bfs.Server.Parsing

/-! The handlers of the server over the native file system: the operation that a request calls, the
replies, and what the two dispatchers make of the result. -/
namespace Bfs.Server
open ByteSeq Fallible LittleEndian
open Bfs.Fs (Iv)
open Bfs.Device (PacketKey encryptData decryptData_encryptData)
open Bfs.Rpc Bfs.Utils
open Bfs.Native

section Operations

inductive Answer
  | value (v : UInt64)
  | attr (a : Attr)
  | bytes (size : UInt64) (bs : List UInt8)
  | entries (ents : List DirEntry)

/-- The call of `handle_read`, with the buffer that was allocated before: it must have a size, and all
that is read has to fit. -/
def nativeRead (uid : UInt32) (fh size off : UInt64) : FsM (List UInt8) := do
  Prog.require (16 + size.toNat % 2^32 < 2^32) .undefined
  let bs ← Prog.reads (bfsRead · uid fh size.toNat off.toNat)
  Prog.require (bs.length ≤ size.toNat % 2^32) .undefined
  pure bs

/-- The call of `handle_write`; bytes behind the end of the message are not defined. -/
def nativeWrite (uid : UInt32) (fh size off : UInt64) (data : List UInt8) : FsM UInt64 := do
  Prog.require (size.toNat ≤ data.length) .undefined
  bfsWrite uid fh (data.take size.toNat) off.toNat

def nativeRun (uid : UInt32) : Request → FsM Answer
  | .getattr path => do
    let a ← Prog.reads (bfsGetattr · uid path)
    pure (.attr a)
  | .mkdir path mode => do
    bfsMkdir uid path mode
    pure (.value 0)
  | .unlink path => do
    bfsUnlink uid path
    pure (.value 0)
  | .rmdir path => do
    bfsRmdir uid path
    pure (.value 0)
  | .rename frPath toPath => do
    bfsRename uid frPath toPath
    pure (.value 0)
  | .openFile path => do
    let fh ← bfsOpen uid path
    pure (.value fh)
  | .read fh size off => do
    let bs ← nativeRead uid fh size off
    pure (.bytes size bs)
  | .write fh size off data => do
    let n ← nativeWrite uid fh size off data
    pure (.value n)
  | .release fh => do
    bfsRelease uid fh
    pure (.value 0)
  | .fsync fh _ => do
    bfsFsync uid fh
    pure (.value 0)
  | .opendir path => do
    let fh ← bfsOpendir uid path
    pure (.value fh)
  | .readdir fh => do
    let ents ← Prog.reads (bfsReaddir · uid fh)
    pure (.entries ents)
  | .init => pure (.value 0)
  | .initMkfs => pure (.value 0)
  | .destroy => pure (.value 0)
  | .create path mode => do
    let fh ← bfsCreate uid path mode
    pure (.value fh)
  | .chmod path mode => do
    Prog.reads (bfsChmod · uid path mode)
    pure (.value 0)
  | .truncate _ _ _ => pure (.value (-1))

end Operations

section Replies

/-- `e_atime`, `e_mtime` and `e_ctime`, which the native file system does not set. -/
structure Times where
  atime : UInt32
  mtime : UInt32
  ctime : UInt32

def Times.bytes (t : Times) : List UInt8 := u32 t.ctime ++ (u32 t.mtime ++ u32 t.atime)

def getattrReply (t : Times) (ret : Int32) (a : Attr) : List UInt8 :=
  header .fromServer .getattr
    (u32 ret.toUInt32 ++ (u32 a.uid ++ (t.bytes ++ (u64 a.fino ++ (u32 a.fmode ++ u64 a.fsize)))))

def wideResult : OpType → Bool
  | .openFile => true
  | .create => true
  | .opendir => true
  | .chmod => true
  | .truncate => true
  | .read => true
  | .write => true
  | _ => false

def valueReply (req : Request) (v : UInt64) : List UInt8 :=
  header .fromServer req.replyOp (if wideResult req.op then u64 v else u32 v.toUInt32)

def readReply (size ret : UInt64) (bs : List UInt8) : List UInt8 :=
  header .fromServer .read (u64 ret ++ padTo 0 (size.toNat % 2^32) bs)

/-- `bfs_basename`. -/
def basename (path : Path) : Path := (path.reverse.takeWhile (· != slash)).reverse

def dentryFields (t : Times) (d : DirEntry) (r : Inode) : List UInt8 :=
  t.bytes ++ (u64 d.ino ++ (u32 r.mode ++ (u64 r.size ++ u32 (pathLen (basename d.deName)))))

/-- The loop of `handle_readdir`: the fields of the entries, the last one first, and their names. A name
that does not fit makes the number of bytes to fill negative. -/
def listEntries (t : Times) (s : FsState) : List DirEntry → Except FsErr (List UInt8 × List UInt8)
  | [] => .ok ([], [])
  | d :: ds => do
    if maxFileNameLen < pathLen (basename d.deName) then .error .undefined
    else
      let r ← readInode s d.ino
      let (fields, names) ← listEntries t s ds
      .ok (fields ++ dentryFields t d r,
        padTo 0 maxFileNameLen.toNat (basename d.deName) ++ names)

def readdirHeader (ents : List DirEntry) : List UInt8 :=
  header .fromServer .readdir (u64 (UInt64.ofNat ents.length))

end Replies

section Handlers

/-- The rest of `handle_readdir`. The inodes are read outside of the `try`. -/
def answerReaddir (t : Times) (ents : List DirEntry) (s : FsState) : Handled (Option FsState) :=
  match listEntries t s ents with
  | .ok (fields, names) => ⟨[readdirHeader ents, fields ++ names], .success, some s⟩
  | .error .undefined => ⟨[readdirHeader ents], .undefined, some s⟩
  | .error _ => ⟨[readdirHeader ents], .terminated, some s⟩

def handleAfter (req : Request) (s : FsState) : Option FsState :=
  if req = .destroy then none else some s

def answerOk (t : Times) (req : Request) (s : FsState) : Answer → Handled (Option FsState)
  | .value v => ⟨[valueReply req v], .success, handleAfter req s⟩
  | .attr a => ⟨[getattrReply t 0 a], .success, some s⟩
  | .bytes size bs => ⟨[readReply size (UInt64.ofNat bs.length) bs], .success, some s⟩
  | .entries ents => answerReaddir t ents s

def enoent : Int32 := 2

/-- The rest of a handler after an exception for the client. In `handle_getattr`, a request that failed
is a file that does not exist; a listing is answered with what has been collected, which is nothing
then. -/
def answerFailure (t : Times) (req : Request) (f : Failure) (s : FsState) : Handled (Option FsState) :=
  match req with
  | .getattr _ =>
    ⟨[getattrReply t (if f = .requestFailed then -enoent else f.ret) ⟨0, 0, 0, 0⟩], .success, some s⟩
  | .readdir _ => answerReaddir t [] s
  | .read _ size _ => ⟨[readReply size f.ret.toInt64.toUInt64 []], .success, some s⟩
  | req => ⟨[valueReply req f.ret.toInt64.toUInt64], .success, some s⟩

/-- The `catch` clauses of a handler: exceptions for the client are answered, those of the server are
logged, and all others end the process. -/
def answerError (t : Times) (req : Request) (s : FsState) : FsErr → Handled (Option FsState)
  | .accessDenied _ => answerFailure t req .accessDenied s
  | .requestFailed _ => answerFailure t req .requestFailed s
  | .serverError _ => ⟨[], .failure, some s⟩
  | .blk _ => ⟨[], .failure, some s⟩
  | .aborted => ⟨[], .terminated, some s⟩
  | .outOfRange => ⟨[], .terminated, some s⟩
  | .undefined => ⟨[], .undefined, some s⟩

def nativeServe (t : Times) (uid : UInt32) (req : Request) (s : FsState) : Handled (Option FsState) :=
  match nativeRun uid req s with
  | (.ok a, s) => answerOk t req s a
  | (.error e, s) => answerError t req s e

def nativeHandler (t : Times) : Handler (Option FsState) := fun uid op buf fs =>
  match parse op buf with
  | .error _ => ⟨[], .terminated, fs⟩
  | .ok r =>
    if ¬AllInside (r.strings.map (cStringSpan r.body)) then ⟨[], .undefined, fs⟩
    else
      match fs with
      | some s => nativeServe t uid r.req s
      | none =>
        match r.req with
        | .init | .initMkfs | .destroy => ⟨[valueReply r.req 0], .success, none⟩
        | .truncate _ _ _ => ⟨[valueReply r.req (-1)], .success, none⟩
        | _ => ⟨[], .undefined, none⟩

end Handlers

end Bfs.Server
