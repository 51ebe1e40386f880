import Bfs.Device.Packet

/-! The messages between a client and the server: the header of a message, the requests as the client
writes them, and the fields that a handler of the server takes off. -/
namespace Bfs.Rpc
open LittleEndian Fallible
open Bfs.Device (DevErr removeHeader removeHeader_append)

/-- `msg_type_t` without `INVALID_MSG`. -/
inductive MsgType
  | fromServer
  | toServer
  deriving DecidableEq, Repr

def MsgType.code : MsgType → UInt32
  | .fromServer => 0
  | .toServer => 1

/-- `op_type_t` without `INVALID_OP`. -/
inductive OpType
  | getattr
  | mkdir
  | unlink
  | rmdir
  | rename
  | openFile
  | read
  | write
  | release
  | fsync
  | opendir
  | readdir
  | init
  | initMkfs
  | destroy
  | create
  | chmod
  | truncate
  deriving DecidableEq, Repr

def OpType.code : OpType → UInt32
  | .getattr => 0
  | .mkdir => 1
  | .unlink => 2
  | .rmdir => 3
  | .rename => 4
  | .openFile => 5
  | .read => 6
  | .write => 7
  | .release => 8
  | .fsync => 9
  | .opendir => 10
  | .readdir => 11
  | .init => 12
  | .initMkfs => 13
  | .destroy => 14
  | .create => 15
  | .chmod => 16
  | .truncate => 17

def OpType.all : List OpType :=
  [.getattr, .mkdir, .unlink, .rmdir, .rename, .openFile, .read, .write, .release, .fsync, .opendir,
    .readdir, .init, .initMkfs, .destroy, .create, .chmod, .truncate]

/-- The `switch` of the server: no operation for other codes. -/
def OpType.ofCode (c : UInt32) : Option OpType := OpType.all.find? fun op => op.code == c

@[simp] theorem OpType.ofCode_code (op : OpType) : OpType.ofCode op.code = some op := by
  cases op <;> rfl

section Fields

def takeU32 (buf : List UInt8) : Except DevErr (UInt32 × List UInt8) := do
  let (x, buf) ← removeHeader 4 buf
  .ok (ofU32 x, buf)

def takeU64 (buf : List UInt8) : Except DevErr (UInt64 × List UInt8) := do
  let (x, buf) ← removeHeader 8 buf
  .ok (ofU64 x, buf)

@[simp] theorem takeU32_append (x : UInt32) (rest : List UInt8) :
    takeU32 (u32 x ++ rest) = .ok (x, rest) := by
  simp only [takeU32, removeHeader_append (length_u32 x), ok_bind, ofU32_u32]

@[simp] theorem takeU64_append (x : UInt64) (rest : List UInt8) :
    takeU64 (u64 x ++ rest) = .ok (x, rest) := by
  simp only [takeU64, removeHeader_append (length_u64 x), ok_bind, ofU64_u64]

def header (m : MsgType) (op : OpType) (rest : List UInt8) : List UInt8 :=
  u32 m.code ++ (u32 op.code ++ rest)

def takeHeader (buf : List UInt8) : Except DevErr ((UInt32 × UInt32) × List UInt8) := do
  let (mtype, buf) ← takeU32 buf
  let (otype, buf) ← takeU32 buf
  .ok ((mtype, otype), buf)

@[simp] theorem takeHeader_header (m : MsgType) (op : OpType) (rest : List UInt8) :
    takeHeader (header m op rest) = .ok ((m.code, op.code), rest) := by
  simp only [takeHeader, header, takeU32_append, ok_bind]

@[simp] theorem length_header (m : MsgType) (op : OpType) (rest : List UInt8) :
    (header m op rest).length = 8 + rest.length := by
  simp only [header, List.length_append, length_u32]
  omega

end Fields

section Requests

abbrev Path := List UInt8

inductive Request
  | getattr (path : Path)
  | mkdir (path : Path) (mode : UInt32)
  | unlink (path : Path)
  | rmdir (path : Path)
  | rename (frPath toPath : Path)
  | openFile (path : Path)
  | read (fh size off : UInt64)
  | write (fh size off : UInt64) (data : List UInt8)
  | release (fh : UInt64)
  | fsync (fh : UInt64) (datasync : UInt32)
  | opendir (path : Path)
  | readdir (fh : UInt64)
  | init
  | initMkfs
  | destroy
  | create (path : Path) (mode : UInt32)
  | chmod (path : Path) (mode : UInt32)
  | truncate (path : Path) (fh : UInt64) (len : UInt32)
  deriving DecidableEq, Repr

def Request.op : Request → OpType
  | .getattr _ => .getattr
  | .mkdir _ _ => .mkdir
  | .unlink _ => .unlink
  | .rmdir _ => .rmdir
  | .rename _ _ => .rename
  | .openFile _ => .openFile
  | .read _ _ _ => .read
  | .write _ _ _ _ => .write
  | .release _ => .release
  | .fsync _ _ => .fsync
  | .opendir _ => .opendir
  | .readdir _ => .readdir
  | .init => .init
  | .initMkfs => .initMkfs
  | .destroy => .destroy
  | .create _ _ => .create
  | .chmod _ _ => .chmod
  | .truncate _ _ _ => .truncate

/-- `strlen(path) + 1`. -/
def pathLen (path : Path) : UInt32 := UInt32.ofNat (path.length + 1)

def pathField (path : Path) : List UInt8 := u32 (pathLen path) ++ (path ++ [0])

def Request.body : Request → List UInt8
  | .getattr path => pathField path
  | .mkdir path mode => u32 mode ++ pathField path
  | .unlink path => pathField path
  | .rmdir path => pathField path
  | .rename frPath toPath =>
    u32 (pathLen frPath) ++ (u32 (pathLen toPath) ++ ((frPath ++ [0]) ++ (toPath ++ [0])))
  | .openFile path => pathField path
  | .read fh size off => u64 fh ++ (u64 size ++ u64 off)
  | .write fh size off data => u64 fh ++ (u64 size ++ (u64 off ++ data))
  | .release fh => u64 fh
  | .fsync fh datasync => u64 fh ++ u32 datasync
  | .opendir path => pathField path
  | .readdir fh => u64 fh
  | .init => []
  | .initMkfs => []
  | .destroy => []
  | .create path mode => u32 mode ++ pathField path
  | .chmod path mode => u32 mode ++ pathField path
  | .truncate path fh len => u64 fh ++ (u32 len ++ pathField path)

def Request.bytes (req : Request) : List UInt8 := header .toServer req.op req.body

end Requests

end Bfs.Rpc
