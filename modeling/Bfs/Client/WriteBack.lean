import Bfs.Lib.ByteSeq

/-! The write-back path of the client: buffered writes go to a local cache file and mark chunks
dirty, and a flush stages the dirty chunks in one buffer and sends them to the server. The
server is a parameter; `plainServer` applies every request as a positioned write. -/
namespace Bfs.Client
open ByteSeq

/-- `chunk_size`: the unit of the dirty set. -/
def chunkSize : ℕ := 1024*1024

/-- `CONGESTION_THRESHOLD`: the number of dirty chunks at which a forced write-back starts. -/
def congestionThreshold : ℕ := 2^30 / chunkSize

def bfsFailure : ℤ := -1
def bfsSuccess : ℤ := 0

lemma chunkSize_pos : 0 < chunkSize := by decide

/-- The client state of one open handle: its cache file, its set of dirty chunks, and the
counter `total_dirty_chunks` shared by all handles. -/
structure WbState where
  cache : List UInt8
  dirtyChunks : Finset ℕ
  totalDirtyChunks : ℕ

/-- The payload of a `CLIENT_WRITE_OP`; the size field is the length of the data. -/
structure WriteOp where
  offset : ℕ
  data : List UInt8
  deriving DecidableEq, Repr

/-- The arguments of `bfs_write_helper`, with the two flags it reads from its surroundings. -/
structure WriteArgs where
  buf : List UInt8
  offset : ℕ
  directIo : Bool
  flush : Bool
  wbForceFlush : Bool

def markChunks (offset size : ℕ) (dirty : Finset ℕ) (total : ℕ) : Finset ℕ × ℕ :=
  let totalWrittenChunks := size / chunkSize + (if size % chunkSize ≠ 0 then 1 else 0)
  (List.range' (offset / chunkSize) totalWrittenChunks).foldl
    (fun acc i => if i ∈ acc.1 then acc else (insert i acc.1, acc.2 + 1)) (dirty, total)

/-- The buffered branch of `bfs_write_helper`: write the local file, then mark. -/
def bufferedWrite (st : WbState) (offset : ℕ) (buf : List UInt8) : WbState × ℤ :=
  let marked := markChunks offset buf.length st.dirtyChunks st.totalDirtyChunks
  (⟨pwrite 0 st.cache offset buf, marked.1, marked.2⟩, buf.length)

structure Staging where
  totalBytesWritten : ℕ
  dirtyChunks : Finset ℕ
  dirtyChunksLocal : List ℕ
  writeBuf : List UInt8
  totalDirtyChunks : ℕ

structure StageEnv where
  cache : List UInt8
  buf : List UInt8
  offset : ℕ
  totalSize : ℕ
  flush : Bool
  forceFlush : Bool

/-- One iteration of the staging loop. The flag is the early `break` of a forced flush, taken
once fewer than eight tenths of the congestion threshold are dirty. -/
def stageStep (e : StageEnv) (s : Staging) : Staging × Bool :=
  let writeBytes := min chunkSize (e.totalSize - s.totalBytesWritten)
  let chunk := (e.offset + s.totalBytesWritten) / chunkSize
  if e.flush || e.forceFlush then
    if chunk ∈ s.dirtyChunks then
      let staged : Staging :=
        { s with
          dirtyChunks := s.dirtyChunks.erase chunk
          dirtyChunksLocal := s.dirtyChunksLocal ++ [chunk]
          writeBuf := splice s.writeBuf s.totalBytesWritten
            (slice e.cache (e.offset + s.totalBytesWritten) writeBytes)
          totalDirtyChunks := s.totalDirtyChunks - 1 }
      if e.forceFlush && decide (staged.totalDirtyChunks * 10 < congestionThreshold * 8) then
        (staged, true)
      else ({ staged with totalBytesWritten := s.totalBytesWritten + writeBytes }, false)
    else ({ s with totalBytesWritten := s.totalBytesWritten + writeBytes }, false)
  else
    ({ s with
        writeBuf := splice s.writeBuf s.totalBytesWritten
          (slice e.buf s.totalBytesWritten writeBytes)
        totalBytesWritten := s.totalBytesWritten + writeBytes }, false)

/-- The staging loop. The source's loop has no bound of its own, so it runs on fuel, and `none`
means that the fuel did not suffice. -/
def stageLoop (e : StageEnv) : ℕ → Staging → Option Staging
  | 0, _ => none
  | fuel+1, s =>
    if s.totalBytesWritten < e.totalSize ∨ s.dirtyChunks.Nonempty then
      let next := stageStep e s
      if next.2 then some next.1 else stageLoop e fuel next.1
    else some s

variable {σ : Type*}

/-- One request of the sending loop. The reply is the number of bytes the server wrote; `none`
stands for a connection or decryption error. -/
def sendOne (send : σ → WriteOp → σ × Option ℕ) (sv : σ) (op : WriteOp) : σ × Bool :=
  match send sv op with
  | (sv', some bytesWritten) => (sv', !decide (bytesWritten < op.data.length))
  | (sv', none) => (sv', false)

/-- The sending loop of a flush: the next slice of the staging buffer goes to the next staged
chunk. The second component is the final `total_bytes_written`, `none` after a failed request. -/
def sendDirty (send : σ → WriteOp → σ × Option ℕ) (totalSize : ℕ) (writeBuf : List UInt8) :
    List ℕ → ℕ → σ → σ × Option ℕ
  | [], totalBytesWritten, sv => (sv, some totalBytesWritten)
  | d::ds, totalBytesWritten, sv =>
    let writeBytes := min chunkSize (totalSize - totalBytesWritten)
    let r := sendOne send sv ⟨d*chunkSize, slice writeBuf totalBytesWritten writeBytes⟩
    if r.2 then sendDirty send totalSize writeBuf ds (totalBytesWritten + writeBytes) r.1
    else (r.1, none)

def sendDirect (send : σ → WriteOp → σ × Option ℕ) (offset totalSize : ℕ)
    (writeBuf : List UInt8) : ℕ → ℕ → σ → σ × Option ℕ
  | 0, totalBytesWritten, sv => (sv, some totalBytesWritten)
  | n+1, totalBytesWritten, sv =>
    if totalBytesWritten < totalSize then
      let writeBytes := min chunkSize (totalSize - totalBytesWritten)
      let r := sendOne send sv
        ⟨offset + totalBytesWritten, slice writeBuf totalBytesWritten writeBytes⟩
      if r.2 then sendDirect send offset totalSize writeBuf n (totalBytesWritten + writeBytes) r.1
      else (r.1, none)
    else (sv, some totalBytesWritten)

def stageEnv (a : WriteArgs) (st : WbState) : StageEnv where
  cache := st.cache
  buf := a.buf
  offset := if a.directIo then a.offset else 0
  totalSize := if a.directIo then a.buf.length else st.cache.length
  flush := a.flush
  forceFlush := a.wbForceFlush && decide (congestionThreshold ≤ st.totalDirtyChunks)

/-- `bfs_write_helper`. The result is the client state, the server state and the return value. -/
def bfsWriteHelper (fuel : ℕ) (send : σ → WriteOp → σ × Option ℕ) (a : WriteArgs)
    (st : WbState) (sv : σ) : Option (WbState × σ × ℤ) :=
  if !a.directIo && !a.flush then
    let r := bufferedWrite st a.offset a.buf
    some (r.1, sv, r.2)
  else
    let e := stageEnv a st
    let start : Staging :=
      ⟨0, st.dirtyChunks, [], List.replicate e.totalSize 0, st.totalDirtyChunks⟩
    (stageLoop e fuel start).map fun s =>
      let r :=
        if e.flush || e.forceFlush then
          sendDirty send e.totalSize s.writeBuf s.dirtyChunksLocal 0 sv
        else sendDirect send e.offset e.totalSize s.writeBuf e.totalSize 0 sv
      (⟨st.cache, s.dirtyChunks, s.totalDirtyChunks⟩, r.1,
        match r.2 with
        | none => bfsFailure
        | some totalBytesWritten => if a.directIo then totalBytesWritten else bfsSuccess)

/-- `bfs_flush`. -/
def bfsFlush (fuel : ℕ) (send : σ → WriteOp → σ × Option ℕ) (st : WbState) (sv : σ) :
    Option (WbState × σ × ℤ) :=
  bfsWriteHelper fuel send ⟨[], 0, false, true, false⟩ st sv

/-- `bfs_fsync`. -/
def bfsFsync (fuel : ℕ) (send : σ → WriteOp → σ × Option ℕ) (st : WbState) (sv : σ) :
    Option (WbState × σ × ℤ) :=
  bfsWriteHelper fuel send ⟨[], 0, false, true, false⟩ st sv

def plainServer (file : List UInt8) (op : WriteOp) : List UInt8 × Option ℕ :=
  (pwrite 0 file op.offset op.data, some op.data.length)

end Bfs.Client
