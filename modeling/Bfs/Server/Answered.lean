import Bfs.Native.Format
import Bfs.Native.View
import Bfs.Server.NativeHandlers

/-! Whether a request to the mounted native file system is answered: the messages that the client waits
for, and the end of the connection. -/
namespace Bfs.Server
open ByteSeq Fallible LittleEndian
open Bfs.Fs (Iv)
open Bfs.Device (PacketKey encryptData decryptData_encryptData seqKey seqKey_committing)
open Bfs.Rpc Bfs.Utils
open Bfs.Native

section Listings

def OnDisk (d : DirEntry) : Prop := d.deName.length ≤ 255

def Adds (n : ℕ) (ents ents' : List DirEntry) : Prop :=
  ∃ l, l.length ≤ n ∧ (∀ d ∈ l, OnDisk d) ∧ ents' = ents ++ l

lemma Adds.refl (n : ℕ) (ents : List DirEntry) : Adds n ents ents := ⟨[], by simp, by simp, by simp⟩

lemma Adds.trans {n m : ℕ} {ents ents' ents'' : List DirEntry} (h : Adds n ents ents')
    (h' : Adds m ents' ents'') : Adds (n + m) ents ents'' := by
  obtain ⟨l, hl, hdisk, rfl⟩ := h
  obtain ⟨l', hl', hdisk', rfl⟩ := h'
  refine ⟨l ++ l', by rw [List.length_append]; omega, ?_, by rw [List.append_assoc]⟩
  intro d hd
  rcases List.mem_append.mp hd with hd | hd
  · exact hdisk d hd
  · exact hdisk' d hd

end Listings

section WellFormed

def PathOk (path : Path) : Prop := 0 ∉ path ∧ path.length + 1 < 2^32

def WellFormed : Request → Prop
  | .getattr path => PathOk path
  | .mkdir path _ => PathOk path
  | .unlink path => PathOk path
  | .rmdir path => PathOk path
  | .rename frPath toPath => PathOk frPath ∧ PathOk toPath
  | .openFile path => PathOk path
  | .write _ size _ data => size.toNat = data.length
  | .release fh => leastHandle ≤ fh
  | .fsync fh _ => leastHandle ≤ fh
  | .opendir path => PathOk path
  | .readdir fh => leastHandle ≤ fh
  | .create path _ => PathOk path
  | .chmod path _ => PathOk path
  | .truncate path _ _ => PathOk path
  | _ => True

lemma PathOk.pathLen_ne {path : Path} (h : PathOk path) : pathLen path ≠ 0 := by
  intro hzero
  have hnat := congrArg UInt32.toNat hzero
  rw [pathLen, UInt32.toNat_ofNat', UInt32.toNat_zero] at hnat
  have := h.2
  omega

lemma PathOk.toNat_pathLen {path : Path} (h : PathOk path) :
    (pathLen path).toNat = (path ++ [0]).length := by
  rw [pathLen, UInt32.toNat_ofNat', Nat.mod_eq_of_lt h.2, List.length_append, List.length_singleton]

lemma PathOk.cString {path : Path} (h : PathOk path) (front rest : List UInt8) :
    cString (front ++ ((path ++ [0]) ++ rest)) front.length = path := by
  have hall : ∀ x ∈ path, (x != 0) = true := by
    intro x hx
    exact bne_iff_ne.mpr fun h0 => h.1 (h0 ▸ hx)
  rw [Server.cString, List.drop_left, List.append_assoc, List.takeWhile_append_of_pos hall]
  simp

lemma cString_inside (path front rest : List UInt8) :
    (cStringSpan (front ++ ((path ++ [0]) ++ rest)) front.length).Inside := by
  rw [cStringSpan_inside, List.drop_left]
  simp

def ReadsBack (req : Request) (x : Except Rejection Taken) : Prop :=
  ∃ t, x = .ok t ∧ t.req = req ∧ AllInside (t.strings.map (cStringSpan t.body))

lemma takePath_pathField (mk : Path → Request) {path : Path} (h : PathOk path) :
    ReadsBack (mk path) (takePath mk (pathField path)) := by
  have hstr := h.cString [] []
  have hin := cString_inside path [] []
  rw [List.append_nil, List.nil_append, List.length_nil] at hstr hin
  refine ⟨⟨mk (cString (path ++ [0]) 0), path ++ [0], [(pathLen path).toNat], [0]⟩, ?_, ?_, ?_⟩
  · rw [takePath, pathField, field32_append, ok_bind]
    exact if_neg h.pathLen_ne
  · rw [hstr]
  · simpa using hin

lemma takeModePath_pathField (mk : Path → UInt32 → Request) {path : Path} (mode : UInt32)
    (h : PathOk path) : ReadsBack (mk path mode) (takeModePath mk (u32 mode ++ pathField path)) := by
  rw [takeModePath, field32_append, ok_bind]
  exact takePath_pathField (mk · mode) h

lemma takeHandle_u64 (mk : UInt64 → Request) {fh : UInt64} (h : leastHandle ≤ fh) :
    ReadsBack (mk fh) (takeHandle mk (u64 fh)) := by
  refine ⟨⟨mk fh, [], [], []⟩, ?_, rfl, by simp⟩
  rw [takeHandle, ← List.append_nil (u64 fh), field64_append, ok_bind]
  exact if_neg (UInt64.not_lt.mpr h)

lemma takeRename_body {frPath toPath : Path} (hfr : PathOk frPath) (hto : PathOk toPath) :
    ReadsBack (.rename frPath toPath) (takeRename (Request.rename frPath toPath).body) := by
  have hfirst := hfr.cString [] (toPath ++ [0])
  have hfirstIn := cString_inside frPath [] (toPath ++ [0])
  have hsecond := hto.cString (frPath ++ [0]) []
  have hsecondIn := cString_inside toPath (frPath ++ [0]) []
  rw [List.nil_append, List.length_nil] at hfirst hfirstIn
  rw [List.append_nil, ← hfr.toNat_pathLen] at hsecond hsecondIn
  refine ⟨⟨.rename (cString ((frPath ++ [0]) ++ (toPath ++ [0])) 0)
      (cString ((frPath ++ [0]) ++ (toPath ++ [0])) (pathLen frPath).toNat),
    (frPath ++ [0]) ++ (toPath ++ [0]), [(pathLen frPath).toNat, (pathLen toPath).toNat],
    [0, (pathLen frPath).toNat]⟩, ?_, ?_, ?_⟩
  · simp only [takeRename, Request.body, field32_append, ok_bind]
    exact if_neg (not_or.mpr ⟨hfr.pathLen_ne, hto.pathLen_ne⟩)
  · rw [hfirst, hsecond]
  · simp only [List.map_cons, List.map_nil, allInside_cons, allInside_nil, and_true]
    exact ⟨hfirstIn, hsecondIn⟩

lemma takeRead_body (fh size off : UInt64) :
    ReadsBack (.read fh size off) (takeRead (Request.read fh size off).body) := by
  refine ⟨⟨.read fh size off, [], [], []⟩, ?_, rfl, allInside_nil⟩
  rw [Request.body, ← List.append_nil (u64 off)]
  simp only [takeRead, field64_append, ok_bind]

lemma takeWrite_body (fh size off : UInt64) (data : List UInt8) :
    ReadsBack (.write fh size off data) (takeWrite (Request.write fh size off data).body) := by
  refine ⟨⟨.write fh size off data, data, [size.toNat], []⟩, ?_, rfl, allInside_nil⟩
  simp only [takeWrite, Request.body, field64_append, ok_bind]

lemma takeFsync_body {fh : UInt64} (datasync : UInt32) (h : leastHandle ≤ fh) :
    ReadsBack (.fsync fh datasync) (takeFsync (Request.fsync fh datasync).body) := by
  refine ⟨⟨.fsync fh datasync, [], [], []⟩, ?_, rfl, allInside_nil⟩
  rw [Request.body, ← List.append_nil (u32 datasync)]
  simp only [takeFsync, field64_append, field32_append, ok_bind]
  exact if_neg (UInt64.not_lt.mpr h)

lemma takeTruncate_body {path : Path} (fh : UInt64) (len : UInt32) (h : PathOk path) :
    ReadsBack (.truncate path fh len) (takeTruncate (Request.truncate path fh len).body) := by
  simp only [takeTruncate, Request.body, field64_append, field32_append, ok_bind]
  exact takePath_pathField (.truncate · fh len) h

theorem parse_body {req : Request} (h : WellFormed req) : ReadsBack req (parse req.op req.body) := by
  cases req with
  | getattr path => exact takePath_pathField _ h
  | mkdir path mode => exact takeModePath_pathField _ mode h
  | unlink path => exact takePath_pathField _ h
  | rmdir path => exact takePath_pathField _ h
  | rename frPath toPath => exact takeRename_body h.1 h.2
  | openFile path => exact takePath_pathField _ h
  | read fh size off => exact takeRead_body fh size off
  | write fh size off data => exact takeWrite_body fh size off data
  | release fh => exact takeHandle_u64 _ h
  | fsync fh datasync => exact takeFsync_body datasync h
  | opendir path => exact takePath_pathField _ h
  | readdir fh => exact takeHandle_u64 _ h
  | init => exact ⟨_, rfl, rfl, allInside_nil⟩
  | initMkfs => exact ⟨_, rfl, rfl, allInside_nil⟩
  | destroy => exact ⟨_, rfl, rfl, allInside_nil⟩
  | create path mode => exact takeModePath_pathField _ mode h
  | chmod path mode => exact takeModePath_pathField _ mode h
  | truncate path fh len => exact takeTruncate_body fh len h

end WellFormed

section Replies

variable {req : Request} (t : Times)

end Replies

section Serving

def Answer.Fits : Request → Answer → Prop
  | .getattr _, a => ∃ x, a = .attr x
  | .read _ size _, a => ∃ bs, a = .bytes size bs
  | .readdir _, a => ∃ ents, a = .entries ents ∧ Adds 7860 [] ents
  | _, a => ∃ v, a = .value v

variable {req : Request} (t : Times) (d : Dispatcher) (s : FsState)

end Serving

section Requests

variable {A : PacketKey} {srv : State (Option FsState)} {conn : Conn} {usr : UserContext} {s : FsState}
  {req : Request}

end Requests

end Bfs.Server
