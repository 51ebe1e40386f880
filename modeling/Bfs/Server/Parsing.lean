import Bfs.Rpc.Message
import Bfs.Utils.FlexBuffer

/-! The bytes that the handlers of the server touch: the fields and strings they take from a message, and
the reply they build. -/
namespace Bfs.Server
open Fallible LittleEndian
open Bfs.Device (DevErr)
open Bfs.Rpc Bfs.Utils

section Requests

/-- How a message is turned away: a field that is not there or an assertion, which end the process; a
type or an operation that the server does not know. -/
inductive Rejection
  | underflow (e : DevErr)
  | assertion
  | badType
  | badOp
  deriving DecidableEq, Repr

def field32 (buf : List UInt8) : Except Rejection (UInt32 × List UInt8) :=
  (takeU32 buf).mapError .underflow

def field64 (buf : List UInt8) : Except Rejection (UInt64 × List UInt8) :=
  (takeU64 buf).mapError .underflow

@[simp] lemma field32_append (x : UInt32) (rest : List UInt8) :
    field32 (u32 x ++ rest) = .ok (x, rest) := by
  rw [field32, takeU32_append]
  rfl

@[simp] lemma field64_append (x : UInt64) (rest : List UInt8) :
    field64 (u64 x ++ rest) = .ok (x, rest) := by
  rw [field64, takeU64_append]
  rfl

/-- `std::string` of a pointer to a place of the buffer: what stands before the next zero. -/
def cString (buf : List UInt8) (start : ℕ) : List UInt8 := (buf.drop start).takeWhile (· != 0)

def cStringSpan (buf : List UInt8) (start : ℕ) : Span :=
  ⟨start, (cString buf start).length + 1, buf.length⟩

/-- What a handler has taken from a message: the request, the bytes behind the fields, the lengths that
are declared for them, and the places where strings are read. -/
structure Taken where
  req : Request
  body : List UInt8
  lens : List ℕ
  strings : List ℕ

def takePath (mk : Path → Request) (buf : List UInt8) : Except Rejection Taken := do
  let (fnameLen, buf) ← field32 buf
  if fnameLen = 0 then .error .assertion else .ok ⟨mk (cString buf 0), buf, [fnameLen.toNat], [0]⟩

def takeModePath (mk : Path → UInt32 → Request) (buf : List UInt8) : Except Rejection Taken := do
  let (mode, buf) ← field32 buf
  takePath (mk · mode) buf

/-- `ROOT_INO` in the assertions on handles. -/
def leastHandle : UInt64 := 2

def takeHandle (mk : UInt64 → Request) (buf : List UInt8) : Except Rejection Taken := do
  let (fh, buf) ← field64 buf
  if fh < leastHandle then .error .assertion else .ok ⟨mk fh, buf, [], []⟩

/-- The first lines of `handle_rename`. The second name is found through the length of the first. -/
def takeRename (buf : List UInt8) : Except Rejection Taken := do
  let (frLen, buf) ← field32 buf
  let (toLen, buf) ← field32 buf
  if frLen = 0 ∨ toLen = 0 then .error .assertion
  else
    .ok ⟨.rename (cString buf 0) (cString buf frLen.toNat), buf, [frLen.toNat, toLen.toNat],
      [0, frLen.toNat]⟩

def takeRead (buf : List UInt8) : Except Rejection Taken := do
  let (fh, buf) ← field64 buf
  let (size, buf) ← field64 buf
  let (rdOff, buf) ← field64 buf
  .ok ⟨.read fh size rdOff, buf, [], []⟩

def takeWrite (buf : List UInt8) : Except Rejection Taken := do
  let (fh, buf) ← field64 buf
  let (size, buf) ← field64 buf
  let (wrOff, buf) ← field64 buf
  .ok ⟨.write fh size wrOff buf, buf, [size.toNat], []⟩

def takeFsync (buf : List UInt8) : Except Rejection Taken := do
  let (fh, buf) ← field64 buf
  let (datasync, buf) ← field32 buf
  if fh < leastHandle then .error .assertion else .ok ⟨.fsync fh datasync, buf, [], []⟩

def takeTruncate (buf : List UInt8) : Except Rejection Taken := do
  let (fh, buf) ← field64 buf
  let (newSize, buf) ← field32 buf
  takePath (.truncate · fh newSize) buf

def parse : OpType → List UInt8 → Except Rejection Taken
  | .getattr, buf => takePath .getattr buf
  | .mkdir, buf => takeModePath .mkdir buf
  | .unlink, buf => takePath .unlink buf
  | .rmdir, buf => takePath .rmdir buf
  | .rename, buf => takeRename buf
  | .openFile, buf => takePath .openFile buf
  | .read, buf => takeRead buf
  | .write, buf => takeWrite buf
  | .release, buf => takeHandle .release buf
  | .fsync, buf => takeFsync buf
  | .opendir, buf => takePath .opendir buf
  | .readdir, buf => takeHandle .readdir buf
  | .init, buf => .ok ⟨.init, buf, [], []⟩
  | .initMkfs, buf => .ok ⟨.initMkfs, buf, [], []⟩
  | .destroy, buf => .ok ⟨.destroy, buf, [], []⟩
  | .create, buf => takeModePath .create buf
  | .chmod, buf => takeModePath .chmod buf
  | .truncate, buf => takeTruncate buf

section Operation

variable {buf : List UInt8} {r : Taken}

end Operation

/-- The header of a decrypted message, up to the `switch`. -/
def request (msg : List UInt8) : Except Rejection (OpType × List UInt8) := do
  let ((mtype, otype), buf) ← (takeHeader msg).mapError .underflow
  if mtype ≠ MsgType.toServer.code then .error .badType
  else
    match OpType.ofCode otype with
    | none => .error .badOp
    | some op => .ok (op, buf)

end Requests

section Replies

/-- What the file system does for a handler: how many bytes of the buffer of a read or a write it uses,
and the names that it lists. -/
structure Service where
  moved : UInt64 → ℕ
  moved_le : ∀ size, moved size ≤ size.toNat
  entries : List Path

/-- `MAX_FILE_NAME_LEN`. -/
def maxFileNameLen : UInt32 := 255

/-- `de_len`, the fields of an entry. -/
def deLen : UInt32 := 36

def deFields : List UInt32 := [4, 8, 4, 8, 4, 4, 4]

/-- The loop of `handle_readdir`: the name is copied, the rest of its slot filled, and the fields of the
entry go before all that is there. -/
def dentrySpans (b : FlexBuf) (deDataOff off : UInt64) : List Path → List Span
  | [] => []
  | name :: names =>
    let nameLen := pathLen name
    let copied : Span :=
      ⟨b.hlength.toNat + (deDataOff + off).toNat, nameLen.toNat, b.allocation.toNat⟩
    let off := off + nameLen.toUInt64
    let filled : Span :=
      ⟨b.hlength.toNat + (deDataOff + off).toNat, (maxFileNameLen - nameLen).toNat,
        b.allocation.toNat⟩
    let off := off + (maxFileNameLen - nameLen).toUInt64
    let (b, fields) := b.addHeaders deFields
    copied :: filled :: (fields ++ dentrySpans b (deDataOff + deLen.toUInt64) off names)

def fieldsReply (total : UInt32) (lens : List UInt32) : FlexBuf × List Span :=
  let (b, spans) := FlexBuf.new.resetWithAlloc 0 total 0
  let (b, spans') := b.addHeaders lens
  (b, spans ++ spans')

def reply32 : FlexBuf × List Span := fieldsReply 12 [4, 4, 4]
def reply64 : FlexBuf × List Span := fieldsReply 16 [8, 4, 4]
def replyGetattr : FlexBuf × List Span := fieldsReply 48 [8, 4, 8, 4, 4, 4, 4, 4, 4, 4]

/-- The reply of `handle_read`; the file system writes to it. -/
def readSpans (o : Service) (size : UInt64) : List Span :=
  let (b, spans) := FlexBuf.new.resetWithAlloc size.toUInt32 16 0
  spans ++ (⟨b.hlength.toNat, o.moved size, b.allocation.toNat⟩ :: (b.addHeaders [8, 4, 4]).2)

/-- The two replies of `handle_readdir`, which are built in one buffer. -/
def readdirSpans (o : Service) : List Span :=
  let n := UInt32.ofNat o.entries.length
  let (b, spans) := reply64
  let (b, spans') := b.resetWithAlloc (n * maxFileNameLen) (n * deLen) 0
  spans ++ (spans' ++ dentrySpans b 0 0 o.entries)

def replySpans (o : Service) : Request → List Span
  | .getattr _ => replyGetattr.2
  | .read _ size _ => readSpans o size
  | .readdir _ => readdirSpans o
  | .openFile _ => reply64.2
  | .create _ _ => reply64.2
  | .opendir _ => reply64.2
  | .chmod _ _ => reply64.2
  | .truncate _ _ _ => reply64.2
  | .write _ _ _ _ => reply64.2
  | _ => reply32.2

def transferSpans (o : Service) : Request → List Span
  | .write _ size _ data => [⟨0, o.moved size, data.length⟩]
  | _ => []

def Taken.spans (o : Service) (t : Taken) : List Span :=
  t.strings.map (cStringSpan t.body) ++ (transferSpans o t.req ++ replySpans o t.req)

end Replies

section Strings

variable {buf : List UInt8} {start : ℕ}

lemma cStringSpan_inside : (cStringSpan buf start).Inside ↔ 0 ∈ buf.drop start := by
  have hlen : (buf.drop start).length = buf.length - start := List.length_drop
  have hle := (List.takeWhile_prefix (l := buf.drop start) (· != 0)).length_le
  have hall : (buf.drop start).takeWhile (· != 0) = buf.drop start ↔ 0 ∉ buf.drop start := by
    rw [List.takeWhile_eq_self_iff]
    simp only [bne_iff_ne, ne_eq]
    exact ⟨fun h h0 => h 0 h0 rfl, fun h x hx h0 => h (h0 ▸ hx)⟩
  simp only [Span.Inside, cStringSpan, cString]
  constructor
  · intro h
    by_contra h0
    rw [hall.mpr h0] at h
    omega
  · intro h0
    have hne : ((buf.drop start).takeWhile (· != 0)).length ≠ (buf.drop start).length := by
      intro heq
      exact hall.mp ((List.takeWhile_prefix _).eq_of_length heq) h0
    have := List.length_pos_of_mem h0
    omega

end Strings

section Geometry

lemma reply32_inside : AllInside reply32.2 := by decide

lemma reply64_inside : AllInside reply64.2 := by decide

lemma replyGetattr_inside : AllInside replyGetattr.2 := by decide

lemma reply64_buf : reply64.1 = ⟨16, 0, 16, 0⟩ := by decide

/-- The reply to a read is in its buffer iff the size of the buffer does not overflow and the file system
writes no more bytes than the low 32 bits of the size. -/
theorem readSpans_inside_iff (o : Service) (size : UInt64) :
    AllInside (readSpans o size) ↔
      16 + size.toNat % 2^32 < 2^32 ∧ o.moved size ≤ size.toNat % 2^32 := by
  have hsz : size.toUInt32.toNat = size.toNat % 2^32 := UInt64.toNat_toUInt32 size
  have h16 : (16 : UInt32).toNat = 16 := rfl
  by_cases hfits : 16 + size.toNat % 2^32 < 2^32
  · have hlay : FlexBuf.Fits 16 size.toUInt32 0 := by
      simp only [FlexBuf.Fits, hsz, h16, UInt32.toNat_zero]
      omega
    have hempty : FlexBuf.new.length ≤ size.toUInt32 := UInt32.zero_le
    obtain ⟨hlaid, hin⟩ := FlexBuf.laidOut_resetWithAlloc FlexBuf.exact_new hlay hempty
    have hnew := FlexBuf.resetWithAlloc_new (by decide : (0 : UInt32) < 16) hlay
    have hexact := hlaid.exact
    have hfields := (FlexBuf.addHeaders_of_le [8, 4, 4] hexact
      (by rw [hnew]; exact le_refl 16)).2.2.2.2
    rw [hnew] at hexact
    simp only [FlexBuf.Exact, hsz, h16, UInt32.toNat_zero] at hexact
    have hmoved : Span.Inside ⟨(16 : UInt32).toNat, o.moved size, (16 + size.toUInt32 + 0).toNat⟩ ↔
        o.moved size ≤ size.toNat % 2^32 := by
      simp only [Span.Inside, h16]
      omega
    simp only [readSpans, allInside_append, allInside_cons, hin, hfields, hfits, true_and, and_true]
    rw [hnew]
    exact hmoved
  · refine iff_of_false (fun h => ?_) fun h => hfits h.1
    refine FlexBuf.not_inside_resetWithAlloc_new (by decide : (0 : UInt32) < 16) ?_
      (allInside_append.mp h).1
    rw [hsz, h16]
    omega

lemma sum_deFields : (deFields.map UInt32.toNat).sum = 36 := by decide

theorem dentrySpans_inside_iff {b : FlexBuf} {deDataOff off : UInt64} {names : List Path}
    (hb : b.Exact) (hroom : 36 * names.length ≤ b.hlength.toNat)
    (hdata : deDataOff.toNat + off.toNat + 255 * names.length ≤ b.length.toNat + b.tlength.toNat) :
    AllInside (dentrySpans b deDataOff off names) ↔ ∀ name ∈ names, pathLen name ≤ maxFileNameLen := by
  induction names generalizing b deDataOff off with
  | nil => simp [dentrySpans]
  | cons name names ih =>
    rw [List.length_cons] at hroom hdata
    obtain ⟨hexact, hhl, hl, htl, hin⟩ :=
      FlexBuf.addHeaders_of_le deFields hb (by rw [sum_deFields]; omega)
    rw [sum_deFields] at hhl hl
    have hlt := b.allocation.toNat_lt
    have hnlt := (pathLen name).toNat_lt
    have hsize := hb
    unfold FlexBuf.Exact at hsize
    have hmax : maxFileNameLen.toNat = 255 := rfl
    have hstart : (deDataOff + off).toNat = deDataOff.toNat + off.toNat := by
      rw [UInt64.toNat_add]
      omega
    have hnext : (off + (pathLen name).toUInt64).toNat = off.toNat + (pathLen name).toNat := by
      rw [UInt64.toNat_add, UInt32.toNat_toUInt64]
      omega
    have hfillStart : (deDataOff + (off + (pathLen name).toUInt64)).toNat =
        deDataOff.toNat + (off.toNat + (pathLen name).toNat) := by
      rw [UInt64.toNat_add, hnext]
      omega
    simp only [dentrySpans, allInside_cons, allInside_append, List.forall_mem_cons, Span.Inside,
      hstart, hfillStart]
    by_cases hname : pathLen name ≤ maxFileNameLen
    · have hle := UInt32.le_iff_toNat_le.mp hname
      have hsub := UInt32.toNat_sub_of_le _ _ hname
      have hend : (off + (pathLen name).toUInt64 +
          (maxFileNameLen - pathLen name).toUInt64).toNat = off.toNat + 255 := by
        rw [UInt64.toNat_add, hnext, UInt32.toNat_toUInt64, hsub]
        omega
      have hde : (deDataOff + deLen.toUInt64).toNat = deDataOff.toNat + 36 := by
        rw [UInt64.toNat_add, UInt32.toNat_toUInt64]
        have : deLen.toNat = 36 := rfl
        omega
      rw [ih hexact (by omega) (by rw [hde, hend, hl, htl]; omega)]
      simp only [hname, true_and, hin, hsub]
      exact ⟨fun h => h.2.2, fun h => ⟨by omega, by omega, h⟩⟩
    · -- the number of bytes to fill is negative, and taken for an unsigned one
      have hgt : maxFileNameLen.toNat < (pathLen name).toNat :=
        UInt32.lt_iff_toNat_lt.mp (UInt32.not_le.mp hname)
      have hsub : (maxFileNameLen - pathLen name).toNat = 2^32 - (pathLen name).toNat + 255 := by
        rw [UInt32.toNat_sub, hmax]
        omega
      refine iff_of_false (fun h => ?_) fun h => hname h.1
      rw [hsub] at h
      omega

theorem readdirSpans_inside_iff (o : Service) (hn : 291 * o.entries.length < 2^32) :
    AllInside (readdirSpans o) ↔ ∀ name ∈ o.entries, pathLen name ≤ maxFileNameLen := by
  simp only [readdirSpans, allInside_append, reply64_inside, true_and]
  cases hentries : o.entries with
  | nil => exact iff_of_true (by decide) (by simp)
  | cons name names =>
    rw [← hentries]
    have hpos : 0 < o.entries.length := by simp [hentries]
    have hcount : (UInt32.ofNat o.entries.length).toNat = o.entries.length := by
      rw [UInt32.toNat_ofNat']
      omega
    have hnames : (UInt32.ofNat o.entries.length * maxFileNameLen).toNat = 255 * o.entries.length := by
      rw [UInt32.toNat_mul, hcount, show maxFileNameLen.toNat = 255 from rfl]
      omega
    have hfields : (UInt32.ofNat o.entries.length * deLen).toNat = 36 * o.entries.length := by
      rw [UInt32.toNat_mul, hcount, show deLen.toNat = 36 from rfl]
      omega
    have hfits : FlexBuf.Fits (UInt32.ofNat o.entries.length * deLen)
        (UInt32.ofNat o.entries.length * maxFileNameLen) 0 := by
      simp only [FlexBuf.Fits, hnames, hfields, UInt32.toNat_zero]
      omega
    obtain ⟨hlaid, hin⟩ := FlexBuf.laidOut_resetWithAlloc (b := reply64.1) (by rw [reply64_buf]; rfl)
      hfits (by rw [reply64_buf, UInt32.le_iff_toNat_le, hnames]; change 16 ≤ _; omega)
    have hroom := UInt32.le_iff_toNat_le.mp hlaid.hlength
    rw [hfields] at hroom
    have hdata := hlaid.length
    rw [and_iff_right hin, dentrySpans_inside_iff hlaid.exact hroom]
    rw [hdata, hnames, UInt64.toNat_zero]
    omega

end Geometry

section Messages

def Taken.Matched (t : Taken) : Prop := t.lens ≠ [] → t.lens.sum = t.body.length

/-- A handler that takes a message and does not turn it away stays inside of the message and of its
buffers, and the lengths that the message declares are right. -/
def StaysInside (o : Service) (msg : List UInt8) : Prop :=
  ∀ op buf t, request msg = .ok (op, buf) → parse op buf = .ok t → t.Matched ∧ AllInside (t.spans o)

def ReplyFits (o : Service) : Request → Prop
  | .read _ size _ => 16 + size.toNat % 2^32 < 2^32 ∧ o.moved size ≤ size.toNat % 2^32
  | .readdir _ => ∀ name ∈ o.entries, pathLen name ≤ maxFileNameLen
  | _ => True

def WellFramed (o : Service) (msg : List UInt8) : Prop :=
  ∀ op buf t, request msg = .ok (op, buf) → parse op buf = .ok t →
    t.Matched ∧ (∀ start ∈ t.strings, 0 ∈ t.body.drop start) ∧ ReplyFits o t.req

lemma replySpans_inside_iff (o : Service) (hn : 291 * o.entries.length < 2^32) (req : Request) :
    AllInside (replySpans o req) ↔ ReplyFits o req := by
  cases req with
  | getattr path => exact iff_of_true replyGetattr_inside trivial
  | read fh size off => exact readSpans_inside_iff o size
  | readdir fh => exact readdirSpans_inside_iff o hn
  | openFile | create | opendir | chmod | truncate | write =>
    exact iff_of_true reply64_inside trivial
  | mkdir | unlink | rmdir | rename | release | fsync | init | initMkfs | destroy =>
    exact iff_of_true reply32_inside trivial

lemma takePath_transfer {o : Service} {mk : Path → Request} {buf : List UInt8} {t : Taken}
    (hmk : ∀ path, transferSpans o (mk path) = []) (ht : takePath mk buf = .ok t) :
    transferSpans o t.req = [] := by
  simp only [takePath, bind_eq_ok] at ht
  obtain ⟨⟨n, body⟩, -, ht⟩ := ht
  split_ifs at ht
  cases ht
  exact hmk _

lemma takeModePath_transfer {o : Service} {mk : Path → UInt32 → Request} {buf : List UInt8} {t : Taken}
    (hmk : ∀ path mode, transferSpans o (mk path mode) = []) (ht : takeModePath mk buf = .ok t) :
    transferSpans o t.req = [] := by
  simp only [takeModePath, bind_eq_ok] at ht
  obtain ⟨⟨mode, body⟩, -, ht⟩ := ht
  exact takePath_transfer (hmk · mode) ht

lemma takeHandle_transfer {o : Service} {mk : UInt64 → Request} {buf : List UInt8} {t : Taken}
    (hmk : ∀ fh, transferSpans o (mk fh) = []) (ht : takeHandle mk buf = .ok t) :
    transferSpans o t.req = [] := by
  simp only [takeHandle, bind_eq_ok] at ht
  obtain ⟨⟨fh, body⟩, -, ht⟩ := ht
  split_ifs at ht
  cases ht
  exact hmk _

lemma takeWrite_transfer {o : Service} {buf : List UInt8} {t : Taken} (ht : takeWrite buf = .ok t)
    (hmatched : t.Matched) : AllInside (transferSpans o t.req) := by
  simp only [takeWrite, bind_eq_ok] at ht
  obtain ⟨⟨fh, _⟩, -, ⟨size, _⟩, -, ⟨off, body⟩, -, ht⟩ := ht
  cases ht
  have hsize := hmatched (List.cons_ne_nil _ _)
  rw [List.sum_singleton] at hsize
  simp only [transferSpans, allInside_cons, Span.Inside, zero_add, allInside_nil, and_true]
  exact (o.moved_le size).trans hsize.le

lemma transferSpans_inside (o : Service) {op : OpType} {buf : List UInt8} {t : Taken}
    (ht : parse op buf = .ok t) (hmatched : t.Matched) : AllInside (transferSpans o t.req) := by
  suffices transferSpans o t.req = [] ∨ op = .write by
    rcases this with hnil | rfl
    · rw [hnil]
      exact allInside_nil
    · exact takeWrite_transfer ht hmatched
  cases op with
  | getattr | unlink | rmdir | openFile | opendir =>
    exact .inl (takePath_transfer (fun _ => rfl) ht)
  | mkdir | create | chmod => exact .inl (takeModePath_transfer (fun _ _ => rfl) ht)
  | release | readdir => exact .inl (takeHandle_transfer (fun _ => rfl) ht)
  | write => exact .inr rfl
  | init | initMkfs | destroy =>
    cases ht
    exact .inl rfl
  | truncate =>
    simp only [parse, takeTruncate, bind_eq_ok] at ht
    obtain ⟨_, -, _, -, ht⟩ := ht
    exact .inl (takePath_transfer (fun _ => rfl) ht)
  | read =>
    simp only [parse, takeRead, bind_eq_ok] at ht
    obtain ⟨_, -, _, -, _, -, ht⟩ := ht
    cases ht
    exact .inl rfl
  | rename =>
    simp only [parse, takeRename, bind_eq_ok] at ht
    obtain ⟨_, -, _, -, ht⟩ := ht
    split_ifs at ht
    cases ht
    exact .inl rfl
  | fsync =>
    simp only [parse, takeFsync, bind_eq_ok] at ht
    obtain ⟨_, -, _, -, ht⟩ := ht
    split_ifs at ht
    cases ht
    exact .inl rfl

/-- For every message and whatever the file system does, a handler stays inside of the message and of
its buffers and takes no wrong lengths, if and only if the message is turned away or well framed. -/
theorem stays_inside_iff (o : Service) (hn : 291 * o.entries.length < 2^32) (msg : List UInt8) :
    StaysInside o msg ↔ WellFramed o msg := by
  refine forall₃_congr fun op buf t => forall_congr' fun _ => forall_congr' fun ht => ?_
  refine and_congr_right fun hmatched => ?_
  rw [Taken.spans, allInside_append, allInside_append, replySpans_inside_iff o hn]
  rw [and_iff_right (transferSpans_inside o ht hmatched)]
  simp only [AllInside, List.forall_mem_map, cStringSpan_inside]

def fullService : Service := ⟨UInt64.toNat, fun _ => le_refl _, []⟩

theorem stays_inside_unlink :
    291 * fullService.entries.length < 2^32 ∧ WellFramed fullService (Request.unlink [47, 97]).bytes ∧
      StaysInside fullService (Request.unlink [47, 97]).bytes := by
  have hframed : WellFramed fullService (Request.unlink [47, 97]).bytes := by
    intro op buf t hreq ht
    cases hreq
    cases ht
    exact ⟨fun _ => rfl, by decide, trivial⟩
  exact ⟨by decide, hframed, (stays_inside_iff _ (by decide) _).mpr hframed⟩

/-- A renaming whose first name declares 4096 bytes: the second one is read far behind the message. -/
theorem rename_reads_outside :
    ¬StaysInside fullService (header .toServer .rename (u32 4096 ++ (u32 3 ++ [47, 97, 0, 47, 98, 0]))) := by
  intro h
  have hin := h .rename _ _ rfl rfl
  exact absurd hin.2 (by decide)

end Messages

end Bfs.Server
