import Bfs.Lib.ByteSeq
import Bfs.Lib.Fallible
import Bfs.Utils.FlexBuffer

/-! `bfsFlexibleBuffer` with its memory, and the byte sequence that it holds. The operations are those of
a sequence that grows and shrinks at both ends, as long as the sizes can be added with 32 bits. -/
namespace Bfs.Utils
open ByteSeq Fallible

inductive FlexErr
  | nullData
  | headerUnderflow
  | trailerUnderflow
  | nullCopy
  | outside
  deriving DecidableEq, Repr

def FlexErr.message : FlexErr → Option String
  | .nullData => some "Flexible buffer remove header on NULL data"
  | .headerUnderflow => some "Flexible buffer remove header underflow"
  | .trailerUnderflow => some "Flexible buffer remove trailer underflow"
  | .nullCopy => some "Flex buffer length>0, NULL buffer"
  | .outside => none

namespace FlexBuf

def takeHeader (b : FlexBuf) (len : UInt32) : FlexBuf :=
  { b with hlength := b.hlength - len, length := b.length + len }

def dropHeader (b : FlexBuf) (len : UInt32) : FlexBuf :=
  { b with hlength := b.hlength + len, length := b.length - len }

def takeTrailer (b : FlexBuf) (len : UInt32) : FlexBuf :=
  { b with tlength := b.tlength - len, length := b.length + len }

def dropTrailer (b : FlexBuf) (len : UInt32) : FlexBuf :=
  { b with tlength := b.tlength + len, length := b.length - len }

end FlexBuf

structure FlexData where
  layout : FlexBuf
  buffer : Option (List UInt8)

namespace FlexData

def new : FlexData := ⟨FlexBuf.new, none⟩

def withLayout (d : FlexData) (layout : FlexBuf) : FlexData := { d with layout }

def mem (d : FlexData) : List UInt8 := d.buffer.getD []

/-- `getBuffer` and `getLength`. -/
def content (d : FlexData) : List UInt8 := slice d.mem d.layout.hlength.toNat d.layout.length.toNat

@[simp] lemma layout_withLayout (d : FlexData) (layout : FlexBuf) : (d.withLayout layout).layout = layout := rfl
@[simp] lemma mem_withLayout (d : FlexData) (layout : FlexBuf) : (d.withLayout layout).mem = d.mem := rfl

section Operations

/-- `memcpy` into the buffer. -/
def store (d : FlexData) (start : ℕ) (dat : List UInt8) : Except FlexErr FlexData :=
  if start + dat.length ≤ d.mem.length then
    .ok { d with buffer := d.buffer.map fun bytes => splice bytes start dat }
  else .error .outside

/-- `resizeAllocation`. The data is copied to a new allocation, and is left where it is when the layout
is centred in the old one. -/
def resizeAllocation (d : FlexData) (minhd newlen mintl : UInt32) : Except FlexErr FlexData :=
  let newsz := minhd + newlen + mintl
  let (layout, spans) := d.layout.resizeAllocation minhd newlen mintl
  if minhd ≤ d.layout.hlength ∧ newlen = d.layout.length ∧ mintl ≤ d.layout.tlength ∨
      newsz ≤ d.layout.allocation then .ok ⟨layout, d.buffer⟩
  else if 0 < d.layout.length ∧ d.buffer = none then .error .nullCopy
  else if AllInside spans then
    .ok ⟨layout, some (splice (List.replicate newsz.toNat 0) minhd.toNat d.content)⟩
  else .error .outside

def setData (d : FlexData) (dat : List UInt8) : Except FlexErr FlexData := do
  let len := UInt32.ofNat dat.length
  let d ← if len ≠ d.layout.length then d.resizeAllocation d.layout.hlength len d.layout.tlength
    else .ok d
  let d ← d.store d.layout.hlength.toNat dat
  .ok (d.withLayout { d.layout with length := len })

def ofData (dat : List UInt8) : Except FlexErr FlexData := new.setData dat

def resetWithAlloc (d : FlexData) (sz : UInt32) (fill : UInt8) (hpadsz tpadsz : UInt32) :
    Except FlexErr FlexData := do
  let d ← if d.layout.length ≠ sz ∨ d.layout.hlength < hpadsz ∨ d.layout.tlength < tpadsz then
    d.resizeAllocation hpadsz sz tpadsz else .ok d
  d.store d.layout.hlength.toNat (List.replicate sz.toNat fill)

def addHeader (d : FlexData) (dat : List UInt8) : Except FlexErr FlexData := do
  let len := UInt32.ofNat dat.length
  let d ← if d.layout.hlength < len then
    d.resizeAllocation (FlexBuf.defaultPad + len) d.layout.length d.layout.tlength else .ok d
  let d ← d.store (d.layout.hlength - len).toNat dat
  .ok (d.withLayout (d.layout.takeHeader len))

/-- `removeHeader`: the bytes taken off, and the buffer. -/
def removeHeader (d : FlexData) (len : UInt32) : Except FlexErr (List UInt8 × FlexData) :=
  if d.buffer = none then .error .nullData
  else if d.layout.length < len then .error .headerUnderflow
  else if d.mem.length < d.layout.hlength.toNat + len.toNat then .error .outside
  else .ok (slice d.mem d.layout.hlength.toNat len.toNat, d.withLayout (d.layout.dropHeader len))

def addTrailer (d : FlexData) (dat : List UInt8) : Except FlexErr FlexData := do
  let len := UInt32.ofNat dat.length
  let d ← if d.layout.tlength < len then
    d.resizeAllocation d.layout.hlength d.layout.length (len + FlexBuf.defaultPad) else .ok d
  let d ← d.store (d.layout.hlength + d.layout.length).toNat dat
  .ok (d.withLayout (d.layout.takeTrailer len))

/-- `removeTrailer`: the bytes taken off, and the buffer. -/
def removeTrailer (d : FlexData) (len : UInt32) : Except FlexErr (List UInt8 × FlexData) :=
  if d.buffer = none then .error .nullData
  else if d.layout.length < len then .error .trailerUnderflow
  else
    let start := d.layout.hlength + d.layout.length - len
    if d.mem.length < start.toNat + len.toNat then .error .outside
    else .ok (slice d.mem start.toNat len.toNat, d.withLayout (d.layout.dropTrailer len))

def overwrite (d : FlexData) (dat : List UInt8) : Except FlexErr FlexData :=
  d.store d.layout.hlength.toNat dat

end Operations

section Holding

/-- The buffer holds the sequence, between a header part and a trailer part that fill the rest of the
allocation. -/
structure Holds (d : FlexData) (xs : List UInt8) : Prop where
  parts : ∃ front back, d.mem = front ++ (xs ++ back) ∧ front.length = d.layout.hlength.toNat ∧
    back.length = d.layout.tlength.toNat
  length : xs.length = d.layout.length.toNat
  size : d.mem.length = d.layout.allocation.toNat

variable {d : FlexData} {xs : List UInt8}

lemma Holds.content (h : d.Holds xs) : d.content = xs := by
  obtain ⟨front, back, hmem, hfront, -⟩ := h.parts
  rw [FlexData.content, hmem, slice_parts _ _ _ hfront h.length]

lemma Holds.exact (h : d.Holds xs) : d.layout.Exact := by
  obtain ⟨front, back, hmem, hfront, hback⟩ := h.parts
  have hsize := h.size
  have hlen := h.length
  rw [hmem, List.length_append, List.length_append] at hsize
  unfold FlexBuf.Exact
  omega

lemma holds_new : new.Holds [] := ⟨⟨[], [], rfl, rfl, rfl⟩, rfl, rfl⟩

lemma Holds.allocated (h : d.Holds xs) (hxs : xs ≠ []) : d.buffer ≠ none := by
  intro hnone
  obtain ⟨front, back, hmem, -, -⟩ := h.parts
  rw [mem, hnone, Option.getD_none] at hmem
  have hnil := List.append_eq_nil_iff.mp hmem.symm
  exact hxs (List.append_eq_nil_iff.mp hnil.2).1

lemma Holds.not_nullCopy (h : d.Holds xs) : ¬(0 < d.layout.length ∧ d.buffer = none) := by
  rintro ⟨hpos, hnone⟩
  have hpos' : 0 < d.layout.length.toNat := UInt32.lt_iff_toNat_lt.mp hpos
  apply h.allocated _ hnone
  apply List.ne_nil_of_length_pos
  rw [h.length]
  exact hpos'

lemma store_parts {front mid back dat : List UInt8} {start : ℕ}
    (hmem : d.mem = front ++ (mid ++ back)) (hstart : front.length = start)
    (hlen : dat.length = mid.length) :
    ∃ d', d.store start dat = .ok d' ∧ d'.layout = d.layout ∧ d'.mem = front ++ (dat ++ back) := by
  have hroom : start + dat.length ≤ d.mem.length := by
    rw [hmem, List.length_append, List.length_append]
    omega
  refine ⟨_, if_pos hroom, rfl, ?_⟩
  cases hbuf : d.buffer with
  | none =>
    -- all parts are empty
    rw [mem, hbuf, Option.getD_none] at hmem
    obtain ⟨rfl, hrest⟩ := List.append_eq_nil_iff.mp hmem.symm
    obtain ⟨rfl, rfl⟩ := List.append_eq_nil_iff.mp hrest
    obtain rfl := List.length_eq_zero_iff.mp hlen
    simp [mem]
  | some bytes =>
    rw [mem, hbuf, Option.getD_some] at hmem
    simp only [mem, Option.map_some, Option.getD_some, hmem, splice_parts _ _ hstart hlen]

lemma store_eq_ok {d' : FlexData} {start : ℕ} {dat : List UInt8} (h : d.store start dat = .ok d') :
    start + dat.length ≤ d.mem.length ∧ d'.layout = d.layout ∧ d'.mem.length = d.mem.length := by
  rw [store] at h
  split_ifs at h with hin
  obtain rfl := Except.ok.inj h
  refine ⟨hin, rfl, ?_⟩
  cases hbuf : d.buffer with
  | none => simp [mem, hbuf]
  | some bytes =>
    rw [mem, hbuf, Option.getD_some] at hin
    simp only [mem, hbuf, Option.map_some, Option.getD_some, length_splice_inside _ _ _ hin]

theorem holds_overwrite (h : d.Holds xs) {ys : List UInt8} (hlen : ys.length = xs.length) :
    ∃ d', d.overwrite ys = .ok d' ∧ d'.layout = d.layout ∧ d'.Holds ys := by
  obtain ⟨front, back, hmem, hfront, hback⟩ := h.parts
  obtain ⟨d', hstore, hlayout, hmem'⟩ := store_parts hmem hfront hlen
  refine ⟨d', hstore, hlayout, ⟨front, back, hmem', ?_, ?_⟩, ?_, ?_⟩
  · rw [hlayout, hfront]
  · rw [hlayout, hback]
  · rw [hlayout, hlen, h.length]
  · rw [hlayout, ← h.size, hmem, hmem']
    simp only [List.length_append, hlen]

lemma resizeAllocation_anew {minhd newlen mintl : UInt32}
    (hkeep : ¬(minhd ≤ d.layout.hlength ∧ newlen = d.layout.length ∧ mintl ≤ d.layout.tlength))
    (hsz : ¬minhd + newlen + mintl ≤ d.layout.allocation)
    (hnull : ¬(0 < d.layout.length ∧ d.buffer = none))
    (hin : AllInside (d.layout.resizeAllocation minhd newlen mintl).2) :
    d.resizeAllocation minhd newlen mintl =
      .ok ⟨⟨minhd + newlen + mintl, minhd, newlen, mintl⟩,
        some (splice (List.replicate (minhd + newlen + mintl).toNat 0) minhd.toNat d.content)⟩ := by
  simp only [resizeAllocation, if_neg (not_or.mpr ⟨hkeep, hsz⟩), if_neg hnull, if_pos hin]
  simp only [FlexBuf.resizeAllocation, if_neg hkeep, if_neg hsz]

lemma holds_resizeAllocation_of_lt (h : d.Holds xs) {minhd mintl : UInt32}
    (hfits : FlexBuf.Fits minhd d.layout.length mintl)
    (hlt : d.layout.allocation.toNat < minhd.toNat + d.layout.length.toNat + mintl.toNat) :
    ∃ d', d.resizeAllocation minhd d.layout.length mintl = .ok d' ∧ d'.Holds xs ∧
      d'.layout.hlength = minhd ∧ d'.layout.tlength = mintl := by
  have hexact := h.exact
  have hsum := hfits.toNat_add
  have hkeep : ¬(minhd ≤ d.layout.hlength ∧ d.layout.length = d.layout.length ∧
      mintl ≤ d.layout.tlength) := by
    rintro ⟨hhd, -, htl⟩
    have hhd' := UInt32.le_iff_toNat_le.mp hhd
    have htl' := UInt32.le_iff_toNat_le.mp htl
    unfold FlexBuf.Exact at hexact
    omega
  have hsz : ¬minhd + d.layout.length + mintl ≤ d.layout.allocation := by
    rw [UInt32.le_iff_toNat_le, hsum]
    omega
  have hin := (FlexBuf.laidOut_resizeAllocation hexact hfits (UInt32.le_refl _)).2
  have hzeros : List.replicate (minhd + d.layout.length + mintl).toNat (0 : UInt8) =
      List.replicate minhd.toNat 0 ++ (List.replicate xs.length 0 ++ List.replicate mintl.toNat 0) := by
    rw [hsum, h.length, ← List.replicate_add, ← List.replicate_add, Nat.add_assoc]
  refine ⟨_, resizeAllocation_anew hkeep hsz h.not_nullCopy hin, ⟨⟨List.replicate minhd.toNat 0,
    List.replicate mintl.toNat 0, ?_, by simp, by simp⟩, h.length, ?_⟩, rfl, rfl⟩
  · simp only [mem, Option.getD_some, h.content, hzeros]
    exact splice_parts _ _ (by simp) (by simp)
  · simp only [mem, Option.getD_some, h.content, hzeros]
    rw [splice_parts _ _ (by simp) (by simp)]
    simp only [List.length_append, List.length_replicate, hsum, h.length]
    omega

end Holding

section Deque

variable {d : FlexData} {xs : List UInt8}

def need (d : FlexData) : ℕ :=
  max d.layout.hlength.toNat 32 + d.layout.length.toNat + max d.layout.tlength.toNat 32

lemma toNat_pad : FlexBuf.defaultPad.toNat = 32 := rfl

lemma toNat_dataLen {dat : List UInt8} (h : dat.length < 2^32) :
    (UInt32.ofNat dat.length).toNat = dat.length := by
  rw [UInt32.toNat_ofNat', Nat.mod_eq_of_lt h]

lemma holds_store_header (h : d.Holds xs) {dat : List UInt8} {len : UInt32}
    (hlen : len.toNat = dat.length) (hroom : len ≤ d.layout.hlength) :
    ∃ d', d.store (d.layout.hlength - len).toNat dat = .ok d' ∧ d'.layout = d.layout ∧
      (d'.withLayout (d.layout.takeHeader len)).Holds (dat ++ xs) ∧
      (d'.withLayout (d.layout.takeHeader len)).need ≤ d.need + dat.length := by
  obtain ⟨front, back, hmem, hfront, hback⟩ := h.parts
  have hexact := h.exact
  unfold FlexBuf.Exact at hexact
  have hlt := d.layout.allocation.toNat_lt
  have hle := UInt32.le_iff_toNat_le.mp hroom
  have hsub := UInt32.toNat_sub_of_le _ _ hroom
  have hadd : (d.layout.length + len).toNat = d.layout.length.toNat + len.toNat := by
    rw [UInt32.toNat_add]
    omega
  have hsplit : d.mem = front.take (d.layout.hlength - len).toNat ++
      (front.drop (d.layout.hlength - len).toNat ++ (xs ++ back)) := by
    rw [← List.append_assoc, List.take_append_drop, hmem]
  have htake : (front.take (d.layout.hlength - len).toNat).length = (d.layout.hlength - len).toNat := by
    rw [List.length_take]
    omega
  have hdrop : dat.length = (front.drop (d.layout.hlength - len).toNat).length := by
    rw [List.length_drop]
    omega
  obtain ⟨d', hstore, hlayout, hmem'⟩ := store_parts hsplit htake hdrop
  refine ⟨d', hstore, hlayout, ⟨⟨_, back, ?_, htake, hback⟩, ?_, ?_⟩, ?_⟩
  · rw [mem_withLayout, hmem', List.append_assoc]
  · rw [List.length_append, h.length, layout_withLayout, FlexBuf.takeHeader, hadd, hlen, Nat.add_comm]
  · rw [mem_withLayout, layout_withLayout, FlexBuf.takeHeader, ← h.size, hmem', hsplit]
    simp only [List.length_append, hdrop]
  · simp only [need, layout_withLayout, FlexBuf.takeHeader, hsub, hadd]
    omega

lemma holds_addHeader_of_le (h : d.Holds xs) {dat : List UInt8}
    (hlen : (UInt32.ofNat dat.length).toNat = dat.length)
    (hroom : UInt32.ofNat dat.length ≤ d.layout.hlength) :
    ∃ d', d.addHeader dat = .ok d' ∧ d'.Holds (dat ++ xs) ∧ d'.need ≤ d.need + dat.length ∧
      d'.layout = d.layout.takeHeader (UInt32.ofNat dat.length) := by
  obtain ⟨d', hstore, hlayout, hholds, hneed⟩ := holds_store_header h hlen hroom
  refine ⟨_, ?_, hholds, hneed, rfl⟩
  simp only [addHeader, if_neg (UInt32.not_lt.mpr hroom), ok_bind, hstore, hlayout]

def HeaderFits (d : FlexData) (len : ℕ) : Prop :=
  len ≤ d.layout.hlength.toNat ∨ 32 + len + d.layout.length.toNat + d.layout.tlength.toNat < 2^32

/-- `addHeader` prepends. -/
theorem holds_addHeader_of_fits (h : d.Holds xs) {dat : List UInt8} (hlt : dat.length < 2^32)
    (hfits : d.HeaderFits dat.length) :
    ∃ d', d.addHeader dat = .ok d' ∧ d'.Holds (dat ++ xs) ∧ d'.need ≤ d.need + dat.length := by
  have hlen := toNat_dataLen hlt
  by_cases hroom : d.layout.hlength < UInt32.ofNat dat.length
  · -- a new allocation with room for the header and the default pad before it
    have hlt := UInt32.lt_iff_toNat_lt.mp hroom
    rw [hlen] at hlt
    have hwrap := hfits.resolve_left (by omega)
    have hpad : (FlexBuf.defaultPad + UInt32.ofNat dat.length).toNat = 32 + dat.length := by
      rw [UInt32.toNat_add, toNat_pad, hlen]
      omega
    have hexact := h.exact
    unfold FlexBuf.Exact at hexact
    have hwide : FlexBuf.Fits (FlexBuf.defaultPad + UInt32.ofNat dat.length) d.layout.length
        d.layout.tlength := by
      unfold FlexBuf.Fits
      omega
    obtain ⟨d₁, hsize, hholds, hhd, htl⟩ := holds_resizeAllocation_of_lt h hwide (by omega)
    have hle : UInt32.ofNat dat.length ≤ d₁.layout.hlength := by
      rw [UInt32.le_iff_toNat_le, hhd, hpad]
      omega
    have hsub := UInt32.toNat_sub_of_le _ _ hle
    obtain ⟨d₂, hstore, hlayout, hholds₂, -⟩ := holds_store_header hholds hlen hle
    refine ⟨_, ?_, hholds₂, ?_⟩
    · simp only [addHeader, if_pos hroom, hsize, ok_bind, hstore, hlayout]
    · have hlen₀ := h.length
      have hlen₂ := hholds₂.length
      rw [List.length_append, layout_withLayout, FlexBuf.takeHeader] at hlen₂
      rw [hhd, hpad, hlen] at hsub
      simp only [need, layout_withLayout, FlexBuf.takeHeader, hhd, hsub, htl, ← hlen₂]
      omega
  · obtain ⟨d', hadd, hholds, hneed', -⟩ := holds_addHeader_of_le h hlen (UInt32.not_lt.mp hroom)
    exact ⟨d', hadd, hholds, hneed'⟩

theorem holds_addHeader (h : d.Holds xs) {dat : List UInt8} (hfits : d.need + dat.length < 2^32) :
    ∃ d', d.addHeader dat = .ok d' ∧ d'.Holds (dat ++ xs) ∧ d'.need ≤ d.need + dat.length := by
  unfold need at hfits
  exact holds_addHeader_of_fits h (by omega) (.inr (by omega))

lemma holds_store_trailer (h : d.Holds xs) {dat : List UInt8} {len : UInt32}
    (hlen : len.toNat = dat.length) (hroom : len ≤ d.layout.tlength) :
    ∃ d', d.store (d.layout.hlength + d.layout.length).toNat dat = .ok d' ∧ d'.layout = d.layout ∧
      (d'.withLayout (d.layout.takeTrailer len)).Holds (xs ++ dat) ∧
      (d'.withLayout (d.layout.takeTrailer len)).need ≤ d.need + dat.length := by
  obtain ⟨front, back, hmem, hfront, hback⟩ := h.parts
  have hexact := h.exact
  unfold FlexBuf.Exact at hexact
  have hlt := d.layout.allocation.toNat_lt
  have hle := UInt32.le_iff_toNat_le.mp hroom
  have hsub := UInt32.toNat_sub_of_le _ _ hroom
  have hadd : (d.layout.length + len).toNat = d.layout.length.toNat + len.toNat := by
    rw [UInt32.toNat_add]
    omega
  have hend : (d.layout.hlength + d.layout.length).toNat =
      d.layout.hlength.toNat + d.layout.length.toNat := by
    rw [UInt32.toNat_add]
    omega
  have hsplit : d.mem = (front ++ xs) ++ (back.take len.toNat ++ back.drop len.toNat) := by
    rw [List.take_append_drop, List.append_assoc, hmem]
  have hstart : (front ++ xs).length = (d.layout.hlength + d.layout.length).toNat := by
    rw [List.length_append, hend, hfront, h.length]
  have htake : dat.length = (back.take len.toNat).length := by
    rw [List.length_take]
    omega
  obtain ⟨d', hstore, hlayout, hmem'⟩ := store_parts hsplit hstart htake
  refine ⟨d', hstore, hlayout, ⟨⟨front, back.drop len.toNat, ?_, hfront, ?_⟩, ?_, ?_⟩, ?_⟩
  · rw [mem_withLayout, hmem', List.append_assoc, List.append_assoc]
  · rw [List.length_drop, hback, layout_withLayout, FlexBuf.takeTrailer, hsub]
  · rw [List.length_append, h.length, layout_withLayout, FlexBuf.takeTrailer, hadd, hlen]
  · rw [mem_withLayout, layout_withLayout, FlexBuf.takeTrailer, ← h.size, hmem', hsplit]
    simp only [List.length_append, htake]
  · simp only [need, layout_withLayout, FlexBuf.takeTrailer, hsub, hadd]
    omega

def TrailerFits (d : FlexData) (len : ℕ) : Prop :=
  len ≤ d.layout.tlength.toNat ∨ d.layout.hlength.toNat + d.layout.length.toNat + len + 32 < 2^32

/-- `addTrailer` appends. -/
theorem holds_addTrailer_of_fits (h : d.Holds xs) {dat : List UInt8} (hlt : dat.length < 2^32)
    (hfits : d.TrailerFits dat.length) :
    ∃ d', d.addTrailer dat = .ok d' ∧ d'.Holds (xs ++ dat) ∧ d'.need ≤ d.need + dat.length := by
  have hlen := toNat_dataLen hlt
  simp only [addTrailer]
  split_ifs with hroom
  · -- a new allocation with room for the trailer and the default pad behind it
    have hlt := UInt32.lt_iff_toNat_lt.mp hroom
    rw [hlen] at hlt
    have hwrap := hfits.resolve_left (by omega)
    have hpad : (UInt32.ofNat dat.length + FlexBuf.defaultPad).toNat = dat.length + 32 := by
      rw [UInt32.toNat_add, toNat_pad, hlen]
      omega
    have hexact := h.exact
    unfold FlexBuf.Exact at hexact
    have hwide : FlexBuf.Fits d.layout.hlength d.layout.length
        (UInt32.ofNat dat.length + FlexBuf.defaultPad) := by
      unfold FlexBuf.Fits
      omega
    obtain ⟨d₁, hsize, hholds, hhd, htl⟩ := holds_resizeAllocation_of_lt h hwide (by omega)
    have hle : UInt32.ofNat dat.length ≤ d₁.layout.tlength := by
      rw [UInt32.le_iff_toNat_le, htl, hpad]
      omega
    have hsub := UInt32.toNat_sub_of_le _ _ hle
    obtain ⟨d₂, hstore, hlayout, hholds₂, -⟩ := holds_store_trailer hholds hlen hle
    refine ⟨_, ?_, hholds₂, ?_⟩
    · rw [hsize, ok_bind, hstore, ok_bind, hlayout]
    · have hlen₀ := h.length
      have hlen₂ := hholds₂.length
      rw [List.length_append, layout_withLayout, FlexBuf.takeTrailer] at hlen₂
      rw [htl, hpad, hlen] at hsub
      simp only [need, layout_withLayout, FlexBuf.takeTrailer, hhd, hsub, htl, ← hlen₂]
      omega
  · obtain ⟨d₂, hstore, hlayout, hholds₂, hneed₂⟩ := holds_store_trailer h hlen (UInt32.not_lt.mp hroom)
    refine ⟨_, ?_, hholds₂, hneed₂⟩
    rw [ok_bind, hstore, ok_bind, hlayout]

theorem holds_addTrailer (h : d.Holds xs) {dat : List UInt8} (hfits : d.need + dat.length < 2^32) :
    ∃ d', d.addTrailer dat = .ok d' ∧ d'.Holds (xs ++ dat) ∧ d'.need ≤ d.need + dat.length := by
  unfold need at hfits
  exact holds_addTrailer_of_fits h (by omega) (.inr (by omega))

/-- `removeHeader` takes off what is in front. -/
theorem holds_removeHeader {front : List UInt8} (h : d.Holds (front ++ xs)) {len : UInt32}
    (hlen : front.length = len.toNat) (hbuf : d.buffer ≠ none) :
    ∃ d', d.removeHeader len = .ok (front, d') ∧ d'.Holds xs ∧ d'.need ≤ d.need ∧ d'.buffer ≠ none := by
  obtain ⟨head, back, hmem, hhead, hback⟩ := h.parts
  have hlength := h.length
  have hsize := h.size
  have hlt := d.layout.allocation.toNat_lt
  rw [List.append_assoc] at hmem
  rw [List.length_append] at hlength
  have hall := congrArg List.length hmem
  simp only [List.length_append] at hall
  have hle : len ≤ d.layout.length := by
    rw [UInt32.le_iff_toNat_le]
    omega
  have hsub := UInt32.toNat_sub_of_le _ _ hle
  have hadd : (d.layout.hlength + len).toNat = d.layout.hlength.toNat + len.toNat := by
    rw [UInt32.toNat_add]
    omega
  have hin : ¬d.mem.length < d.layout.hlength.toNat + len.toNat := by omega
  refine ⟨d.withLayout (d.layout.dropHeader len), ?_, ⟨⟨head ++ front, back, ?_, ?_, hback⟩, ?_, hsize⟩,
    ?_, hbuf⟩
  · rw [removeHeader, if_neg hbuf, if_neg (UInt32.not_lt.mpr hle), if_neg hin, hmem,
      slice_parts _ _ _ hhead hlen]
  · rw [mem_withLayout, hmem, List.append_assoc]
  · rw [List.length_append, layout_withLayout, FlexBuf.dropHeader, hadd, hhead, hlen]
  · rw [layout_withLayout, FlexBuf.dropHeader, hsub]
    omega
  · simp only [need, layout_withLayout, FlexBuf.dropHeader, hadd, hsub]
    omega

/-- `removeTrailer` takes off what is behind. -/
theorem holds_removeTrailer {back : List UInt8} (h : d.Holds (xs ++ back)) {len : UInt32}
    (hlen : back.length = len.toNat) (hbuf : d.buffer ≠ none) :
    ∃ d', d.removeTrailer len = .ok (back, d') ∧ d'.Holds xs ∧ d'.need ≤ d.need ∧ d'.buffer ≠ none := by
  obtain ⟨front, tail, hmem, hfront, htail⟩ := h.parts
  have hlength := h.length
  have hsize := h.size
  have hlt := d.layout.allocation.toNat_lt
  rw [List.length_append] at hlength
  have hmem' : d.mem = (front ++ xs) ++ (back ++ tail) := by
    rw [hmem, List.append_assoc, List.append_assoc]
  have hall := congrArg List.length hmem'
  simp only [List.length_append] at hall
  have hle : len ≤ d.layout.length := by
    rw [UInt32.le_iff_toNat_le]
    omega
  have hsub := UInt32.toNat_sub_of_le _ _ hle
  have hadd : (d.layout.tlength + len).toNat = d.layout.tlength.toNat + len.toNat := by
    rw [UInt32.toNat_add]
    omega
  have hend : (d.layout.hlength + d.layout.length).toNat =
      d.layout.hlength.toNat + d.layout.length.toNat := by
    rw [UInt32.toNat_add]
    omega
  have hstart : (d.layout.hlength + d.layout.length - len).toNat =
      d.layout.hlength.toNat + d.layout.length.toNat - len.toNat := by
    rw [UInt32.toNat_sub_of_le _ _ (by rw [UInt32.le_iff_toNat_le]; omega), hend]
  have hin : ¬d.mem.length < (d.layout.hlength + d.layout.length - len).toNat + len.toNat := by omega
  refine ⟨d.withLayout (d.layout.dropTrailer len), ?_, ⟨⟨front, back ++ tail, ?_, hfront, ?_⟩, ?_, hsize⟩,
    ?_, hbuf⟩
  · simp only [removeTrailer, if_neg hbuf, if_neg (UInt32.not_lt.mpr hle), if_neg hin]
    rw [hmem', slice_parts _ _ _ (by rw [List.length_append]; omega) hlen]
  · rw [mem_withLayout, hmem', List.append_assoc]
  · rw [List.length_append, layout_withLayout, FlexBuf.dropTrailer, hadd, htail, hlen, Nat.add_comm]
  · rw [layout_withLayout, FlexBuf.dropTrailer, hsub]
    omega
  · simp only [need, layout_withLayout, FlexBuf.dropTrailer, hadd, hsub]
    omega

end Deque

section Assignment

variable {d : FlexData} {xs : List UInt8}

lemma resizeAllocation_centred {minhd newlen mintl : UInt32}
    (hsz : minhd + newlen + mintl ≤ d.layout.allocation) :
    d.resizeAllocation minhd newlen mintl =
      .ok ⟨(d.layout.resizeAllocation minhd newlen mintl).1, d.buffer⟩ := by
  simp only [resizeAllocation, if_pos (Or.inr hsz)]

lemma laidOut_resizeAllocation (h : d.Holds xs) {minhd newlen mintl : UInt32}
    (hfits : FlexBuf.Fits minhd newlen mintl) (hcopy : d.layout.Copies minhd newlen mintl) :
    ∃ d', d.resizeAllocation minhd newlen mintl = .ok d' ∧
      d'.layout = (d.layout.resizeAllocation minhd newlen mintl).1 ∧
      d'.mem.length = d'.layout.allocation.toNat := by
  obtain ⟨hlaid, hin⟩ := FlexBuf.laidOut_resizeAllocation_of_copies h.exact hfits hcopy
  have hsum := hfits.toNat_add
  by_cases hkeep : minhd ≤ d.layout.hlength ∧ newlen = d.layout.length ∧ mintl ≤ d.layout.tlength
  · refine ⟨d, ?_, ?_, h.size⟩
    · simp only [resizeAllocation, if_pos (Or.inl hkeep), FlexBuf.resizeAllocation, if_pos hkeep]
    · rw [FlexBuf.resizeAllocation, if_pos hkeep]
  · by_cases hsz : minhd + newlen + mintl ≤ d.layout.allocation
    · refine ⟨_, resizeAllocation_centred hsz, rfl, ?_⟩
      simp only [FlexBuf.resizeAllocation, if_neg hkeep, if_pos hsz]
      exact h.size
    · refine ⟨_, resizeAllocation_anew hkeep hsz h.not_nullCopy hin, ?_, ?_⟩
      · simp only [FlexBuf.resizeAllocation, if_neg hkeep, if_neg hsz]
      · have hroom := hcopy.resolve_left hsz
        have hlen := h.length
        rw [mem, Option.getD_some, h.content, length_splice_inside, List.length_replicate]
        rw [List.length_replicate, hsum]
        omega

lemma holds_store_data (hexact : d.layout.Exact) (hsize : d.mem.length = d.layout.allocation.toNat)
    {dat : List UInt8} (hlen : dat.length = d.layout.length.toNat) :
    ∃ d', d.store d.layout.hlength.toNat dat = .ok d' ∧ d'.layout = d.layout ∧ d'.Holds dat := by
  unfold FlexBuf.Exact at hexact
  set hl := d.layout.hlength.toNat with hhl
  have hsplit : d.mem = d.mem.take hl ++ ((d.mem.drop hl).take dat.length ++
      (d.mem.drop hl).drop dat.length) := by
    rw [List.take_append_drop, List.take_append_drop]
  have hfront : (d.mem.take hl).length = hl := by
    rw [List.length_take]
    omega
  have hmid : dat.length = ((d.mem.drop hl).take dat.length).length := by
    rw [List.length_take, List.length_drop]
    omega
  obtain ⟨d', hstore, hlayout, hmem'⟩ := store_parts hsplit hfront hmid
  refine ⟨d', hstore, hlayout, ⟨_, _, hmem', ?_, ?_⟩, ?_, ?_⟩
  · rw [hfront, hlayout]
  · rw [List.length_drop, List.length_drop, hlayout]
    omega
  · rw [hlayout, hlen]
  · have hall := congrArg List.length hsplit
    rw [hmem', hlayout, ← hsize]
    simp only [List.length_append] at hall ⊢
    omega

/-- `setData` replaces the data. -/
theorem holds_setData (h : d.Holds xs) {dat : List UInt8} (hlt : dat.length < 2^32)
    (hfits : FlexBuf.Fits d.layout.hlength (UInt32.ofNat dat.length) d.layout.tlength) :
    ∃ d', d.setData dat = .ok d' ∧ d'.Holds dat ∧ d'.need ≤ d.need + dat.length := by
  have hlen := toNat_dataLen hlt
  have hexact := h.exact
  simp only [setData]
  split_ifs with hne
  · -- the layout keeps both pads
    have hcopy : d.layout.Copies d.layout.hlength (UInt32.ofNat dat.length) d.layout.tlength := by
      rw [FlexBuf.Copies, UInt32.le_iff_toNat_le, hfits.toNat_add]
      unfold FlexBuf.Exact at hexact
      omega
    obtain ⟨d₁, hresize, hlayout, hsize⟩ := laidOut_resizeAllocation h hfits hcopy
    have hlaid := (FlexBuf.laidOut_resizeAllocation_of_copies hexact hfits hcopy).1
    rw [← hlayout] at hlaid
    obtain ⟨d₂, hstore, hlayout₂, hholds⟩ :=
      holds_store_data hlaid.exact hsize (by rw [hlaid.length, hlen])
    have hsame : d₂.withLayout { d₂.layout with length := UInt32.ofNat dat.length } = d₂ := by
      rw [hlayout₂, ← hlaid.length, ← hlayout₂]
      rfl
    refine ⟨d₂, ?_, hholds, ?_⟩
    · rw [hresize, ok_bind, hstore, ok_bind, hsame]
    · -- the room that is left over was data before
      have hsum := hfits.toNat_add
      have hexact₁ := hlaid.exact
      have hh := UInt32.le_iff_toNat_le.mp hlaid.hlength
      have ht := UInt32.le_iff_toNat_le.mp hlaid.tlength
      have halloc : d₁.layout.allocation.toNat ≤ max d.layout.allocation.toNat
          (d.layout.hlength.toNat + dat.length + d.layout.tlength.toNat) := by
        rw [hlayout, FlexBuf.resizeAllocation]
        split_ifs
        · exact le_max_left _ _
        · exact le_max_left _ _
        all_goals
          simp only [hsum, hlen]
          exact le_max_right _ _
      have hlen₁ := congrArg UInt32.toNat hlaid.length
      unfold FlexBuf.Exact at hexact hexact₁
      simp only [need, hlayout₂]
      omega
  · have heq : UInt32.ofNat dat.length = d.layout.length := not_not.mp hne
    obtain ⟨d₂, hstore, hlayout₂, hholds⟩ := holds_store_data hexact h.size (by rw [← heq, hlen])
    have hsame : d₂.withLayout { d₂.layout with length := UInt32.ofNat dat.length } = d₂ := by
      rw [hlayout₂, heq, ← hlayout₂]
      rfl
    refine ⟨d₂, ?_, hholds, ?_⟩
    · rw [ok_bind, hstore, ok_bind, hsame]
    · simp only [need, hlayout₂]
      omega

/-- `resetWithAlloc` gives data of the length that it is asked for. -/
theorem holds_resetWithAlloc (h : d.Holds xs) {sz hpadsz tpadsz : UInt32} (fill : UInt8)
    (hfits : FlexBuf.Fits hpadsz sz tpadsz) (hcopy : d.layout.Copies hpadsz sz tpadsz) :
    ∃ d', d.resetWithAlloc sz fill hpadsz tpadsz = .ok d' ∧
      d'.layout = (d.layout.resetWithAlloc sz hpadsz tpadsz).1 ∧
      d'.Holds (List.replicate sz.toNat fill) := by
  obtain ⟨hlaid, -⟩ := FlexBuf.laidOut_resetWithAlloc_of_copies h.exact hfits hcopy
  simp only [resetWithAlloc]
  rw [FlexBuf.resetWithAlloc] at hlaid ⊢
  split_ifs at hlaid ⊢ with hneeds
  · obtain ⟨d₁, hresize, hlayout, hsize⟩ := laidOut_resizeAllocation h hfits hcopy
    rw [← hlayout] at hlaid
    obtain ⟨d₂, hstore, hlayout₂, hholds⟩ := holds_store_data hlaid.exact hsize
      (by rw [hlaid.length, List.length_replicate] : (List.replicate sz.toNat fill).length = _)
    exact ⟨d₂, by rw [hresize, ok_bind, hstore], by rw [hlayout₂, hlayout], hholds⟩
  · obtain ⟨d₂, hstore, hlayout₂, hholds⟩ := holds_store_data hlaid.exact h.size
      (by rw [hlaid.length, List.length_replicate] : (List.replicate sz.toNat fill).length = _)
    exact ⟨d₂, by rw [ok_bind, hstore], hlayout₂, hholds⟩

end Assignment

end FlexData

end Bfs.Utils
