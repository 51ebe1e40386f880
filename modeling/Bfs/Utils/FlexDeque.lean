import Bfs.Utils.FlexData

/-! Runs of calls on a flexible buffer. As a sequence of bytes that changes at both ends it does what a
plain sequence does, and it keeps inside of its allocation, as long as the sizes that a call adds up do
not overflow and the data has room where it is copied to. -/
namespace Bfs.Utils
open ByteSeq Fallible

section Calls

/-- Bytes whose number is a `bfs_size_t`. -/
structure Chunk where
  bytes : List UInt8
  length_lt : bytes.length < 2^32

inductive DequeOp
  | setData (dat : Chunk)
  | addHeader (dat : Chunk)
  | removeHeader (len : UInt32)
  | addTrailer (dat : Chunk)
  | removeTrailer (len : UInt32)

def DequeOp.onBuffer (d : FlexData) : DequeOp → Except FlexErr (List UInt8 × FlexData)
  | .setData dat => (d.setData dat.bytes).map fun d => ([], d)
  | .addHeader dat => (d.addHeader dat.bytes).map fun d => ([], d)
  | .removeHeader len => d.removeHeader len
  | .addTrailer dat => (d.addTrailer dat.bytes).map fun d => ([], d)
  | .removeTrailer len => d.removeTrailer len

/-- The same call on a sequence of bytes; `none` if more is removed than there is. -/
def DequeOp.onBytes (xs : List UInt8) : DequeOp → Option (List UInt8 × List UInt8)
  | .setData dat => some ([], dat.bytes)
  | .addHeader dat => some ([], dat.bytes ++ xs)
  | .removeHeader len =>
    if len.toNat ≤ xs.length then some (xs.take len.toNat, xs.drop len.toNat) else none
  | .addTrailer dat => some ([], xs ++ dat.bytes)
  | .removeTrailer len =>
    if len.toNat ≤ xs.length then
      some (xs.drop (xs.length - len.toNat), xs.take (xs.length - len.toNat))
    else none

def DequeOp.after (d : FlexData) (op : DequeOp) : FlexData :=
  match op.onBuffer d with
  | .ok (_, d') => d'
  | .error _ => d

lemma DequeOp.after_ok {d d' : FlexData} {op : DequeOp} {out : List UInt8}
    (h : op.onBuffer d = .ok (out, d')) : op.after d = d' := by rw [after, h]

lemma DequeOp.after_error {d : FlexData} {op : DequeOp} {e : FlexErr} (h : op.onBuffer d = .error e) :
    op.after d = d := by rw [after, h]

/-- The buffer does along the calls what the sequence does: it holds the sequence, gives back the same
bytes, and throws where more is removed than there is. -/
def FlexData.Simulates (d : FlexData) (xs : List UInt8) : List DequeOp → Prop
  | [] => d.content = xs
  | op::ops => d.content = xs ∧
    match op.onBytes xs with
    | some (out, ys) => ∃ d', op.onBuffer d = .ok (out, d') ∧ d'.Simulates ys ops
    | none => ∃ e, op.onBuffer d = .error e ∧ e.message ≠ none ∧ d.Simulates xs ops

def DequeOp.Sized (d : FlexData) : DequeOp → Prop
  | .setData dat => d.layout.hlength.toNat + dat.bytes.length + d.layout.tlength.toNat < 2^32
  | .addHeader dat => d.HeaderFits dat.bytes.length
  | .removeHeader _ => True
  | .addTrailer dat => d.TrailerFits dat.bytes.length
  | .removeTrailer _ => True

def DequeOp.Allocated (d : FlexData) : DequeOp → Prop
  | .removeHeader len => d.buffer ≠ none ∨ len ≠ 0
  | .removeTrailer len => d.buffer ≠ none ∨ len ≠ 0
  | _ => True

def DequeOp.added : DequeOp → ℕ
  | .setData dat => dat.bytes.length
  | .addHeader dat => dat.bytes.length
  | .addTrailer dat => dat.bytes.length
  | _ => 0

def FlexData.Admits (d : FlexData) : List DequeOp → Prop
  | [] => True
  | op::ops => op.Sized d ∧ op.Allocated d ∧ (op.after d).Admits ops

end Calls

section Refinement

variable {d : FlexData} {xs : List UInt8}

lemma FlexData.Holds.eq_nil (h : d.Holds xs) (hbuf : d.buffer = none) : xs = [] := by
  by_contra hne
  exact h.allocated hne hbuf

lemma FlexData.Holds.allocated_of_le (h : d.Holds xs) {len : UInt32}
    (halloc : d.buffer ≠ none ∨ len ≠ 0) (hle : len.toNat ≤ xs.length) : d.buffer ≠ none := by
  intro hnone
  rw [h.eq_nil hnone, List.length_nil, Nat.le_zero] at hle
  rcases halloc with hbuf | hlen
  · exact hbuf hnone
  · exact hlen (UInt32.toNat_inj.mp hle)

lemma removeHeader_simulated (h : d.Holds xs) {len : UInt32} (halloc : d.buffer ≠ none ∨ len ≠ 0) :
    match DequeOp.onBytes xs (.removeHeader len) with
    | some (out, ys) => ∃ d', d.removeHeader len = .ok (out, d') ∧ d'.Holds ys ∧ d'.need ≤ d.need
    | none => ∃ e, d.removeHeader len = .error e ∧ e.message ≠ none := by
  have hlength := h.length
  rw [DequeOp.onBytes]
  split_ifs with hle
  · have hbuf := h.allocated_of_le halloc hle
    have hsplit : d.Holds (xs.take len.toNat ++ xs.drop len.toNat) := by rwa [List.take_append_drop]
    obtain ⟨d', hok, hholds, hneed, -⟩ :=
      FlexData.holds_removeHeader hsplit (List.length_take_of_le hle) hbuf
    exact ⟨d', hok, hholds, hneed⟩
  · rw [FlexData.removeHeader]
    by_cases hbuf : d.buffer = none
    · exact ⟨_, if_pos hbuf, by decide⟩
    · have hlt : d.layout.length < len := by
        rw [UInt32.lt_iff_toNat_lt]
        omega
      rw [if_neg hbuf, if_pos hlt]
      exact ⟨_, rfl, by decide⟩

lemma removeTrailer_simulated (h : d.Holds xs) {len : UInt32} (halloc : d.buffer ≠ none ∨ len ≠ 0) :
    match DequeOp.onBytes xs (.removeTrailer len) with
    | some (out, ys) => ∃ d', d.removeTrailer len = .ok (out, d') ∧ d'.Holds ys ∧ d'.need ≤ d.need
    | none => ∃ e, d.removeTrailer len = .error e ∧ e.message ≠ none := by
  have hlength := h.length
  rw [DequeOp.onBytes]
  split_ifs with hle
  · have hbuf := h.allocated_of_le halloc hle
    have hsplit : d.Holds (xs.take (xs.length - len.toNat) ++ xs.drop (xs.length - len.toNat)) := by
      rwa [List.take_append_drop]
    have hback : (xs.drop (xs.length - len.toNat)).length = len.toNat := by
      rw [List.length_drop]
      omega
    obtain ⟨d', hok, hholds, hneed, -⟩ := FlexData.holds_removeTrailer hsplit hback hbuf
    exact ⟨d', hok, hholds, hneed⟩
  · rw [FlexData.removeTrailer]
    by_cases hbuf : d.buffer = none
    · exact ⟨_, if_pos hbuf, by decide⟩
    · have hlt : d.layout.length < len := by
        rw [UInt32.lt_iff_toNat_lt]
        omega
      rw [if_neg hbuf, if_pos hlt]
      exact ⟨_, rfl, by decide⟩

lemma Chunk.toNat_length (dat : Chunk) : (UInt32.ofNat dat.bytes.length).toNat = dat.bytes.length :=
  FlexData.toNat_dataLen dat.length_lt

lemma DequeOp.simulated (h : d.Holds xs) {op : DequeOp} (hsized : op.Sized d) (halloc : op.Allocated d) :
    match op.onBytes xs with
    | some (out, ys) => ∃ d', op.onBuffer d = .ok (out, d') ∧ d'.Holds ys ∧
        d'.need ≤ d.need + op.added
    | none => ∃ e, op.onBuffer d = .error e ∧ e.message ≠ none := by
  cases op with
  | setData dat =>
    have hfits : FlexBuf.Fits d.layout.hlength (UInt32.ofNat dat.bytes.length) d.layout.tlength := by
      rw [FlexBuf.Fits, dat.toNat_length]
      exact hsized
    obtain ⟨d', hok, hholds, hneed⟩ := FlexData.holds_setData h dat.length_lt hfits
    exact ⟨d', by rw [onBuffer, hok]; rfl, hholds, hneed⟩
  | addHeader dat =>
    obtain ⟨d', hok, hholds, hneed⟩ := FlexData.holds_addHeader_of_fits h dat.length_lt hsized
    exact ⟨d', by rw [onBuffer, hok]; rfl, hholds, hneed⟩
  | removeHeader len => exact removeHeader_simulated h halloc
  | addTrailer dat =>
    obtain ⟨d', hok, hholds, hneed⟩ := FlexData.holds_addTrailer_of_fits h dat.length_lt hsized
    exact ⟨d', by rw [onBuffer, hok]; rfl, hholds, hneed⟩
  | removeTrailer len => exact removeTrailer_simulated h halloc

lemma FlexData.Holds.simulates (h : d.Holds xs) {ops : List DequeOp} (hops : d.Admits ops) :
    d.Simulates xs ops := by
  induction ops generalizing d xs with
  | nil => exact h.content
  | cons op ops ih =>
    obtain ⟨hsized, halloc, hrest⟩ := hops
    have hstep := DequeOp.simulated h hsized halloc
    rw [FlexData.Simulates]
    refine ⟨h.content, ?_⟩
    rcases hbytes : op.onBytes xs with _ | ⟨out, ys⟩
    · rw [hbytes] at hstep
      obtain ⟨e, herr, hthrow⟩ := hstep
      rw [DequeOp.after_error herr] at hrest
      exact ⟨e, herr, hthrow, ih h hrest⟩
    · rw [hbytes] at hstep
      obtain ⟨d', hok, hholds, -⟩ := hstep
      rw [DequeOp.after_ok hok] at hrest
      exact ⟨d', hok, ih hholds hrest⟩

/-- From the empty buffer on, the calls do what they do on a plain sequence of bytes. -/
theorem flexBuffer_refines_bytes (ops : List DequeOp) (h : FlexData.new.Admits ops) :
    FlexData.new.Simulates [] ops :=
  FlexData.holds_new.simulates h

end Refinement

section Totals

variable {d : FlexData} {xs : List UInt8}

def DequeOp.RemovesNothing : DequeOp → Prop
  | .removeHeader len => len = 0
  | .removeTrailer len => len = 0
  | _ => False

lemma DequeOp.sized_of_need {op : DequeOp} (hfits : d.need + op.added < 2^32) : op.Sized d := by
  unfold FlexData.need at hfits
  cases op with
  | setData dat =>
    simp only [added] at hfits
    simp only [Sized]
    omega
  | addHeader dat =>
    simp only [added] at hfits
    exact .inr (by omega)
  | addTrailer dat =>
    simp only [added] at hfits
    exact .inr (by omega)
  | removeHeader len => trivial
  | removeTrailer len => trivial

lemma DequeOp.allocated_of_not_removesNothing {op : DequeOp} (h : ¬op.RemovesNothing) :
    op.Allocated d := by
  cases op with
  | removeHeader len => exact .inr h
  | removeTrailer len => exact .inr h
  | setData dat => trivial
  | addHeader dat => trivial
  | addTrailer dat => trivial

lemma FlexData.Holds.admits (h : d.Holds xs) {ops : List DequeOp}
    (hfits : d.need + (ops.map DequeOp.added).sum < 2^32) (hsome : ∀ op ∈ ops, ¬op.RemovesNothing) :
    d.Admits ops := by
  induction ops generalizing d xs with
  | nil => trivial
  | cons op ops ih =>
    rw [List.map_cons, List.sum_cons] at hfits
    have hsized : op.Sized d := DequeOp.sized_of_need (by omega)
    have halloc : op.Allocated d :=
      DequeOp.allocated_of_not_removesNothing (hsome op List.mem_cons_self)
    have hrest : ∀ op ∈ ops, ¬op.RemovesNothing := fun op hop => hsome op (List.mem_cons_of_mem _ hop)
    refine ⟨hsized, halloc, ?_⟩
    have hstep := DequeOp.simulated h hsized halloc
    rcases hbytes : op.onBytes xs with _ | ⟨out, ys⟩
    · rw [hbytes] at hstep
      obtain ⟨e, herr, -⟩ := hstep
      rw [DequeOp.after_error herr]
      exact ih h (by omega) hrest
    · rw [hbytes] at hstep
      obtain ⟨d', hok, hholds, hneed⟩ := hstep
      rw [DequeOp.after_ok hok]
      exact ih hholds (by omega) hrest

def sampleCalls : List DequeOp :=
  [.setData ⟨[1, 2, 3], by decide⟩, .addHeader ⟨[4, 5], by decide⟩, .addTrailer ⟨[6], by decide⟩,
    .removeHeader 2, .removeTrailer 9]

theorem sampleCalls_refine : FlexData.new.Simulates [] sampleCalls := by
  refine flexBuffer_refines_bytes sampleCalls (FlexData.holds_new.admits (by decide) ?_)
  intro op hop hnothing
  simp only [sampleCalls, List.mem_cons, List.not_mem_nil, or_false] at hop
  rcases hop with rfl | rfl | rfl | rfl | rfl
  · exact hnothing
  · exact hnothing
  · exact hnothing
  · exact absurd hnothing (show (2 : UInt32) ≠ 0 by decide)
  · exact absurd hnothing (show (9 : UInt32) ≠ 0 by decide)

end Totals

section Overflow

variable {d d' : FlexData}

lemma FlexData.layout_of_resizeAllocation {minhd newlen mintl : UInt32}
    (h : d.resizeAllocation minhd newlen mintl = .ok d') :
    d'.layout = (d.layout.resizeAllocation minhd newlen mintl).1 := by
  rw [FlexData.resizeAllocation] at h
  dsimp only at h
  split_ifs at h <;> cases h <;> rfl

lemma FlexData.layout_of_setData {dat : List UInt8} (h : d.setData dat = .ok d')
    (hne : UInt32.ofNat dat.length ≠ d.layout.length) :
    d'.layout = { (d.layout.resizeAllocation d.layout.hlength (UInt32.ofNat dat.length)
      d.layout.tlength).1 with length := UInt32.ofNat dat.length } := by
  rw [FlexData.setData] at h
  dsimp only at h
  rw [if_pos hne] at h
  obtain ⟨d₁, hresize, h⟩ := bind_eq_ok.mp h
  obtain ⟨d₂, hstore, h⟩ := bind_eq_ok.mp h
  cases h
  rw [FlexData.layout_withLayout, (FlexData.store_eq_ok hstore).2.1,
    FlexData.layout_of_resizeAllocation hresize]

lemma FlexData.length_mem_of_addHeader {dat : List UInt8} (h : d.addHeader dat = .ok d')
    (hroom : d.layout.hlength < UInt32.ofNat dat.length)
    (hsz : FlexBuf.defaultPad + UInt32.ofNat dat.length + d.layout.length + d.layout.tlength ≤
      d.layout.allocation) : d'.mem.length = d.mem.length := by
  rw [FlexData.addHeader] at h
  dsimp only at h
  rw [if_pos hroom, FlexData.resizeAllocation_centred hsz, ok_bind] at h
  obtain ⟨d₁, hstore, h⟩ := bind_eq_ok.mp h
  cases h
  exact (FlexData.store_eq_ok hstore).2.2

/-- The layout for `2^32 - 33` bytes and a header of one byte is one of size 0, and the buffer stays too
small for them. -/
lemma FlexData.not_simulates_overflow (dat : Chunk) (hlen : dat.bytes.length = 2^32 - 33) :
    ¬FlexData.new.Simulates [] [.setData dat, .addHeader ⟨[1], by decide⟩] := by
  have hofNat : UInt32.ofNat dat.bytes.length = 4294967263 := by rw [hlen]; rfl
  rintro ⟨-, d₁, hset, -, d₂, hadd, hcontent⟩
  obtain ⟨d₁', hset', heq⟩ := map_eq_ok.mp hset
  cases heq
  obtain ⟨d₂', hadd', heq⟩ := map_eq_ok.mp hadd
  cases heq
  have hlayout : d₁.layout = ⟨4294967263, 0, 4294967263, 0⟩ := by
    rw [FlexData.layout_of_setData hset' (by rw [hofNat]; decide), hofNat]
    decide
  obtain ⟨d₃, hset₃, hholds, -⟩ := FlexData.holds_setData FlexData.holds_new dat.length_lt
    (by rw [hofNat, FlexBuf.Fits]; decide)
  cases hset'.symm.trans hset₃
  have hmem := FlexData.length_mem_of_addHeader hadd' (by rw [hlayout]; decide) (by rw [hlayout]; decide)
  rw [hholds.size, hlayout] at hmem
  have hle : d₂.content.length ≤ d₂.mem.length := by
    rw [FlexData.content, slice, List.length_take, List.length_drop]
    omega
  rw [show d₂.content = _ from hcontent, hmem, List.length_append, hlen] at hle
  exact absurd hle (by decide)

def bulkData : Chunk := ⟨List.replicate (2^32 - 33) 0, by rw [List.length_replicate]; decide⟩

/-- The bytes and a header of one byte are fewer than `2^32`, and the buffer does not hold them. -/
theorem header_overflows :
    bulkData.bytes.length + 1 < 2^32 ∧
      ¬FlexData.new.Simulates [] [.setData bulkData, .addHeader ⟨[1], by decide⟩] := by
  have hlen : bulkData.bytes.length = 2^32 - 33 := List.length_replicate
  exact ⟨by rw [hlen]; decide, FlexData.not_simulates_overflow bulkData hlen⟩

end Overflow

section Bounds

variable {d : FlexData} {xs : List UInt8}

/-- `burn`, a fill of the allocation. -/
def FlexData.burn (d : FlexData) : Except FlexErr FlexData :=
  d.store 0 (List.replicate d.layout.allocation.toNat 0)

inductive FlexOp
  | deque (op : DequeOp)
  | resetWithAlloc (sz : UInt32) (fill : UInt8) (hpadsz tpadsz : UInt32) (burnOnReset : Bool)
  | resizeAllocation (minhd newlen mintl : UInt32)
  | burn

def FlexOp.onBuffer (d : FlexData) : FlexOp → Except FlexErr FlexData
  | .deque op => (op.onBuffer d).map Prod.snd
  | .resetWithAlloc sz fill hpadsz tpadsz burnOnReset =>
    (if burnOnReset then d.burn else .ok d) >>= fun d => d.resetWithAlloc sz fill hpadsz tpadsz
  | .resizeAllocation minhd newlen mintl => d.resizeAllocation minhd newlen mintl
  | .burn => d.burn

def FlexOp.after (d : FlexData) (op : FlexOp) : FlexData :=
  match op.onBuffer d with
  | .ok d' => d'
  | .error _ => d

def FlexData.InBounds (d : FlexData) : Prop :=
  d.layout.Exact ∧ d.mem.length = d.layout.allocation.toNat

def FlexData.Bounded (d : FlexData) : List FlexOp → Prop
  | [] => d.InBounds
  | op::ops => d.InBounds ∧ op.onBuffer d ≠ .error .outside ∧ (op.after d).Bounded ops

def FlexOp.Sized (d : FlexData) : FlexOp → Prop
  | .deque op => op.Sized d
  | .resetWithAlloc sz _ hpadsz tpadsz _ =>
    FlexBuf.Fits hpadsz sz tpadsz ∧ d.layout.Copies hpadsz sz tpadsz
  | .resizeAllocation minhd newlen mintl =>
    FlexBuf.Fits minhd newlen mintl ∧ d.layout.Copies minhd newlen mintl
  | .burn => True

def FlexData.AllSized (d : FlexData) : List FlexOp → Prop
  | [] => True
  | op::ops => op.Sized d ∧ (op.after d).AllSized ops

lemma FlexData.Holds.inBounds (h : d.Holds xs) : d.InBounds := ⟨h.exact, h.size⟩

lemma FlexData.InBounds.holds (h : d.InBounds) : d.Holds d.content := by
  obtain ⟨hexact, hsize⟩ := h
  unfold FlexBuf.Exact at hexact
  refine ⟨⟨d.mem.take d.layout.hlength.toNat,
    (d.mem.drop d.layout.hlength.toNat).drop d.layout.length.toNat, ?_, ?_, ?_⟩, ?_, hsize⟩
  · rw [FlexData.content, slice, List.take_append_drop, List.take_append_drop]
  · rw [List.length_take]
    omega
  · rw [List.length_drop, List.length_drop]
    omega
  · rw [FlexData.content, slice, List.length_take, List.length_drop]
    omega

def FlexOp.Safe (d : FlexData) (op : FlexOp) : Prop :=
  (∃ d', op.onBuffer d = .ok d' ∧ d'.InBounds) ∨ ∃ e, op.onBuffer d = .error e ∧ e ≠ .outside

lemma FlexOp.safe_deque (h : d.InBounds) {op : DequeOp} (hsized : op.Sized d) :
    FlexOp.Safe d (.deque op) := by
  by_cases halloc : op.Allocated d
  · have hstep := DequeOp.simulated h.holds hsized halloc
    rcases hbytes : op.onBytes d.content with _ | ⟨out, ys⟩
    · rw [hbytes] at hstep
      obtain ⟨e, herr, hthrow⟩ := hstep
      refine .inr ⟨e, by rw [onBuffer, herr]; rfl, ?_⟩
      rintro rfl
      exact hthrow rfl
    · rw [hbytes] at hstep
      obtain ⟨d', hok, hholds, -⟩ := hstep
      exact .inl ⟨d', by rw [onBuffer, hok]; rfl, hholds.inBounds⟩
  · -- what is left is to take nothing off a buffer without an allocation
    right
    cases op with
    | removeHeader len =>
      have hnone : d.buffer = none := not_not.mp (not_or.mp halloc).1
      exact ⟨.nullData, by rw [onBuffer, DequeOp.onBuffer, FlexData.removeHeader, if_pos hnone]; rfl,
        by decide⟩
    | removeTrailer len =>
      have hnone : d.buffer = none := not_not.mp (not_or.mp halloc).1
      exact ⟨.nullData, by rw [onBuffer, DequeOp.onBuffer, FlexData.removeTrailer, if_pos hnone]; rfl,
        by decide⟩
    | setData dat => exact absurd trivial halloc
    | addHeader dat => exact absurd trivial halloc
    | addTrailer dat => exact absurd trivial halloc

lemma FlexData.InBounds.burn (h : d.InBounds) :
    ∃ d', d.burn = .ok d' ∧ d'.layout = d.layout ∧ d'.InBounds := by
  have hin : 0 + (List.replicate d.layout.allocation.toNat (0 : UInt8)).length ≤ d.mem.length := by
    rw [List.length_replicate, h.2, Nat.zero_add]
  obtain ⟨d', hok⟩ : ∃ d', d.burn = .ok d' := ⟨_, if_pos hin⟩
  obtain ⟨-, hlayout, hmem⟩ := FlexData.store_eq_ok hok
  refine ⟨d', hok, hlayout, ?_⟩
  rw [FlexData.InBounds, hlayout, hmem]
  exact h

lemma FlexOp.safe (h : d.InBounds) {op : FlexOp} (hsized : op.Sized d) : op.Safe d := by
  cases op with
  | deque op => exact safe_deque h hsized
  | resetWithAlloc sz fill hpadsz tpadsz burnOnReset =>
    obtain ⟨hfits, hcopy⟩ := hsized
    obtain ⟨d₁, hburn, hlayout, hin⟩ : ∃ d₁, (if burnOnReset then d.burn else .ok d) = .ok d₁ ∧
        d₁.layout = d.layout ∧ d₁.InBounds := by
      cases burnOnReset with
      | true => exact h.burn
      | false => exact ⟨d, rfl, rfl, h⟩
    obtain ⟨d', hok, -, hholds⟩ := FlexData.holds_resetWithAlloc hin.holds fill hfits (hlayout ▸ hcopy)
    exact .inl ⟨d', by rw [onBuffer, hburn, ok_bind, hok], hholds.inBounds⟩
  | resizeAllocation minhd newlen mintl =>
    obtain ⟨hfits, hcopy⟩ := hsized
    obtain ⟨d', hok, hlayout, hsize⟩ := FlexData.laidOut_resizeAllocation h.holds hfits hcopy
    have hlaid := (FlexBuf.laidOut_resizeAllocation_of_copies h.1 hfits hcopy).1
    rw [← hlayout] at hlaid
    exact .inl ⟨d', hok, hlaid.exact, hsize⟩
  | burn =>
    obtain ⟨d', hok, -, hin⟩ := h.burn
    exact .inl ⟨d', hok, hin⟩

lemma FlexData.InBounds.bounded (h : d.InBounds) {ops : List FlexOp} (hops : d.AllSized ops) :
    d.Bounded ops := by
  induction ops generalizing d with
  | nil => exact h
  | cons op ops ih =>
    obtain ⟨hsized, hrest⟩ := hops
    rw [FlexData.Bounded]
    rw [FlexOp.after] at hrest ⊢
    rcases FlexOp.safe h hsized with ⟨d', hok, hin⟩ | ⟨e, herr, hne⟩
    · rw [hok] at hrest ⊢
      exact ⟨h, by simp, ih hin hrest⟩
    · rw [herr] at hrest ⊢
      exact ⟨h, by simpa using hne, ih h hrest⟩

/-- From the empty buffer on, the parts fill the allocation and every access is inside of it. -/
theorem flexBuffer_bounded (ops : List FlexOp) (h : FlexData.new.AllSized ops) :
    FlexData.new.Bounded ops :=
  FlexData.holds_new.inBounds.bounded h

instance (minhd newlen mintl : UInt32) : Decidable (FlexBuf.Fits minhd newlen mintl) :=
  inferInstanceAs (Decidable (_ < _))

instance (b : FlexBuf) (minhd newlen mintl : UInt32) : Decidable (b.Copies minhd newlen mintl) :=
  inferInstanceAs (Decidable (_ ∨ _))

theorem flexBuffer_bounded_sample :
    FlexData.new.Bounded [.deque (.setData ⟨[1, 2, 3], by decide⟩), .resetWithAlloc 5 7 32 32 true,
      .resizeAllocation 4 2 4, .burn, .deque (.removeHeader 1)] :=
  flexBuffer_bounded _ ⟨show 0 + 3 + 0 < 2^32 by decide, ⟨by decide, by decide⟩,
    ⟨by decide, by decide⟩, trivial, trivial, trivial⟩

/-- Two bytes are copied behind a header of three, into an allocation of three. -/
theorem shrunk_layout_overruns :
    ¬FlexData.new.Bounded [.deque (.setData ⟨[1, 2], by decide⟩), .resizeAllocation 3 0 0] := by
  rintro ⟨-, -, -, hinside, -⟩
  exact hinside rfl

end Bounds

end Bfs.Utils
