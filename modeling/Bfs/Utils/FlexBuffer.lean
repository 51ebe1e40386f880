import Mathlib

/-! The geometry of `bfsFlexibleBuffer`: how much room an allocation has before, for and behind its data,
and the bytes that each operation touches. -/
namespace Bfs.Utils

/-- Whether `__BFS_ENCLAVE_MODE` is defined: without it the code runs on the host and uses libgcrypt. -/
inductive Build
  | host
  | enclave
  deriving DecidableEq, Repr

/-- An access to `len` bytes from `start` on, in memory that has `size` bytes. -/
structure Span where
  start : ℕ
  len : ℕ
  size : ℕ
  deriving DecidableEq, Repr

def Span.Inside (a : Span) : Prop := a.start + a.len ≤ a.size

instance (a : Span) : Decidable a.Inside := inferInstanceAs (Decidable (_ ≤ _))

def AllInside (spans : List Span) : Prop := ∀ a ∈ spans, a.Inside

instance (spans : List Span) : Decidable (AllInside spans) :=
  inferInstanceAs (Decidable (∀ a ∈ spans, a.Inside))

@[simp] lemma allInside_nil : AllInside [] := by simp [AllInside]

@[simp] lemma allInside_cons {a : Span} {spans : List Span} :
    AllInside (a :: spans) ↔ a.Inside ∧ AllInside spans := by simp [AllInside]

@[simp] lemma allInside_append {spans spans' : List Span} :
    AllInside (spans ++ spans') ↔ AllInside spans ∧ AllInside spans' := by
  simp only [AllInside, List.mem_append]
  constructor
  · intro h
    exact ⟨fun a ha => h a (.inl ha), fun a ha => h a (.inr ha)⟩
  · rintro ⟨h, h'⟩ a (ha | ha)
    · exact h a ha
    · exact h' a ha

/-- `bfsFlexibleBuffer` without its bytes. -/
structure FlexBuf where
  allocation : UInt32
  hlength : UInt32
  length : UInt32
  tlength : UInt32
  deriving DecidableEq, Repr

namespace FlexBuf

def new : FlexBuf := ⟨0, 0, 0, 0⟩

/-- `resizeAllocation`. A smaller layout is centred in the allocation there is; for a larger one the
data is copied to a new allocation. Sizes are added with 32 bits. -/
def resizeAllocation (b : FlexBuf) (minhd newlen mintl : UInt32) : FlexBuf × List Span :=
  let newsz := minhd + newlen + mintl
  if minhd ≤ b.hlength ∧ newlen = b.length ∧ mintl ≤ b.tlength then (b, [])
  else if newsz ≤ b.allocation then
    let left := b.allocation - newsz
    (⟨b.allocation, minhd + left / 2 + left % 2, newlen, mintl + left / 2⟩, [])
  else
    (⟨newsz, minhd, newlen, mintl⟩,
      if 0 < b.length then
        [⟨b.hlength.toNat, b.length.toNat, b.allocation.toNat⟩,
          ⟨minhd.toNat, b.length.toNat, newsz.toNat⟩]
      else [])

/-- `resetWithAlloc`, which fills the data. -/
def resetWithAlloc (b : FlexBuf) (sz hpadsz tpadsz : UInt32) : FlexBuf × List Span :=
  let (b, spans) :=
    if b.length ≠ sz ∨ b.hlength < hpadsz ∨ b.tlength < tpadsz then b.resizeAllocation hpadsz sz tpadsz
    else (b, [])
  (b, spans ++ [⟨b.hlength.toNat, sz.toNat, b.allocation.toNat⟩])

/-- `BFSFLEXBUF_DEFAULT_PAD`. -/
def defaultPad : UInt32 := 32

/-- `addHeader`, behind the operator `<<`. -/
def addHeader (b : FlexBuf) (len : UInt32) : FlexBuf × List Span :=
  let (b, spans) :=
    if b.hlength < len then b.resizeAllocation (defaultPad + len) b.length b.tlength else (b, [])
  ({ b with hlength := b.hlength - len, length := b.length + len },
    spans ++ [⟨(b.hlength - len).toNat, len.toNat, b.allocation.toNat⟩])

def addHeaders (b : FlexBuf) : List UInt32 → FlexBuf × List Span
  | [] => (b, [])
  | len :: lens =>
    let (b, spans) := b.addHeader len
    let (b, spans') := b.addHeaders lens
    (b, spans ++ spans')

def Exact (b : FlexBuf) : Prop :=
  b.hlength.toNat + b.length.toNat + b.tlength.toNat = b.allocation.toNat

lemma exact_new : new.Exact := rfl

def Fits (minhd newlen mintl : UInt32) : Prop := minhd.toNat + newlen.toNat + mintl.toNat < 2^32

lemma Fits.toNat_add {minhd newlen mintl : UInt32} (h : Fits minhd newlen mintl) :
    (minhd + newlen + mintl).toNat = minhd.toNat + newlen.toNat + mintl.toNat := by
  unfold Fits at h
  rw [UInt32.toNat_add, UInt32.toNat_add]
  omega

structure LaidOut (b : FlexBuf) (minhd newlen mintl : UInt32) : Prop where
  exact : b.Exact
  hlength : minhd ≤ b.hlength
  length : b.length = newlen
  tlength : mintl ≤ b.tlength

lemma laidOut_centred {b : FlexBuf} {minhd newlen mintl : UInt32} (hfits : Fits minhd newlen mintl)
    (hsz : minhd + newlen + mintl ≤ b.allocation) :
    LaidOut ⟨b.allocation, minhd + (b.allocation - (minhd + newlen + mintl)) / 2 +
        (b.allocation - (minhd + newlen + mintl)) % 2, newlen,
      mintl + (b.allocation - (minhd + newlen + mintl)) / 2⟩ minhd newlen mintl := by
  have hsum := hfits.toNat_add
  have hle := UInt32.le_iff_toNat_le.mp hsz
  have hsub := UInt32.toNat_sub_of_le _ _ hsz
  have hlt := b.allocation.toNat_lt
  generalize b.allocation - (minhd + newlen + mintl) = left at hsub ⊢
  have hhalf : (left / 2).toNat = left.toNat / 2 := by simp
  have hodd : (left % 2).toNat = left.toNat % 2 := by simp
  have hhd : (minhd + left / 2 + left % 2).toNat = minhd.toNat + left.toNat / 2 + left.toNat % 2 := by
    rw [UInt32.toNat_add, UInt32.toNat_add, hhalf, hodd]
    omega
  have htl : (mintl + left / 2).toNat = mintl.toNat + left.toNat / 2 := by
    rw [UInt32.toNat_add, hhalf]
    omega
  refine ⟨?_, ?_, rfl, ?_⟩
  · simp only [Exact, hhd, htl]
    omega
  · rw [UInt32.le_iff_toNat_le, hhd]
    omega
  · rw [UInt32.le_iff_toNat_le, htl]
    omega

lemma laidOut_fresh {minhd newlen mintl : UInt32} (hfits : Fits minhd newlen mintl) :
    LaidOut ⟨minhd + newlen + mintl, minhd, newlen, mintl⟩ minhd newlen mintl := by
  refine ⟨?_, UInt32.le_refl _, rfl, UInt32.le_refl _⟩
  simp only [Exact, hfits.toNat_add]

def Copies (b : FlexBuf) (minhd newlen mintl : UInt32) : Prop :=
  minhd + newlen + mintl ≤ b.allocation ∨ b.length.toNat ≤ newlen.toNat + mintl.toNat

theorem laidOut_resizeAllocation_of_copies {b : FlexBuf} {minhd newlen mintl : UInt32} (hb : b.Exact)
    (hfits : Fits minhd newlen mintl) (hcopy : b.Copies minhd newlen mintl) :
    LaidOut (b.resizeAllocation minhd newlen mintl).1 minhd newlen mintl ∧
      AllInside (b.resizeAllocation minhd newlen mintl).2 := by
  rw [resizeAllocation]
  split_ifs with hkeep hsz hdata
  · exact ⟨⟨hb, hkeep.1, hkeep.2.1.symm, hkeep.2.2⟩, allInside_nil⟩
  · exact ⟨laidOut_centred hfits hsz, allInside_nil⟩
  · refine ⟨laidOut_fresh hfits, ?_⟩
    have hsum := hfits.toNat_add
    have hroom := hcopy.resolve_left hsz
    unfold Exact at hb
    simp only [allInside_cons, allInside_nil, Span.Inside]
    refine ⟨?_, ?_, trivial⟩ <;> omega
  · exact ⟨laidOut_fresh hfits, allInside_nil⟩

theorem laidOut_resizeAllocation {b : FlexBuf} {minhd newlen mintl : UInt32} (hb : b.Exact)
    (hfits : Fits minhd newlen mintl) (hlen : b.length ≤ newlen) :
    LaidOut (b.resizeAllocation minhd newlen mintl).1 minhd newlen mintl ∧
      AllInside (b.resizeAllocation minhd newlen mintl).2 := by
  have hlen' := UInt32.le_iff_toNat_le.mp hlen
  exact laidOut_resizeAllocation_of_copies hb hfits (.inr (by omega))

theorem laidOut_resetWithAlloc_of_copies {b : FlexBuf} {sz hpadsz tpadsz : UInt32} (hb : b.Exact)
    (hfits : Fits hpadsz sz tpadsz) (hcopy : b.Copies hpadsz sz tpadsz) :
    LaidOut (b.resetWithAlloc sz hpadsz tpadsz).1 hpadsz sz tpadsz ∧
      AllInside (b.resetWithAlloc sz hpadsz tpadsz).2 := by
  -- the filled bytes are the data, whichever layout it has
  have hfill : ∀ {c : FlexBuf}, LaidOut c hpadsz sz tpadsz →
      Span.Inside ⟨c.hlength.toNat, sz.toNat, c.allocation.toNat⟩ := by
    intro c hc
    have hexact := hc.exact
    simp only [Exact, hc.length] at hexact
    simp only [Span.Inside]
    omega
  rw [resetWithAlloc]
  split_ifs with hneeds
  · obtain ⟨hlaid, hin⟩ := laidOut_resizeAllocation_of_copies hb hfits hcopy
    simp only [allInside_append, allInside_cons, allInside_nil, and_true]
    exact ⟨hlaid, hin, hfill hlaid⟩
  · obtain ⟨hl, hhl, htl⟩ : b.length = sz ∧ ¬b.hlength < hpadsz ∧ ¬b.tlength < tpadsz := by
      simpa only [ne_eq, not_or, not_not] using hneeds
    have hlaid : LaidOut b hpadsz sz tpadsz := ⟨hb, UInt32.not_lt.mp hhl, hl, UInt32.not_lt.mp htl⟩
    simp only [List.nil_append, allInside_cons, allInside_nil, and_true]
    exact ⟨hlaid, hfill hlaid⟩

theorem laidOut_resetWithAlloc {b : FlexBuf} {sz hpadsz tpadsz : UInt32} (hb : b.Exact)
    (hfits : Fits hpadsz sz tpadsz) (hlen : b.length ≤ sz) :
    LaidOut (b.resetWithAlloc sz hpadsz tpadsz).1 hpadsz sz tpadsz ∧
      AllInside (b.resetWithAlloc sz hpadsz tpadsz).2 := by
  have hlen' := UInt32.le_iff_toNat_le.mp hlen
  exact laidOut_resetWithAlloc_of_copies hb hfits (.inr (by omega))

/-- A buffer that can be laid out anew for any data: it holds little, or has the default pads around
its data. -/
structure Ready (b : FlexBuf) : Prop where
  exact : b.Exact
  room : b.length.toNat ≤ 32 ∨ b.length.toNat + 64 ≤ b.allocation.toNat

lemma ready_new : new.Ready := ⟨exact_new, .inl (by decide)⟩

lemma fits_defaultPad {sz : UInt32} (hsz : sz.toNat + 64 < 2^32) : Fits defaultPad sz defaultPad := by
  have hpad : defaultPad.toNat = 32 := rfl
  unfold Fits
  omega

lemma Ready.copies {b : FlexBuf} (hb : b.Ready) {sz : UInt32} (hsz : sz.toNat + 64 < 2^32) :
    b.Copies defaultPad sz defaultPad := by
  have hpad : defaultPad.toNat = 32 := rfl
  have hroom := hb.room
  rw [Copies, UInt32.le_iff_toNat_le, (fits_defaultPad hsz).toNat_add]
  omega

lemma Ready.laidOut {b : FlexBuf} (hb : b.Ready) {sz : UInt32} (hsz : sz.toNat + 64 < 2^32) :
    LaidOut (b.resetWithAlloc sz defaultPad defaultPad).1 defaultPad sz defaultPad ∧
      AllInside (b.resetWithAlloc sz defaultPad defaultPad).2 :=
  laidOut_resetWithAlloc_of_copies hb.exact (fits_defaultPad hsz) (hb.copies hsz)

lemma LaidOut.ready {b : FlexBuf} {sz : UInt32} (h : LaidOut b defaultPad sz defaultPad) : b.Ready := by
  have hexact := h.exact
  have hpad : defaultPad.toNat = 32 := rfl
  have hh := UInt32.le_iff_toNat_le.mp h.hlength
  have ht := UInt32.le_iff_toNat_le.mp h.tlength
  refine ⟨hexact, .inr ?_⟩
  unfold Exact at hexact
  omega

theorem addHeader_of_le {b : FlexBuf} {len : UInt32} (hb : b.Exact) (hroom : len ≤ b.hlength) :
    (b.addHeader len).1.Exact ∧
      (b.addHeader len).1.hlength.toNat = b.hlength.toNat - len.toNat ∧
      (b.addHeader len).1.length.toNat = b.length.toNat + len.toNat ∧
      (b.addHeader len).1.tlength = b.tlength ∧
      AllInside (b.addHeader len).2 := by
  have hle := UInt32.le_iff_toNat_le.mp hroom
  have hsub := UInt32.toNat_sub_of_le _ _ hroom
  have hlt := b.allocation.toNat_lt
  unfold Exact at hb
  have hadd : (b.length + len).toNat = b.length.toNat + len.toNat := by
    rw [UInt32.toNat_add]
    omega
  simp only [addHeader, if_neg (UInt32.not_lt.mpr hroom)]
  simp only [Exact, hsub, hadd, List.nil_append, allInside_cons, allInside_nil, Span.Inside]
  exact ⟨by omega, trivial, trivial, trivial, by omega, trivial⟩

theorem addHeaders_of_le {b : FlexBuf} (lens : List UInt32) (hb : b.Exact)
    (hroom : (lens.map UInt32.toNat).sum ≤ b.hlength.toNat) :
    (b.addHeaders lens).1.Exact ∧
      (b.addHeaders lens).1.hlength.toNat = b.hlength.toNat - (lens.map UInt32.toNat).sum ∧
      (b.addHeaders lens).1.length.toNat = b.length.toNat + (lens.map UInt32.toNat).sum ∧
      (b.addHeaders lens).1.tlength = b.tlength ∧
      AllInside (b.addHeaders lens).2 := by
  induction lens generalizing b with
  | nil => simpa [addHeaders] using hb
  | cons len lens ih =>
    rw [List.map_cons, List.sum_cons] at hroom ⊢
    obtain ⟨hexact, hhl, hl, htl, hin⟩ :=
      addHeader_of_le hb (UInt32.le_iff_toNat_le.mpr (by omega : len.toNat ≤ b.hlength.toNat))
    obtain ⟨hexact', hhl', hl', htl', hin'⟩ := ih hexact (by omega)
    rw [addHeaders]
    refine ⟨hexact', by rw [hhl', hhl]; omega, by rw [hl', hl]; omega, by rw [htl', htl], ?_⟩
    exact allInside_append.mpr ⟨hin, hin'⟩

theorem resetWithAlloc_new {sz hpadsz : UInt32} (hpad : 0 < hpadsz) (hfits : Fits hpadsz sz 0) :
    (new.resetWithAlloc sz hpadsz 0).1 = ⟨hpadsz + sz + 0, hpadsz, sz, 0⟩ := by
  have hneeds : new.length ≠ sz ∨ new.hlength < hpadsz ∨ new.tlength < 0 := .inr (.inl hpad)
  have hkeep : ¬(hpadsz ≤ new.hlength ∧ sz = new.length ∧ 0 ≤ new.tlength) :=
    fun hk => absurd hk.1 (UInt32.not_le.mpr hpad)
  have hsz : ¬hpadsz + sz + 0 ≤ new.allocation := by
    have hpos := UInt32.lt_iff_toNat_lt.mp hpad
    rw [UInt32.le_iff_toNat_le, hfits.toNat_add]
    simp only [new, UInt32.toNat_zero] at hpos ⊢
    omega
  rw [resetWithAlloc, if_pos hneeds, resizeAllocation, if_neg hkeep, if_neg hsz]

theorem not_inside_resetWithAlloc_new {sz hpadsz : UInt32} (hpad : 0 < hpadsz)
    (h : 2^32 ≤ hpadsz.toNat + sz.toNat) :
    ¬AllInside (new.resetWithAlloc sz hpadsz 0).2 := by
  intro hin
  have hlt := (hpadsz + sz + 0).toNat_lt
  have hneeds : new.length ≠ sz ∨ new.hlength < hpadsz ∨ new.tlength < 0 := .inr (.inl hpad)
  have hkeep : ¬(hpadsz ≤ new.hlength ∧ sz = new.length ∧ 0 ≤ new.tlength) :=
    fun hk => absurd hk.1 (UInt32.not_le.mpr hpad)
  rw [resetWithAlloc, if_pos hneeds, resizeAllocation, if_neg hkeep] at hin
  by_cases hsz : hpadsz + sz + 0 ≤ new.allocation
  · -- the sizes add up to 0, and the empty buffer is taken as it is
    have hzero : hpadsz + sz + 0 = 0 := UInt32.le_zero_iff.mp hsz
    rw [if_pos hsz, hzero] at hin
    simp only [List.nil_append, allInside_cons, Span.Inside, new] at hin
    have hhd : (hpadsz + (0 - 0) / 2 + (0 - 0) % 2).toNat = hpadsz.toNat := by simp
    rw [hhd] at hin
    have := hin.1
    simp at this
    omega
  · rw [if_neg hsz] at hin
    simp only [allInside_append, allInside_cons, Span.Inside] at hin
    omega

end FlexBuf

end Bfs.Utils
