import Bfs.Ext4.DevRun
import Bfs.Ext4.TreeUpdate

/-! Read after write on the lwext4 device. A read fills the slices of its written blocks, but a block
that was never written clears the first slice instead of its own. -/
namespace Bfs.Ext4
open ByteSeq HeapTree Bfs.Fs

def Inverts (C : Crypto) : Prop :=
  ∀ b iv data, C.dec b iv (C.enc b iv data).1 (C.enc b iv data).2 = some data

/-- What a read is to leave in the slices of the buffer: the blocks written last, zeros for blocks
never written, and nothing changed behind the request. -/
def filled (last : ℕ → Option (Iv × Block)) (start cnt : ℕ) (buf : ℕ → Block) : ℕ → Block := fun i =>
  if i < cnt then
    match last (start + i) with
    | some blk => blk.2
    | none => Buf.fill 0 blkSz
  else buf i

section Opened

variable {C : Crypto} {V : Ext4Volume} {s : DevState} {c : ℕ → List UInt8}
  {last : ℕ → Option (Iv × Block)} {intact : ℕ → Prop}

lemma DevInv.readSealed_eq (hs : DevInv C V s c last intact) {b : ℕ} (hb : b < V.numBlks) :
    readSealed C V.cfg s.disk b =
      match C.dec b (V.cfg.vol.slotOf s.disk b).1 (s.disk.blk b) (V.cfg.vol.slotOf s.disk b).2 with
      | none => .error .thrown
      | some data => .ok (data, (V.cfg.vol.slotOf s.disk b).2) := by
  have hslot := readBlkMeta_slot (V.metaFits hs.size_eq) (b := b) hb.le (Buf.fill 0 ivLen)
    (Buf.fill 0 macLen)
  have hget : readBlockHelper s.disk b = .ok (s.disk.blk b) :=
    if_pos (by rw [hs.size_eq]; exact V.lt_size hb)
  cases hdec : C.dec b (V.cfg.vol.slotOf s.disk b).1 (s.disk.blk b)
      (V.cfg.vol.slotOf s.disk b).2 with
  | none => simp only [readSealed, hget, hslot, hdec]
  | some data => simp only [readSealed, hget, hslot, hdec]

lemma DevInv.readSealed_intact (hs : DevInv C V s c last intact) {b : ℕ} {iv : Iv} {data : Block}
    (hint : intact b) (hlast : last b = some (iv, data))
    (hopen : C.dec b iv (C.enc b iv data).1 (C.enc b iv data).2 = some data) :
    readSealed C V.cfg s.disk b = .ok (data, (C.enc b iv data).2) := by
  have hb := (hs.disk.separate b (by rw [hlast]; rfl)).1
  rw [hs.readSealed_eq hb, hs.disk.slot_eq b iv data hint hlast, hs.disk.blk_eq b iv data hint hlast]
  simp only [hopen]

end Opened

section Fill

variable {C : Crypto} {V : Ext4Volume} {s : DevState}

/-- On an untampered device, for a successful read of a request whose metadata entries survive the
saving of the root: the buffer is filled as it should be, whatever was in it, exactly if every block
of the request but the first was written. -/
theorem bread_fills_iff_written_behind_first (hC : Inverts C) {acts : List (DevAct V.numBlks)}
    (hclean : ∀ a ∈ acts, a.isTamper = false) (hrun : deviceAfter C V acts = some s)
    {start cnt : ℕ} (hsafe : ∀ j < cnt, V.RootSafe (start + j))
    {buf₀ out₀ : ℕ → Block} {s₀ : DevState}
    (hok : fileDevBread C V.cfg s buf₀ start cnt = (.ok out₀, s₀)) :
    (∀ buf out s', fileDevBread C V.cfg s buf start cnt = (.ok out, s') →
      out = filled (lastBlks acts) start cnt buf) ↔
    ∀ j, 1 ≤ j → j < cnt → (lastBlks acts (start + j)).isSome := by
  obtain ⟨c, hs, -⟩ := deviceAfter_inv hrun
  have hint := intact_of_untampered (fun _ => none) (fun _ => False) acts hclean (by simp)
  have hloop : ∀ {buf out s'}, fileDevBread C V.cfg s buf start cnt = (.ok out, s') →
      LoopData C V.cfg s start cnt 0 buf out := by
    intro buf out s' hread
    obtain ⟨-, -, hdone, -⟩ := fileDevBread_ok hread
    exact hdone
  have hdata : ∀ j < cnt, ∀ blk, lastBlks acts (start + j) = some blk →
      ReadHere s start cnt 0 j ∧ dataAt C V.cfg s.disk (start + j) = blk.2 := by
    intro j hj blk hlast
    have hread := hs.readSealed_intact
      (hint (start + j) (hsafe j hj) (by rw [← lastBlks, hlast]; rfl)) hlast (hC _ _ _)
    refine ⟨⟨Nat.zero_le j, hj, ?_⟩, (readSealed_dataAt hread).1⟩
    rw [Bool.eq_false_iff]
    intro hunseen
    rw [(hs.unseen_iff _).mp hunseen] at hlast
    exact absurd hlast (by simp)
  constructor
  · -- A buffer of ones shows the slice of a block that was never written.
    intro hall j hj1 hj
    by_contra hnone
    rw [Option.not_isSome_iff_eq_none] at hnone
    obtain ⟨out, s', hread⟩ := fileDevBread_buf (fun _ => Buf.fill 1 blkSz) hok
    have hslice := (hloop hread).slice j (by omega)
    have hunseen := (hs.unseen_iff (start + j)).mpr hnone
    rw [if_neg (fun hhere => absurd hhere.2.2 (by rw [hunseen]; simp)), hall _ _ _ hread, filled,
      if_pos hj, hnone] at hslice
    exact absurd (Buf.fill_injective (by decide) hslice) (by decide)
  · intro hwritten buf out s' hread
    have hdone := hloop hread
    funext i
    unfold filled
    by_cases hi : i < cnt
    · rw [if_pos hi]
      cases hlast : lastBlks acts (start + i) with
      | some blk =>
        obtain ⟨hhere, hval⟩ := hdata i hi blk hlast
        by_cases hi0 : i = 0
        · subst hi0
          rw [hdone.first_kept, if_pos hhere]
          · exact hval
          · intro j _ hj
            by_cases hj0 : j = 0
            · exact hj0 ▸ hhere.2.2
            · obtain ⟨blk', hlast'⟩ := Option.isSome_iff_exists.mp (hwritten j (by omega) hj)
              exact (hdata j hj blk' hlast').1.2.2
        · rw [hdone.slice i hi0, if_pos hhere, hval]
      | none =>
        by_cases hi0 : i = 0
        · subst hi0
          exact hdone.first_cleared ⟨0, le_rfl, hi, (hs.unseen_iff _).mpr hlast⟩
        · have hsome := hwritten i (by omega) hi
          rw [hlast] at hsome
          exact absurd hsome (by simp)
    · have hnot : ¬ ReadHere s start cnt 0 i := fun hhere => hi hhere.2.1
      rw [if_neg hi]
      by_cases hi0 : i = 0
      · subst hi0
        rw [hdone.first_kept, if_neg hnot]
        intro j _ hj
        omega
      · rw [hdone.slice i hi0, if_neg hnot]

end Fill

section Example

lemma plainCrypto_inverts : Inverts plainCrypto := fun _ _ _ => rfl

def treelessDevice : Ext4Volume where
  cfg := ⟨8192, false⟩
  levels := 12
  pow := by simp
  disk := ⟨8192 + lwext4MetaSpc 8192, fun _ => Buf.fill 0 blkSz⟩
  whole := rfl

def writeFirst : List (DevAct treelessDevice.numBlks) :=
  [.write 0 [(Buf.fill 1 ivLen, Buf.fill 5 blkSz)] (by decide)]

lemma writeFirst_run :
    ∃ s, deviceAfter plainCrypto treelessDevice writeFirst = some s ∧
      readSealed plainCrypto treelessDevice.cfg s.disk 0 =
        .ok (Buf.fill 5 blkSz, macOfIv (Buf.fill 1 ivLen)) ∧
      ∀ b, s.unseen b = true ↔ b ≠ 0 := by
  obtain ⟨s₀, hstart, -, hs₀⟩ := startFormat_eq plainCrypto treelessDevice
  obtain ⟨s, c, hrun, -, hs, -⟩ := hs₀.bwrite 0 [(Buf.fill 1 ivLen, Buf.fill 5 blkSz)] (by decide)
  have hlast : ∀ b, noteBlks (fun _ => none) 0 [((Buf.fill 1 ivLen : Iv), (Buf.fill 5 blkSz : Block))]
      b = if b = 0 then some (Buf.fill 1 ivLen, Buf.fill 5 blkSz) else none := by
    intro b
    simp [noteBlks, Function.update_apply]
  refine ⟨s, ?_, ?_, ?_⟩
  · simp [deviceAfter, hstart, runDev, writeFirst, DevAct.exec, hrun]
  · exact hs.readSealed_intact ⟨Or.inl rfl, Or.inl (by simp)⟩ (hlast 0) rfl
  · intro b
    rw [hs.unseen_iff b, hlast b]
    by_cases hb : b = 0 <;> simp [hb]

lemma writeFirst_readHere {s : DevState} (hunseen : ∀ b, s.unseen b = true ↔ b ≠ 0) {cnt i : ℕ}
    (hhere : ReadHere s 0 cnt 0 i) : i = 0 := by
  by_contra hi
  have hbad := (hunseen (0 + i)).mpr (by omega)
  rw [hhere.2.2] at hbad
  exact absurd hbad (by simp)

lemma writeFirst_reads {s : DevState}
    (hread : readSealed plainCrypto treelessDevice.cfg s.disk 0 =
      .ok (Buf.fill 5 blkSz, macOfIv (Buf.fill 1 ivLen)))
    (hunseen : ∀ b, s.unseen b = true ↔ b ≠ 0) (cnt : ℕ) (buf : ℕ → Block) :
    ∃ out s', fileDevBread plainCrypto treelessDevice.cfg s buf 0 cnt = (.ok out, s') := by
  have hopen : ∀ i, ReadHere s 0 cnt 0 i →
      ∃ r, readSealed plainCrypto treelessDevice.cfg s.disk (0 + i) = .ok r := by
    intro i hi
    obtain rfl := writeFirst_readHere hunseen hi
    exact ⟨_, hread⟩
  obtain ⟨out, t', hloop⟩ := breadLoop_succeeds _ _ s _ cnt 0 buf (fun _ => none) s.mt (Nat.zero_add cnt) hopen
    (fun h => absurd h.2 (by simp [treelessDevice]))
  exact ⟨out, { s with mt := t' }, by rw [fileDevBread, hloop]⟩

theorem bread_of_written_block :
    ∃ s, deviceAfter plainCrypto treelessDevice writeFirst = some s ∧
      (∃ out s', fileDevBread plainCrypto treelessDevice.cfg s (fun _ => Buf.fill 7 blkSz) 0 1 =
        (.ok out, s')) ∧
      ∀ buf out s', fileDevBread plainCrypto treelessDevice.cfg s buf 0 1 = (.ok out, s') →
        out = filled (lastBlks writeFirst) 0 1 buf := by
  obtain ⟨s, hrun, hread, hunseen⟩ := writeFirst_run
  obtain ⟨out, s', hok⟩ := writeFirst_reads hread hunseen 1 (fun _ => Buf.fill 7 blkSz)
  refine ⟨s, hrun, ⟨out, s', hok⟩, ?_⟩
  apply (bread_fills_iff_written_behind_first plainCrypto_inverts (by simp [writeFirst, DevAct.isTamper])
    hrun (fun _ _ => Or.inl rfl) hok).mpr
  intro j hj1 hj
  omega

/-- A request for the written block 0 and the block behind it, which was never written: slice 0 is
cleared and slice 1 keeps what was in the buffer. -/
theorem unwritten_block_clears_first_slice :
    ∃ s out s', deviceAfter plainCrypto treelessDevice writeFirst = some s ∧
      fileDevBread plainCrypto treelessDevice.cfg s (fun _ => Buf.fill 7 blkSz) 0 2 = (.ok out, s') ∧
      lastBlks writeFirst 0 = some (Buf.fill 1 ivLen, Buf.fill 5 blkSz) ∧
      out 0 = Buf.fill 0 blkSz ∧ lastBlks writeFirst 1 = none ∧ out 1 = Buf.fill 7 blkSz := by
  obtain ⟨s, hrun, hread, hunseen⟩ := writeFirst_run
  obtain ⟨out, s', hok⟩ := writeFirst_reads hread hunseen 2 (fun _ => Buf.fill 7 blkSz)
  obtain ⟨-, -, hdone, -⟩ := fileDevBread_ok hok
  refine ⟨s, out, s', hrun, hok, rfl, ?_, rfl, ?_⟩
  · exact hdone.first_cleared ⟨1, by omega, by omega, (hunseen 1).mpr (by omega)⟩
  · rw [hdone.slice 1 (by omega), if_neg]
    exact fun hhere => absurd (writeFirst_readHere hunseen hhere) (by omega)

end Example

end Bfs.Ext4
