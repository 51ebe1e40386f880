import Bfs.Fs.BlockRun

/-! Rollback protection of the native block path. A read that returns delivers the last write, with
any replacement of blocks on the device. On an untouched device a read succeeds, but for the blocks
whose metadata entry was lost when formatting saved the root hash and that were not rewritten. -/
namespace Bfs.Fs
open ByteSeq HeapTree

section Freshness

variable {C : Crypto} {V : NativeVolume} {s : BlkState} {c : ℕ → List UInt8}
  {last : ℕ → Option (Iv × Block)} {intact : ℕ → Prop} {log : List (Aead.Sealing ℕ Iv Block)}

lemma lt_size_of_readBlk {cfg : BlkCfg} {b : ℕ} {data : Block}
    (hread : (readBlk C cfg s b).1 = .ok data) : b < s.disk.size := by
  by_contra hlt
  have hfail : readBlockHelper s.disk b = .error .failure := if_neg hlt
  simp only [readBlk, hfail] at hread
  split_ifs at hread

lemma Tracks.read_last (hs : Tracks C V s c last intact) (hC : CollisionFree C)
    (hA : Aead.Ideal C.toScheme log) (hst : s.status = .mounted) (hall : V.AllWritten last)
    (hlog : ∀ b iv data, last b = some (iv, data) → ⟨b, iv, data⟩ ∈ log) {b : ℕ} {data : Block}
    (hread : (readBlk C V.cfg s b).1 = .ok data) : ∃ iv, last b = some (iv, data) := by
  have hb : b < V.numBlks := hs.size_eq ▸ lt_size_of_readBlk hread
  have hacc : (readBlk C V.cfg s b).1 ≠ .error .parMismatch := by simp [hread]
  obtain ⟨-, -, -, hok⟩ := hs.read hC hst hall hb hacc
  obtain ⟨hmeta, hopen, hmac⟩ := hok data hread
  obtain ⟨⟨iv, data'⟩, hlast⟩ := Option.isSome_iff_exists.mp (hall b hb hmeta)
  have htag : V.macOf s.disk b = (C.enc b iv data').2 :=
    Buf.ext (hmac.trans (hs.tree.leaf_mac b hb iv data' hlast))
  have hdec : C.dec b (V.cfg.vol.slotOf s.disk b).1 (s.disk.blk b) (C.enc b iv data').2 =
      some data := htag ▸ hopen
  obtain rfl := hA.msg_eq (hlog b iv data' hlast) hdec
  exact ⟨iv, hlast⟩

lemma Tracks.read_intact (hs : Tracks C V s c last intact) (hA : Aead.Ideal C.toScheme log)
    (hst : s.status = .mounted)
    (hlog : ∀ b iv data, last b = some (iv, data) → ⟨b, iv, data⟩ ∈ log) {b : ℕ}
    (hb : b < V.numBlks) (hmeta : V.cfg.isMeta b = false) (hint : intact b) {iv : Iv} {data : Block}
    (hlast : last b = some (iv, data)) : (readBlk C V.cfg s b).1 = .ok data := by
  have hslot := hs.disk.slot_eq b iv data hint hlast
  have hmac : V.macOf s.disk b = (C.enc b iv data).2 := by rw [NativeVolume.macOf, hslot]
  have hopen : V.opened C s.disk b = some data := by
    rw [NativeVolume.opened, hmac, hslot, hs.disk.blk_eq b iv data hint hlast]
    exact hA.opens _ (hlog b iv data hlast)
  have hparent := hs.tree.parent b hb (by rw [hlast]; rfl)
  have hlen : (c (up (leaf (V.levels+1) b))).length = hmacLen := by
    rw [hparent]
    exact length_pairHash C _ _
  have heq : readHash C V.levels c b (V.macOf s.disk b) = c (up (leaf (V.levels+1) b)) := by
    rw [hparent, readHash, hmac, ← hs.tree.leaf_mac b hb iv data hlast, Function.update_eq_self]
  obtain ⟨t, hrun, -, -⟩ := verifyRead_accept C V.cfg s.disk hs.holds hs.unaliased hb
    (V.macOf s.disk b) hlen heq
  simp [V.readBlk_eq hs.size_eq hst hb, hmeta, hopen, hrun, Except.map]

variable (C V) (image : ℕ → Block) (ivs : ℕ → Iv)

lemma mkfsLast_sealed : ∀ b iv data, mkfsLast V image ivs b = some (iv, data) →
    (⟨b, iv, data⟩ : Aead.Sealing ℕ Iv Block) ∈
      (mkfsBlks V.cfg).map fun b => ⟨b, ivs b, image b⟩ := by
  intro b iv data hlast
  unfold mkfsLast at hlast
  split_ifs at hlast with hb
  simp only [Option.some.injEq, Prod.mk.injEq] at hlast
  obtain ⟨rfl, rfl⟩ := hlast
  exact List.mem_map.mpr ⟨b, mem_mkfsBlks.mpr hb, rfl⟩

lemma mkfsLast_allWritten : V.AllWritten (mkfsLast V image ivs) := by
  intro b hb hmeta
  rw [mkfsLast, if_pos ⟨hb, hmeta⟩]
  rfl

/-- On a formatted and mounted volume, after every run without rejected reads: a read that returns
delivers the data written last, whatever the adversary did, and on an untouched device every block
can be read that does not share its metadata block with the root hash or was written since. -/
theorem read_delivers_last_write (hC : CollisionFree C) :
    ∃ s₀, formatAndMount C V image ivs = .ok s₀ ∧
      ∀ acts : List (BlkAct V.numBlks),
        Aead.Ideal C.toScheme (sealedBy V.cfg image ivs acts) → NoneRejected C V.cfg s₀ acts →
        (∀ b data, (readBlk C V.cfg (runBlks C V.cfg s₀ acts) b).1 = .ok data →
          ∃ iv, lastWrites V.cfg (mkfsLast V image ivs) acts b = some (iv, data)) ∧
        ((∀ a ∈ acts, a.isTamper = false) → ∀ b < V.numBlks, V.cfg.isMeta b = false →
          (blkMetaBlkLoc b ≠ blkMetaBlkLoc V.numBlks ∨ ∃ a ∈ acts, a.isWriteOf b) →
          ∃ data, (readBlk C V.cfg (runBlks C V.cfg s₀ acts) b).1 = .ok data) := by
  obtain ⟨s₀, c, d, root, hmount, hst, -, hs⟩ := formatAndMount_eq C V image ivs
  refine ⟨s₀, hmount, ?_⟩
  intro acts hA hacc
  have hlog := lastWrites_sealed V.cfg acts (mkfsLast_sealed V image ivs)
  obtain ⟨c', hst', hall', hs'⟩ := hs.run hC hst (mkfsLast_allWritten V image ivs) acts hacc
  refine ⟨?_, ?_⟩
  · intro b data hread
    exact hs'.read_last hC hA hst' hall' hlog hread
  · intro hclean b hb hmeta hcond
    obtain ⟨⟨iv, data⟩, hlast⟩ := Option.isSome_iff_exists.mp (hall' b hb hmeta)
    exact ⟨data, hs'.read_intact hA hst' hlog hb hmeta (intact_run acts hclean hmeta hcond) hlast⟩

end Freshness

section LostEntries

variable {C : Crypto} {V : NativeVolume} (image : ℕ → Block) (ivs : ℕ → Iv)

lemma slotOf_putRoot_zero {d : Disk} {v : Volume} {b : ℕ}
    (hloc : blkMetaBlkLoc b = blkMetaBlkLoc v.numBlks) (hoff : hmacLen ≤ ivOff b) (root : Hash) :
    v.slotOf (v.putRoot d root) b = (Buf.fill 0 ivLen, Buf.fill 0 macLen) := by
  rw [Volume.slotOf_putRoot_shared hloc, Buf.sub_copy_disjoint _ _ _ _ _ _ _ (Or.inr (by omega)),
    Buf.sub_copy_disjoint _ _ _ _ _ _ _ (Or.inr (by omega)), Buf.sub_fill, Buf.sub_fill]

lemma read_lost_entry (hA : Aead.Ideal C.toScheme (sealedBy V.cfg image ivs ([] : List (BlkAct 0))))
    (hivs : ∀ b, ivs b ≠ Buf.fill 0 ivLen) {b : ℕ} (hb : b < V.numBlks)
    (hmeta : V.cfg.isMeta b = false) (hloc : blkMetaBlkLoc b = blkMetaBlkLoc V.numBlks)
    (hoff : hmacLen ≤ ivOff b) :
    ∃ s₀, formatAndMount C V image ivs = .ok s₀ ∧
      (readBlk C V.cfg s₀ b).1 = .error .decryptFailed := by
  obtain ⟨s₀, c, d, root, hmount, hst, hdisk, hs⟩ := formatAndMount_eq C V image ivs
  refine ⟨s₀, hmount, ?_⟩
  have hslot : V.cfg.vol.slotOf s₀.disk b = (Buf.fill 0 ivLen, Buf.fill 0 macLen) := by
    rw [hdisk]
    exact slotOf_putRoot_zero hloc hoff root
  have hopen : V.opened C s₀.disk b = none := by
    cases hdec : V.opened C s₀.disk b with
    | none => rfl
    | some data =>
      rw [NativeVolume.opened, hslot] at hdec
      obtain ⟨hmem, -⟩ := hA.authentic _ _ _ _ _ hdec
      simp only [sealedBy, List.filterMap_nil, List.append_nil, List.mem_map,
        Aead.Sealing.mk.injEq] at hmem
      obtain ⟨a, -, rfl, hzero, -⟩ := hmem
      exact absurd hzero (hivs a)
  rw [V.readBlk_eq hs.size_eq hst hb, hmeta, hopen]
  rfl

end LostEntries

section Volume8192

def volume8192 : NativeVolume where
  levels := 12
  disk := ⟨8192, fun _ => Buf.fill 0 blkSz⟩
  large := by decide
  whole := rfl

def zeroImage : ℕ → Block := fun _ => Buf.fill 0 blkSz

def onesIvs : ℕ → Iv := fun _ => Buf.fill 1 ivLen

def rewriteLast : List (BlkAct volume8192.numBlks) :=
  [.write ⟨8191, by decide⟩ (Buf.fill 2 ivLen) (Buf.fill 7 blkSz)]

lemma mem_sealedBy_format {e : Aead.Sealing ℕ Iv Block}
    (he : e ∈ (mkfsBlks volume8192.cfg).map fun b => ⟨b, onesIvs b, zeroImage b⟩) :
    e.nonce = Buf.fill 1 ivLen ∧ e.msg = Buf.fill 0 blkSz := by
  obtain ⟨b, -, rfl⟩ := List.mem_map.mp he
  exact ⟨rfl, rfl⟩

lemma sealedBy_format_nonces :
    let log := sealedBy volume8192.cfg zeroImage onesIvs ([] : List (BlkAct 0))
    ∀ e ∈ log, ∀ e' ∈ log, e.id = e'.id → e.nonce = e'.nonce → e.msg = e'.msg := by
  intro log e he e' he' _ _
  rw [(mem_sealedBy_format (by simpa [log, sealedBy] using he)).2,
    (mem_sealedBy_format (by simpa [log, sealedBy] using he')).2]

lemma sealedBy_rewriteLast_nonces :
    let log := sealedBy volume8192.cfg zeroImage onesIvs rewriteLast
    ∀ e ∈ log, ∀ e' ∈ log, e.id = e'.id → e.nonce = e'.nonce → e.msg = e'.msg := by
  have hne : (Buf.fill 1 ivLen : Iv) ≠ Buf.fill 2 ivLen :=
    fun heq => absurd (Buf.fill_injective (by decide) heq) (by decide)
  have hseal : rewriteLast.filterMap (BlkAct.sealing volume8192.cfg) =
      [⟨8191, Buf.fill 2 ivLen, Buf.fill 7 blkSz⟩] := by rfl
  intro log e he e' he' _ hnonce
  simp only [log, sealedBy, hseal, List.mem_append, List.mem_singleton] at he he'
  rcases he with he | rfl <;> rcases he' with he' | rfl
  · rw [(mem_sealedBy_format he).2, (mem_sealedBy_format he').2]
  · exact absurd ((mem_sealedBy_format he).1.symm.trans hnonce) hne
  · exact absurd ((mem_sealedBy_format he').1.symm.trans hnonce.symm) hne
  · rfl

theorem read_rewritten_last_block :
    let C := ledgerCrypto (sealedBy volume8192.cfg zeroImage onesIvs rewriteLast)
    ∃ s₀, formatAndMount C volume8192 zeroImage onesIvs = .ok s₀ ∧
      ∃ data, (readBlk C volume8192.cfg (runBlks C volume8192.cfg s₀ rewriteLast) 8191).1 =
        .ok data := by
  intro C
  obtain ⟨s₀, hmount, hrun⟩ := read_delivers_last_write C volume8192 zeroImage onesIvs
    (ledgerCrypto_collisionFree _)
  obtain ⟨-, hread⟩ := hrun rewriteLast (ledgerCrypto_ideal sealedBy_rewriteLast_nonces)
    ⟨rfl, trivial⟩
  refine ⟨s₀, hmount, hread (by simp [rewriteLast, BlkAct.isTamper]) 8191 (by decide) (by decide) ?_⟩
  exact Or.inr ⟨_, List.mem_singleton_self _, rfl⟩

/-- The last block of a freshly formatted and mounted volume cannot be read, with nothing tampered. -/
theorem formatted_last_block_unreadable :
    let log := sealedBy volume8192.cfg zeroImage onesIvs ([] : List (BlkAct 0))
    let C := ledgerCrypto log
    CollisionFree C ∧ Aead.Ideal C.toScheme log ∧
      mkfsLast volume8192 zeroImage onesIvs 8191 = some (Buf.fill 1 ivLen, Buf.fill 0 blkSz) ∧
      ∃ s₀, formatAndMount C volume8192 zeroImage onesIvs = .ok s₀ ∧
        (readBlk C volume8192.cfg s₀ 8191).1 = .error .decryptFailed := by
  have hA := ledgerCrypto_ideal sealedBy_format_nonces
  have hivs : ∀ b, onesIvs b ≠ Buf.fill 0 ivLen :=
    fun _ heq => absurd (Buf.fill_injective (by decide) heq) (by decide)
  refine ⟨ledgerCrypto_collisionFree _, hA, ?_, ?_⟩
  · exact if_pos (by decide)
  · exact read_lost_entry zeroImage onesIvs hA hivs (by decide) (by decide) (by decide) (by decide)

end Volume8192

end Bfs.Fs
