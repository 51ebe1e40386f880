import Bfs.Ext4.ReadAfterWrite

/-! Rollback protection of the lwext4 device. The check of a read binds all blocks of the request to
the tree, but only when it is reached: a request whose last block was never written skips it. -/
namespace Bfs.Ext4
open ByteSeq HeapTree Bfs.Fs

section Fresh

variable {C : Crypto} {V : Ext4Volume} {s : DevState}

def devSealings {n : ℕ} (acts : List (DevAct n)) : List (Aead.Sealing ℕ Iv Block) :=
  acts.flatMap DevAct.sealings

lemma noteBlks_sealed {last : ℕ → Option (Iv × Block)} {log : List (Aead.Sealing ℕ Iv Block)}
    (hlog : ∀ b blk, last b = some blk → ⟨b, blk.1, blk.2⟩ ∈ log) (start : ℕ)
    (blks : List (Iv × Block)) {b : ℕ} {blk : Iv × Block}
    (hlast : noteBlks last start blks b = some blk) :
    ⟨b, blk.1, blk.2⟩ ∈ log ++ blks.mapIdx fun j blk => ⟨start + j, blk.1, blk.2⟩ := by
  by_cases hb : start ≤ b ∧ b < start + blks.length
  · obtain ⟨j, rfl⟩ : ∃ j, b = start + j := ⟨b - start, by omega⟩
    rw [noteBlks_inside blks (by omega)] at hlast
    apply List.mem_append_right
    rw [List.mem_iff_getElem?]
    exact ⟨j, by rw [List.getElem?_mapIdx, hlast]; rfl⟩
  · rw [noteBlks_outside blks (by omega)] at hlast
    exact List.mem_append_left _ (hlog b blk hlast)

lemma lastBlks_sealed {n : ℕ} (acts : List (DevAct n)) {last : ℕ → Option (Iv × Block)}
    {log : List (Aead.Sealing ℕ Iv Block)}
    (hlog : ∀ b blk, last b = some blk → ⟨b, blk.1, blk.2⟩ ∈ log) {b : ℕ} {blk : Iv × Block}
    (hlast : acts.foldl DevAct.noteWrite last b = some blk) :
    ⟨b, blk.1, blk.2⟩ ∈ log ++ devSealings acts := by
  induction acts generalizing last log with
  | nil => exact List.mem_append_left _ (hlog b blk hlast)
  | cons a acts ih =>
    have hstep : ∀ b blk, a.noteWrite last b = some blk → ⟨b, blk.1, blk.2⟩ ∈ log ++ a.sealings := by
      intro b blk hb
      cases a with
      | write start blks inside => exact noteBlks_sealed hlog start blks hb
      | read start cnt buf inside => exact List.mem_append_left _ (hlog b blk hb)
      | finishFormat => exact List.mem_append_left _ (hlog b blk hb)
      | mount => exact List.mem_append_left _ (hlog b blk hb)
      | tamper b' blk' => exact List.mem_append_left _ (hlog b blk hb)
    have hmem := ih hstep hlast
    rw [List.append_assoc] at hmem
    exact hmem

lemma lastBlks_mem_devSealings {n : ℕ} {acts : List (DevAct n)} {b : ℕ} {blk : Iv × Block}
    (hlast : lastBlks acts b = some blk) : ⟨b, blk.1, blk.2⟩ ∈ devSealings acts := by
  have hnone : ∀ b (blk : Iv × Block), (none : Option (Iv × Block)) = some blk →
      (⟨b, blk.1, blk.2⟩ : Aead.Sealing ℕ Iv Block) ∈ [] :=
    fun b blk h => absurd h (by simp)
  exact lastBlks_sealed acts hnone hlast

lemma DevInv.data_fresh {c : ℕ → List UInt8} {last : ℕ → Option (Iv × Block)} {intact : ℕ → Prop}
    {log : List (Aead.Sealing ℕ Iv Block)} (hs : DevInv C V s c last intact)
    (hA : Aead.Ideal C.toScheme log) {b : ℕ} (hb : b < V.numBlks) {blk : Iv × Block}
    (hmem : ⟨b, blk.1, blk.2⟩ ∈ log) {data : Block} {mac : Mac}
    (hread : readSealed C V.cfg s.disk b = .ok (data, mac))
    (hmac : mac = (C.enc b blk.1 blk.2).2) : data = blk.2 := by
  rw [hs.readSealed_eq hb] at hread
  cases hdec : C.dec b (V.cfg.vol.slotOf s.disk b).1 (s.disk.blk b)
      (V.cfg.vol.slotOf s.disk b).2 with
  | none => simp [hdec] at hread
  | some found =>
    simp only [hdec, Except.ok.injEq, Prod.mk.injEq] at hread
    obtain ⟨rfl, htag⟩ := hread
    rw [htag, hmac] at hdec
    exact hA.msg_eq hmem hdec

/-- On a mounted device with Merkle tree, under any tampering: a successful read of a request whose
blocks were all written delivers the data written last. -/
theorem bread_fresh_of_all_written (hC : CollisionFree C) (huse : V.cfg.useMt = true)
    {acts : List (DevAct V.numBlks)} (hA : Aead.Ideal C.toScheme (devSealings acts))
    (hrun : deviceAfter C V acts = some s) (hmounted : s.status = .mounted) {start cnt : ℕ}
    (hin : start + cnt ≤ V.numBlks) (hall : ∀ j < cnt, (lastBlks acts (start + j)).isSome)
    {buf out : ℕ → Block} {s' : DevState}
    (hok : fileDevBread C V.cfg s buf start cnt = (.ok out, s')) :
    ∀ j < cnt, ∃ iv, lastBlks acts (start + j) = some (iv, out j) := by
  obtain ⟨c, hs, htree⟩ := deviceAfter_inv hrun
  obtain ⟨t', -, hdone, hcheck⟩ := fileDevBread_ok hok
  have hhere : ∀ j < cnt, ReadHere s start cnt 0 j := by
    intro j hj
    refine ⟨Nat.zero_le j, hj, Bool.eq_false_iff.mpr ?_⟩
    intro hunseen
    have hsome := hall j hj
    rw [(hs.unseen_iff _).mp hunseen] at hsome
    exact absurd hsome (by simp)
  intro j hj
  have hchecks : Checks V.cfg s start cnt 0 := ⟨hhere (cnt - 1) (by omega), by simp [huse, hmounted]⟩
  obtain ⟨c₁, -, heq⟩ := hs.checked huse hin (hcheck.checked hchecks)
  obtain ⟨-, hmacs⟩ := heq hC (htree huse hC)
  obtain ⟨blk, hlast⟩ := Option.isSome_iff_exists.mp (hall j hj)
  have hpow := V.pow huse
  have hmac : macAt C V.cfg s.disk (start + j) = (C.enc (start + j) blk.1 blk.2).2 := by
    apply Buf.ext
    rw [hmacs j hj]
    exact (htree huse hC).leaf_mac (start + j) (by rw [← hpow]; exact lt_of_lt_of_le (by omega) hin)
      blk.1 blk.2 hlast
  have hdata := hs.data_fresh hA (by omega) (lastBlks_mem_devSealings hlast)
    (hdone.opened j (hhere j hj)) hmac
  refine ⟨blk.1, ?_⟩
  have hout : out j = dataAt C V.cfg s.disk (start + j) := by
    cases j with
    | zero => rw [hdone.first_kept fun i _ hi => (hhere i hi).2.2, if_pos (hhere 0 hj)]; rfl
    | succ j => rw [hdone.slice (j+1) (by omega), if_pos (hhere (j+1) hj)]
  rw [hlast, hout, hdata]

end Fresh

section Complete

variable {C : Crypto} {V : Ext4Volume} {s : DevState} {c : ℕ → List UInt8}
  {last : ℕ → Option (Iv × Block)} {intact : ℕ → Prop}

lemma verifyMt_succeeds {cfg : DevCfg} {d : Disk} {t : MerkleTree} {k start cnt : ℕ}
    {macs : ℕ → Option Mac} {f : ℕ → Mac} (ht : Ready t k c) (hinv : TreeInv C k c last)
    (hin : start + cnt ≤ 2^(k+1)) (hwritten : ∀ j < cnt, (last (start + j)).isSome)
    (hmacs : ∀ j < cnt, macs j = some (f j))
    (hleaf : ∀ j < cnt, (f j).toList = c (leaf (k+1) (start + j))) :
    (verifyMt C cfg d t start cnt macs).1 = .ok () := by
  obtain ⟨t₁, c₁, hset, ht₁, hleaves⟩ := setLeaves_eq start cnt 0 ht (by omega)
    (fun i _ hi => hmacs i (by omega))
  rw [Nat.zero_add] at hleaves
  have hsame : c₁ = c := by
    funext i
    by_cases hi : i < 2^(k+1) - 1
    · exact hleaves.inner i hi
    · obtain ⟨b, rfl⟩ : ∃ b, i = leaf (k+1) b := ⟨i - (2^(k+1) - 1), by unfold leaf; omega⟩
      by_cases hb : b < start + 0 ∨ start + cnt ≤ b
      · exact hleaves.outside b hb
      · obtain ⟨j, rfl⟩ : ∃ j, b = start + j := ⟨b - start, by omega⟩
        rw [hleaves.inside j (Nat.zero_le j) (by omega), hleaf j (by omega)]
  subst hsame
  simp only [verifyMt, ht.root_get, hset, ht₁.holds.height_eq, reduceCtorEq, if_false]
  cases checkNodes_cases (C := C) (v := cfg.vol) (d := d) (uniqueNodes (k+1) start cnt) ht₁
      (fun i hi => uniqueNodes_lt hin hi) (pairwise_uniqueNodes _ _ _) with
  | inl hgood =>
    obtain ⟨t', hcheck, -, -⟩ := hgood
    rw [hcheck]
  | inr hbad =>
    obtain ⟨-, i, hi, hge, hne⟩ := hbad
    obtain ⟨j, hj, hmem⟩ := mem_uniqueNodes.mp hi
    obtain rfl := mem_ascend_up_leaf (by omega) hmem hge
    obtain ⟨hl, hr⟩ := children_up_leaf k (start + j)
    rw [innerHash_up_leaf, hl, hr, hinv.parent (start + j) (by omega) (hwritten j hj)] at hne
    exact absurd rfl hne

lemma DevInv.bread_succeeds {log : List (Aead.Sealing ℕ Iv Block)}
    (hs : DevInv C V s c last intact) (htree : V.cfg.useMt = true → TreeInv C V.levels c last)
    (hA : Aead.Ideal C.toScheme log) (hlog : ∀ b blk, last b = some blk → ⟨b, blk.1, blk.2⟩ ∈ log)
    {start cnt : ℕ} (hin : start + cnt ≤ V.numBlks)
    (hall : ∀ j < cnt, (last (start + j)).isSome ∧ intact (start + j)) (buf : ℕ → Block) :
    ∃ out s', fileDevBread C V.cfg s buf start cnt = (.ok out, s') := by
  have hread : ∀ j < cnt, ∃ blk, last (start + j) = some blk ∧
      readSealed C V.cfg s.disk (start + j) = .ok (blk.2, (C.enc (start + j) blk.1 blk.2).2) := by
    intro j hj
    obtain ⟨blk, hlast⟩ := Option.isSome_iff_exists.mp (hall j hj).1
    exact ⟨blk, hlast, hs.readSealed_intact (hall j hj).2 hlast (hA.opens _ (hlog _ blk hlast))⟩
  obtain ⟨out, t', hloop⟩ := breadLoop_succeeds C V.cfg s start cnt 0
    buf (fun _ => none) s.mt (Nat.zero_add cnt) (fun i hi => ⟨_, (hread i hi.2.1).choose_spec.2⟩) (by
      intro hcheck
      have huse : V.cfg.useMt = true := by
        have hand := hcheck.2
        simp only [Bool.and_eq_true] at hand
        exact hand.1
      apply verifyMt_succeeds (f := fun j => macAt C V.cfg s.disk (start + j)) (hs.tree huse)
        (htree huse) (V.pow huse ▸ hin) (fun j hj => (hall j hj).1)
      · intro j hj
        apply if_pos
        refine ⟨Nat.zero_le j, hj, Bool.eq_false_iff.mpr ?_⟩
        intro hunseen
        have hsome := (hall j hj).1
        rw [(hs.unseen_iff _).mp hunseen] at hsome
        exact absurd hsome (by simp)
      · intro j hj
        obtain ⟨blk, hlast, hok⟩ := hread j hj
        rw [(readSealed_dataAt hok).2]
        exact ((htree huse).leaf_mac (start + j)
          (by rw [← V.pow huse]; exact lt_of_lt_of_le (by omega) hin) blk.1 blk.2 hlast).symm)
  exact ⟨out, { s with mt := t' }, by rw [fileDevBread, hloop]⟩

end Complete

section Survive

variable {C : Crypto} {V : Ext4Volume} {s : DevState} {c : ℕ → List UInt8}
  {last : ℕ → Option (Iv × Block)} {intact : ℕ → Prop}

lemma DevInv.run_writes (hs : DevInv C V s c last intact) (acts : List (DevAct V.numBlks))
    (hacts : ∀ a ∈ acts, a.isWrite = true) :
    ∃ s', runDev C V.cfg s acts = some s' ∧ s'.status = s.status := by
  induction acts generalizing s c last intact with
  | nil => exact ⟨s, rfl, rfl⟩
  | cons a acts ih =>
    have ha := hacts a List.mem_cons_self
    cases a with
    | write start blks inside =>
      obtain ⟨s₁, c₁, hrun, hst, hs₁, -⟩ := hs.bwrite start blks inside
      obtain ⟨s', hrest, hst'⟩ := ih hs₁ (fun a ha => hacts a (List.mem_cons_of_mem _ ha))
      refine ⟨s', ?_, hst'.trans hst⟩
      rw [runDev, List.foldlM_cons, DevAct.exec, hrun]
      exact hrest
    | _ => exact absurd ha (by simp [DevAct.isWrite])

lemma deviceAfter_mounted (C : Crypto) (V : Ext4Volume) (writes : List (DevAct V.numBlks))
    (hacts : ∀ a ∈ writes, a.isWrite = true) :
    ∃ s, deviceAfter C V (writes ++ [.finishFormat, .mount]) = some s ∧ s.status = .mounted := by
  obtain ⟨s₀, hstart, hst₀, hs₀⟩ := startFormat_eq C V
  obtain ⟨s₁, hrun, hst₁⟩ := hs₀.run_writes writes hacts
  obtain ⟨c₁, hs₁, -⟩ := hs₀.run writes hrun
  obtain ⟨s₂, hfinish, hst₂, hs₂⟩ := hs₁.finishFormat (hst₁.trans hst₀)
  obtain ⟨hmount, -⟩ := hs₂.mountDev hst₂
  refine ⟨{ s₂ with status := .mounted }, ?_, rfl⟩
  rw [runDev] at hrun
  simp only [deviceAfter, hstart, runDev, List.foldlM_append, hrun, Option.bind_eq_bind,
    Option.bind_some, List.foldlM_cons, List.foldlM_nil, DevAct.exec, hfinish, hmount,
    Option.pure_def]

lemma deviceAfter_append (C : Crypto) (V : Ext4Volume) (acts more : List (DevAct V.numBlks)) :
    deviceAfter C V (acts ++ more) = (deviceAfter C V acts).bind (runDev C V.cfg · more) := by
  unfold deviceAfter
  cases startFormat C V.cfg V.disk with
  | error e => rfl
  | ok s₀ =>
    simp only [runDev, List.foldlM_append]
    rfl

lemma runDev_tamper_two {n : ℕ} (C : Crypto) (cfg : DevCfg) (s : DevState) (b b' : ℕ)
    (blk blk' : Block) :
    runDev C cfg s [(.tamper b blk : DevAct n), .tamper b' blk'] = some { s with disk :=
      ⟨s.disk.size, Function.update (Function.update s.disk.blk b blk) b' blk'⟩ } := rfl

end Survive

section Example

def treeDevice : Ext4Volume where
  cfg := ⟨8192, true⟩
  levels := 12
  pow := by simp
  disk := ⟨8192 + lwext4MetaSpc 8192, fun _ => Buf.fill 0 blkSz⟩
  whole := treelessDevice.whole

def rewriteBlk : List (DevAct treeDevice.numBlks) :=
  [.write 1 [(Buf.fill 2 ivLen, Buf.fill 7 blkSz)] (by decide),
    .write 1 [(Buf.fill 3 ivLen, Buf.fill 8 blkSz)] (by decide), .finishFormat, .mount]

def staleEntry : Block :=
  ((Buf.fill 0 blkSz).copy (ivOff 1) (Buf.fill 2 ivLen) (ivOff_fits 1)).copy
    (ivOff 1 + ivLen) (macOfIv (Buf.fill 2 ivLen)) (macOff_fits 1)

def rollBack : List (DevAct treeDevice.numBlks) :=
  rewriteBlk ++ [.tamper 1 (Buf.fill 7 blkSz), .tamper (treeDevice.cfg.vol.metaBlk 1) staleEntry]

def rewriteCrypto : Crypto := ledgerCrypto (devSealings rewriteBlk)

lemma devSealings_rewriteBlk : devSealings rewriteBlk =
    [⟨1, Buf.fill 2 ivLen, Buf.fill 7 blkSz⟩, ⟨1, Buf.fill 3 ivLen, Buf.fill 8 blkSz⟩] := rfl

lemma rewriteCrypto_ideal : Aead.Ideal rewriteCrypto.toScheme (devSealings rewriteBlk) := by
  apply ledgerCrypto_ideal
  have h23 := fill_iv_ne (x := 2) (y := 3) (by decide)
  intro e he e' he' _ hnonce
  simp only [devSealings_rewriteBlk, List.mem_cons, List.not_mem_nil, or_false] at he he'
  rcases he with rfl | rfl <;> rcases he' with rfl | rfl
  · rfl
  · exact absurd hnonce h23
  · exact absurd hnonce.symm h23
  · rfl

lemma lastBlks_rewriteBlk (b : ℕ) : lastBlks rewriteBlk b =
    if b = 1 then some (Buf.fill 3 ivLen, Buf.fill 8 blkSz) else none := by
  simp only [lastBlks, rewriteBlk, List.foldl_cons, List.foldl_nil, DevAct.noteWrite, noteBlks,
    Function.update_idem, Function.update_apply]

lemma rewriteBlk_run : ∃ s, deviceAfter rewriteCrypto treeDevice rewriteBlk = some s ∧
    s.status = .mounted :=
  deviceAfter_mounted rewriteCrypto treeDevice (rewriteBlk.take 2) (by simp [rewriteBlk, DevAct.isWrite])

theorem bread_of_rewritten_block :
    ∃ s out s' iv, deviceAfter rewriteCrypto treeDevice rewriteBlk = some s ∧
      fileDevBread rewriteCrypto treeDevice.cfg s (fun _ => Buf.fill 0 blkSz) 1 1 = (.ok out, s') ∧
      lastBlks rewriteBlk 1 = some (iv, out 0) := by
  obtain ⟨s, hrun, hst⟩ := rewriteBlk_run
  have hC : CollisionFree rewriteCrypto := ledgerCrypto_collisionFree _
  obtain ⟨c, hs, htree⟩ := deviceAfter_inv hrun
  have hwritten : ∀ j < 1, (lastBlks rewriteBlk (1 + j)).isSome := by
    intro j hj
    rw [lastBlks_rewriteBlk, if_pos (by omega)]
    rfl
  have hsafe : treeDevice.RootSafe 1 := Or.inr (by decide)
  have hintact : ∀ j < 1, rewriteBlk.foldl (DevAct.noteIntact treeDevice) (fun _ => False) (1 + j) := by
    intro j hj
    obtain rfl : j = 0 := by omega
    exact ⟨hsafe, hsafe, Or.inl ⟨le_rfl, Nat.lt_succ_self 1⟩⟩
  obtain ⟨out, s', hok⟩ := hs.bread_succeeds (fun huse => htree huse hC) rewriteCrypto_ideal
    (fun b blk hlast => lastBlks_mem_devSealings hlast) (by decide)
    (fun j hj => ⟨hwritten j hj, hintact j hj⟩) (fun _ => Buf.fill 0 blkSz)
  obtain ⟨iv, hlast⟩ := bread_fresh_of_all_written hC rfl rewriteCrypto_ideal hrun hst (by decide)
    hwritten hok 0 (by omega)
  exact ⟨s, out, s', iv, hrun, hok, hlast⟩

lemma rollBack_run {s : DevState} (hrun : deviceAfter rewriteCrypto treeDevice rewriteBlk = some s) :
    deviceAfter rewriteCrypto treeDevice rollBack = some { s with disk := ⟨s.disk.size,
      Function.update (Function.update s.disk.blk 1 (Buf.fill 7 blkSz))
        (treeDevice.cfg.vol.metaBlk 1) staleEntry⟩ } := by
  rw [rollBack, deviceAfter_append, hrun]
  exact runDev_tamper_two _ _ _ _ _ _ _

lemma slotOf_staleEntry {d : Disk} (hmeta : d.blk (treeDevice.cfg.vol.metaBlk 1) = staleEntry) :
    treeDevice.cfg.vol.slotOf d 1 = (Buf.fill 2 ivLen, macOfIv (Buf.fill 2 ivLen)) := by
  simp only [Volume.slotOf, hmeta, staleEntry, Buf.sub_copy_same, Prod.mk.injEq, and_true]
  rw [Buf.sub_copy_disjoint _ _ _ _ _ _ _ (Or.inl le_rfl), Buf.sub_copy_same]

/-- Block 1 is rolled back, and read between two blocks that were never written: the request is not
checked, and the old content is delivered. -/
theorem rolled_back_block_delivered_unchecked :
    CollisionFree rewriteCrypto ∧ Aead.Ideal rewriteCrypto.toScheme (devSealings rollBack) ∧
      ∃ s out s', deviceAfter rewriteCrypto treeDevice rollBack = some s ∧ s.status = .mounted ∧
        fileDevBread rewriteCrypto treeDevice.cfg s (fun _ => Buf.fill 0 blkSz) 0 3 =
          (.ok out, s') ∧
        lastBlks rollBack 1 = some (Buf.fill 3 ivLen, Buf.fill 8 blkSz) ∧
        out 1 = Buf.fill 7 blkSz := by
  refine ⟨ledgerCrypto_collisionFree _, rewriteCrypto_ideal, ?_⟩
  obtain ⟨s₀, hrun₀, hst⟩ := rewriteBlk_run
  have hrun := rollBack_run hrun₀
  obtain ⟨c, hs, -⟩ := deviceAfter_inv hrun
  have hlast : ∀ b, lastBlks rollBack b = lastBlks rewriteBlk b := fun _ => rfl
  generalize hd : (⟨s₀.disk.size, Function.update (Function.update s₀.disk.blk 1 (Buf.fill 7 blkSz))
    (treeDevice.cfg.vol.metaBlk 1) staleEntry⟩ : Disk) = d at hrun hs
  have hblk : d.blk 1 = Buf.fill 7 blkSz := by
    rw [← hd]
    simp only [Function.update_of_ne (show 1 ≠ treeDevice.cfg.vol.metaBlk 1 by decide),
      Function.update_self]
  have hmeta : d.blk (treeDevice.cfg.vol.metaBlk 1) = staleEntry := by
    rw [← hd]
    simp only [Function.update_self]
  have hslot := slotOf_staleEntry hmeta
  have hread : readSealed rewriteCrypto treeDevice.cfg d 1 =
      .ok (Buf.fill 7 blkSz, macOfIv (Buf.fill 2 ivLen)) := by
    have hdec : rewriteCrypto.dec 1 (Buf.fill 2 ivLen) (Buf.fill 7 blkSz)
        (macOfIv (Buf.fill 2 ivLen)) = some (Buf.fill 7 blkSz) :=
      ledgerCrypto_dec (by rw [devSealings_rewriteBlk]; exact List.mem_cons_self)
    have heq := hs.readSealed_eq (show 1 < treeDevice.numBlks by decide)
    simp only [hslot, hblk, hdec] at heq
    exact heq
  have hhere : ∀ i, ReadHere { s₀ with disk := d } 0 3 0 i ↔ i = 1 := by
    intro i
    have hseen := hs.unseen_iff (0 + i)
    rw [hlast, lastBlks_rewriteBlk, Nat.zero_add] at hseen
    unfold ReadHere
    rw [Nat.zero_add, ← Bool.not_eq_true, hseen]
    by_cases hi : i = 1 <;> simp [hi]
  have hopen : ∀ i, ReadHere { s₀ with disk := d } 0 3 0 i →
      ∃ r, readSealed rewriteCrypto treeDevice.cfg d (0 + i) = .ok r := by
    intro i hi
    obtain rfl := (hhere i).mp hi
    exact ⟨_, hread⟩
  obtain ⟨out, t', hloop⟩ := breadLoop_succeeds rewriteCrypto treeDevice.cfg { s₀ with disk := d } 0 3 0
    (fun _ => Buf.fill 0 blkSz) (fun _ => none) s₀.mt (Nat.zero_add 3) hopen
    (fun hcheck => absurd ((hhere 2).mp hcheck.1) (by decide))
  have hok : fileDevBread rewriteCrypto treeDevice.cfg { s₀ with disk := d }
      (fun _ => Buf.fill 0 blkSz) 0 3 = (.ok out, { s₀ with disk := d, mt := t' }) := by
    rw [fileDevBread, hloop]
  obtain ⟨-, -, hdone, -⟩ := fileDevBread_ok hok
  refine ⟨_, out, _, hrun, hst, hok, ?_, ?_⟩
  · rw [hlast, lastBlks_rewriteBlk, if_pos rfl]
  · rw [hdone.slice 1 (by omega), if_pos ((hhere 1).mpr rfl)]
    exact (readSealed_dataAt hread).1

end Example

end Bfs.Ext4
