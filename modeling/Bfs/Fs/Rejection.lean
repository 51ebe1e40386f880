import Bfs.Fs.Rollback

/-! What remains of a rejected read. It restores every hash, but leaves the parent node in the
scratch buffer of all reads. Nothing is lost as long as no later read gets as far as the parent hash.
A later read below the same parent always passes, because it compares the scratch buffer with
itself. -/
namespace Bfs.Fs
open ByteSeq HeapTree

section Keeps

/-- What every step does with the buffers: none is lost, and an inner node that is held in the
scratch buffer stays there. -/
structure MerkleTree.Keeps (t t' : MerkleTree) : Prop where
  height_eq : t'.height = t.height
  nonnull : ∀ i, t.nodes i ≠ .null → t'.nodes i ≠ .null
  held : ∀ i < 2^t.height - 1, t.nodes i = .currPar → t'.nodes i = .currPar

variable {t t' t'' : MerkleTree}

lemma MerkleTree.Keeps.refl (t : MerkleTree) : t.Keeps t :=
  ⟨rfl, fun _ hi => hi, fun _ _ hi => hi⟩

lemma MerkleTree.Keeps.trans (h₁ : t.Keeps t') (h₂ : t'.Keeps t'') : t.Keeps t'' where
  height_eq := h₂.height_eq.trans h₁.height_eq
  nonnull := fun i hi => h₂.nonnull i (h₁.nonnull i hi)
  held := fun i hlt hi => h₂.held i (h₁.height_eq ▸ hlt) (h₁.held i hlt hi)

lemma MerkleTree.keeps_point {i : ℕ} {q : HashPtr} (hq : q ≠ .null)
    (hheld : i < 2^t.height - 1 → t.nodes i = .currPar → q = .currPar) : t.Keeps (t.point i q) where
  height_eq := rfl
  nonnull := by
    intro j hj
    rw [MerkleTree.point_nodes]
    split_ifs
    · exact hq
    · exact hj
  held := by
    intro j hlt hj
    rw [MerkleTree.point_nodes]
    split_ifs with hji
    · subst hji
      exact hheld hlt hj
    · exact hj

lemma MerkleTree.keeps_point_leaf {h : ℕ} (hh : t.height = h) (b : ℕ) {q : HashPtr}
    (hq : q ≠ .null) : t.Keeps (t.point (leaf h b) q) := by
  subst hh
  apply MerkleTree.keeps_point hq
  intro hlt _
  have hge : 2^t.height - 1 ≤ leaf t.height b := Nat.le_add_left _ _
  omega

lemma MerkleTree.keeps_setCurrPar (bytes : List UInt8) : t.Keeps (t.setCurrPar bytes) :=
  ⟨rfl, fun _ hi => hi, fun _ _ hi => hi⟩

lemma MerkleTree.keeps_store (i : ℕ) (bytes : List UInt8) : t.Keeps (t.store i bytes) := by
  unfold MerkleTree.store
  cases hnode : t.nodes i with
  | currPar => exact MerkleTree.keeps_setCurrPar bytes
  | null => exact MerkleTree.keeps_point (by simp) (by simp [hnode])
  | own old => exact MerkleTree.keeps_point (by simp) (by simp [hnode])

variable (C : Crypto) (cfg : BlkCfg) (d : Disk)

lemma rehashPath_keeps (k : ℕ) {i : ℕ} (hrun : rehashPath C cfg.vol d k t i = .ok t') :
    t.Keeps t' := by
  induction k generalizing t i with
  | zero =>
    obtain rfl := Except.ok.inj hrun
    exact .refl t
  | succ k ih =>
    cases hhash : hashNode C cfg.vol d t i with
    | error e => simp [rehashPath, hhash, bind, Except.bind] at hrun
    | ok bytes =>
      have hstore := MerkleTree.keeps_store (t := t) i bytes
      simp only [rehashPath, hhash, bind, Except.bind] at hrun
      split_ifs at hrun
      · obtain rfl := Except.ok.inj hrun
        exact hstore
      · exact hstore.trans (ih hrun)

lemma updateLeaf_keeps {b : ℕ} {mac : Mac} (hrun : updateLeaf C cfg d t b mac = .ok t') :
    t.Keeps t' := by
  simp only [updateLeaf] at hrun
  split_ifs at hrun
  cases hpath : rehashPath C cfg.vol d t.height (t.point (leaf t.height b) (.own mac.toList))
      (nextUp (leaf t.height b)) with
  | error e => simp [hpath] at hrun
  | ok t₁ =>
    simp only [hpath] at hrun
    obtain rfl := Except.ok.inj hrun
    exact (MerkleTree.keeps_point_leaf rfl b (by simp)).trans (rehashPath_keeps C cfg d _ hpath)

lemma verifyRead_keeps (b : ℕ) (mac : Mac) :
    t.Keeps (verifyRead C cfg d t b mac).2 ∧
      ((verifyRead C cfg d t b mac).1 = .error .parMismatch →
        nextUp (leaf t.height b) ≠ leaf t.height b →
        (verifyRead C cfg d t b mac).2.nodes (nextUp (leaf t.height b)) = .currPar) := by
  simp only [verifyRead]
  split_ifs with hroot hleaf
  · exact ⟨.refl t, by simp⟩
  · exact ⟨.refl t, by simp⟩
  · have hpoint := MerkleTree.keeps_point_leaf (t := t) rfl b (q := .own mac.toList) (by simp)
    have hold : t.nodes (leaf t.height b) ≠ .null := by
      intro hnull
      exact hleaf (by rw [MerkleTree.get, hnull])
    cases hcur : (t.point (leaf t.height b) (.own mac.toList)).get (nextUp (leaf t.height b)) with
    | none =>
      simp only [compareParent, hcur]
      exact ⟨hpoint, by simp⟩
    | some cur =>
      have hscratch := hpoint.trans (MerkleTree.keeps_setCurrPar (cur.take hmacLen))
      cases hhash : hashNode C cfg.vol d ((t.point (leaf t.height b)
          (.own mac.toList)).setCurrPar (cur.take hmacLen)) (nextUp (leaf t.height b)) with
      | error e =>
        simp only [compareParent, hcur, hhash]
        exact ⟨hscratch, by simp⟩
      | ok bytes =>
        simp only [compareParent, hcur, hhash]
        have hstored := hscratch.trans (MerkleTree.keeps_store (nextUp (leaf t.height b)) bytes)
        split_ifs
        · exact ⟨hstored, by simp⟩
        · refine ⟨?_, ?_⟩
          · have hmoved := hstored.trans (MerkleTree.keeps_point (i := nextUp (leaf t.height b))
              (q := .currPar) (by simp) fun _ _ => rfl)
            exact hmoved.trans (MerkleTree.keeps_point_leaf hmoved.height_eq b hold)
          · intro _ hne
            rw [MerkleTree.point_nodes, if_neg hne, MerkleTree.point_nodes, if_pos rfl]

end Keeps

section Blind

variable {t : MerkleTree} {k b : ℕ}

def MerkleTree.Full (t : MerkleTree) (h : ℕ) : Prop :=
  t.height = h ∧ ∀ i < 2^(h+1) - 1, t.nodes i ≠ .null

lemma MerkleTree.Full.keeps {t' : MerkleTree} {h : ℕ} (ht : t.Full h) (hk : t.Keeps t') :
    t'.Full h := ⟨hk.height_eq.trans ht.1, fun i hi => hk.nonnull i (ht.2 i hi)⟩

lemma MerkleTree.Full.get_isSome {h i : ℕ} (ht : t.Full h) (hi : i < 2^(h+1) - 1) :
    ∃ bytes, t.get i = some bytes := by
  have hne := ht.2 i hi
  unfold MerkleTree.get
  cases hnode : t.nodes i with
  | null => exact absurd hnode hne
  | own bytes => exact ⟨bytes, rfl⟩
  | currPar => exact ⟨t.currPar, rfl⟩

lemma MerkleTree.Full.hashNode_ok {h i : ℕ} (C : Crypto) (v : Volume) (d : Disk) (ht : t.Full h)
    (hi : i < 2^h - 1) : ∃ bytes, hashNode C v d t i = .ok bytes := by
  have hsucc := two_pow_succ_sub h
  obtain ⟨left, hleft⟩ := ht.get_isSome (i := 2*i+1) (by omega)
  obtain ⟨right, hright⟩ := ht.get_isSome (i := 2*i+2) (by omega)
  unfold hashNode
  rw [ht.1, if_neg (by omega), hleft, hright]
  exact ⟨_, rfl⟩

lemma verifyRead_blind (C : Crypto) (cfg : BlkCfg) (d : Disk) (ht : t.Full (k+1))
    (hb : b < 2^(k+1)) (hheld : t.nodes (up (leaf (k+1) b)) = .currPar) (mac : Mac) :
    (verifyRead C cfg d t b mac).1 = .ok () := by
  have hpar : up (leaf (k+1) b) < 2^(k+1+1) - 1 := by
    have hlt := up_leaf_lt hb
    rw [two_pow_succ_sub]
    omega
  obtain ⟨root, hroot⟩ := ht.get_isSome (i := 0) (by omega)
  obtain ⟨old, hold⟩ := ht.get_isSome (leaf_lt hb)
  have hkeeps : t.Keeps (t.point (leaf (k+1) b) (.own mac.toList)) :=
    MerkleTree.keeps_point_leaf ht.1 b (by simp)
  have hnode : (t.point (leaf (k+1) b) (.own mac.toList)).nodes (up (leaf (k+1) b)) = .currPar :=
    hkeeps.held _ (by rw [ht.1]; exact up_leaf_lt hb) hheld
  have hcur : (t.point (leaf (k+1) b) (.own mac.toList)).get (up (leaf (k+1) b)) =
      some t.currPar := by
    simp [MerkleTree.get, hnode]
  have hscratch := hkeeps.trans (MerkleTree.keeps_setCurrPar (t.currPar.take hmacLen))
  obtain ⟨bytes, hhash⟩ := (ht.keeps hscratch).hashNode_ok C cfg.vol d (up_leaf_lt hb)
  have hstore : ((t.point (leaf (k+1) b) (.own mac.toList)).setCurrPar
      (t.currPar.take hmacLen)).store (up (leaf (k+1) b)) bytes =
        (t.point (leaf (k+1) b) (.own mac.toList)).setCurrPar bytes := by
    simp [MerkleTree.store, MerkleTree.setCurrPar, hnode]
  have hself := MerkleTree.get_setCurrPar_alias hnode bytes
  have hsame : ((t.point (leaf (k+1) b) (.own mac.toList)).setCurrPar bytes).currPar = bytes := rfl
  simp only [verifyRead, ht.1, hroot, hold, nextUp_eq_up (leaf_succ_pos k b), compareParent, hcur,
    hhash, hstore, hself, hsame, reduceCtorEq, if_false, if_true]

end Blind

section After

variable {C : Crypto} {V : NativeVolume} {s : BlkState}

structure Running (V : NativeVolume) (s : BlkState) : Prop where
  size_eq : s.disk.size = V.numBlks
  status_eq : s.status = .mounted
  full : s.mt.Full (V.levels+1)

lemma Running.exec (hs : Running V s) (a : BlkAct V.numBlks) :
    Running V (a.exec C V.cfg s) ∧ s.mt.Keeps (a.exec C V.cfg s).mt := by
  cases a with
  | write b iv data =>
    simp only [BlkAct.exec]
    cases hmeta : V.cfg.isMeta b with
    | true =>
      rw [writeBlk_meta hmeta]
      exact ⟨hs, .refl _⟩
    | false =>
      rw [V.writeBlk_update hs.size_eq (by simp [hs.status_eq]) b.isLt hmeta]
      cases hupd : updateLeaf C V.cfg (V.cfg.vol.sealBlk C s.disk b iv data) s.mt b
          (C.enc b iv data).2 with
      | error e => exact ⟨⟨hs.size_eq, hs.status_eq, hs.full⟩, .refl _⟩
      | ok t =>
        have hkeeps := updateLeaf_keeps C V.cfg _ hupd
        exact ⟨⟨hs.size_eq, hs.status_eq, hs.full.keeps hkeeps⟩, hkeeps⟩
  | read b =>
    simp only [BlkAct.exec]
    rw [V.readBlk_eq hs.size_eq hs.status_eq b.isLt]
    split_ifs
    · exact ⟨hs, .refl _⟩
    · cases V.opened C s.disk b with
      | none => exact ⟨hs, .refl _⟩
      | some data =>
        have hkeeps := (verifyRead_keeps (t := s.mt) C V.cfg s.disk b (V.macOf s.disk b)).1
        exact ⟨⟨hs.size_eq, hs.status_eq, hs.full.keeps hkeeps⟩, hkeeps⟩
  | tamper b blk => exact ⟨⟨hs.size_eq, hs.status_eq, hs.full⟩, .refl _⟩

lemma Running.run (hs : Running V s) (acts : List (BlkAct V.numBlks)) :
    Running V (runBlks C V.cfg s acts) ∧ s.mt.Keeps (runBlks C V.cfg s acts).mt := by
  induction acts generalizing s with
  | nil => exact ⟨hs, .refl _⟩
  | cons a acts ih =>
    obtain ⟨hs', hkeeps⟩ := hs.exec (C := C) a
    obtain ⟨hs'', hkeeps'⟩ := ih hs'
    exact ⟨hs'', hkeeps.trans hkeeps'⟩

lemma Running.held_of_rejected (hs : Running V s) {b : Fin V.numBlks}
    (hrej : (BlkAct.read b).rejected C V.cfg s = true) :
    V.cfg.isMeta b = false ∧
      ((BlkAct.read b).exec C V.cfg s).mt.nodes (up (leaf (V.levels+1) b)) = .currPar := by
  simp only [BlkAct.rejected, BlkAct.exec] at hrej ⊢
  rw [V.readBlk_eq hs.size_eq hs.status_eq b.isLt] at hrej ⊢
  split_ifs at hrej ⊢ with hmeta
  refine ⟨Bool.eq_false_iff.mpr hmeta, ?_⟩
  cases hopen : V.opened C s.disk b with
  | none => simp [hopen] at hrej
  | some data =>
    simp only [hopen] at hrej
    obtain ⟨-, hheld⟩ := verifyRead_keeps (t := s.mt) C V.cfg s.disk b (V.macOf s.disk b)
    rw [hs.full.1, nextUp_eq_up (leaf_succ_pos V.levels b)] at hheld
    apply hheld ?_ (up_leaf_ne_leaf b.isLt b)
    cases hres : (verifyRead C V.cfg s.disk s.mt b (V.macOf s.disk b)).1 with
    | ok u => simp [hres, Except.map] at hrej
    | error e => cases e <;> simp_all [Except.map]

lemma Running.accepts_after_rejection (hs : Running V s) (b : Fin V.numBlks)
    (post : List (BlkAct V.numBlks)) (hrej : (BlkAct.read b).rejected C V.cfg s = true) {data : Block}
    (hopen : V.opened C (runBlks C V.cfg s (.read b :: post)).disk b = some data) :
    (readBlk C V.cfg (runBlks C V.cfg s (.read b :: post)) b).1 = .ok data := by
  obtain ⟨hs₁, -⟩ := hs.exec (C := C) (.read b)
  obtain ⟨hmeta, hheld⟩ := hs.held_of_rejected hrej
  obtain ⟨hs₂, hkeeps⟩ := hs₁.run (C := C) post
  have hheld₂ := hkeeps.held _ (by rw [hs₁.full.1]; exact up_leaf_lt b.isLt) hheld
  have hblind := verifyRead_blind C V.cfg (runBlks C V.cfg s (.read b :: post)).disk hs₂.full b.isLt
    hheld₂ (V.macOf (runBlks C V.cfg s (.read b :: post)).disk b)
  have hs₃ : Running V (runBlks C V.cfg s (.read b :: post)) := hs₂
  rw [V.readBlk_eq hs₃.size_eq hs₃.status_eq b.isLt, hmeta, hopen]
  exact congrArg (Except.map fun _ => data) hblind

end After

section Erased

variable {n : ℕ} (C : Crypto) (cfg : BlkCfg)

def BlkAct.checked (s : BlkState) : BlkAct n → Bool
  | .read b =>
    match (readBlk C cfg s b).1 with
    | .ok _ => true
    | .error .parMismatch => true
    | _ => false
  | _ => false

def NoneChecked : BlkState → List (BlkAct n) → Prop
  | _, [] => True
  | s, a::acts => a.checked C cfg s = false ∧ NoneChecked (a.exec C cfg s) acts

def NoneCheckedAfterRejection : BlkState → List (BlkAct n) → Prop
  | _, [] => True
  | s, a::acts =>
    if a.rejected C cfg s then NoneChecked C cfg (a.exec C cfg s) acts
    else NoneCheckedAfterRejection (a.exec C cfg s) acts

def withoutRejected : BlkState → List (BlkAct n) → List (BlkAct n)
  | _, [] => []
  | s, a::acts =>
    if a.rejected C cfg s then withoutRejected (a.exec C cfg s) acts
    else a :: withoutRejected (a.exec C cfg s) acts

variable {C cfg} {V : NativeVolume} {s s' : BlkState}

lemma rejected_of_not_checked {a : BlkAct n} (h : a.checked C cfg s = false) :
    a.rejected C cfg s = false := by
  cases a with
  | write b iv data => rfl
  | tamper b blk => rfl
  | read b =>
    simp only [BlkAct.checked, BlkAct.rejected] at h ⊢
    split at h <;> simp_all

structure SameHashes (V : NativeVolume) (s s' : BlkState) (c : ℕ → List UInt8) : Prop where
  disk_eq : s.disk = s'.disk
  size_eq : s.disk.size = V.numBlks
  status_left : s.status = .mounted
  status_right : s'.status = .mounted
  left : s.mt.Holds (V.levels+1) c
  right : s'.mt.Holds (V.levels+1) c

lemma checked_of_opened (hsize : s.disk.size = V.numBlks) (hst : s.status = .mounted)
    (hfull : s.mt.Full (V.levels+1)) {b : Fin V.numBlks} (hmeta : V.cfg.isMeta b = false)
    {data : Block} (hopen : V.opened C s.disk b = some data) :
    (BlkAct.read b).checked C V.cfg s = true := by
  have hpar : up (leaf (V.levels+1) b) < 2^(V.levels+1+1) - 1 := by
    have hlt := up_leaf_lt b.isLt
    rw [two_pow_succ_sub]
    omega
  obtain ⟨root, hroot⟩ := hfull.get_isSome (i := 0) (by omega)
  obtain ⟨old, hold⟩ := hfull.get_isSome (leaf_lt b.isLt)
  have hkeeps : s.mt.Keeps (s.mt.point (leaf (V.levels+1) b) (.own (V.macOf s.disk b).toList)) :=
    MerkleTree.keeps_point_leaf hfull.1 b (by simp)
  obtain ⟨cur, hcur⟩ := (hfull.keeps hkeeps).get_isSome hpar
  have hscratch := hkeeps.trans (MerkleTree.keeps_setCurrPar (cur.take hmacLen))
  obtain ⟨bytes, hhash⟩ := (hfull.keeps hscratch).hashNode_ok C V.cfg.vol s.disk (up_leaf_lt b.isLt)
  simp only [BlkAct.checked, V.readBlk_eq hsize hst b.isLt, hmeta, hopen, verifyRead, hfull.1, hroot,
    hold, nextUp_eq_up (leaf_succ_pos V.levels b), compareParent, hcur, hhash, reduceCtorEq,
    if_false, Bool.false_eq_true]
  split_ifs <;> rfl

lemma MerkleTree.Holds.full {t : MerkleTree} {h : ℕ} {c : ℕ → List UInt8} (ht : t.Holds h c) :
    t.Full h := by
  refine ⟨ht.height_eq, ?_⟩
  intro i hi hnull
  have hget := ht.get_eq i hi
  simp [MerkleTree.get, hnull] at hget

lemma SameHashes.exec {c : ℕ → List UInt8} (hs : SameHashes V s s' c) {a : BlkAct V.numBlks}
    (ha : a.checked C V.cfg s = false) :
    ∃ c', SameHashes V (a.exec C V.cfg s) (a.exec C V.cfg s') c' := by
  have hsize' : s'.disk.size = V.numBlks := hs.disk_eq ▸ hs.size_eq
  cases a with
  | write b iv data =>
    simp only [BlkAct.exec]
    cases hmeta : V.cfg.isMeta b with
    | true =>
      rw [writeBlk_meta hmeta, writeBlk_meta hmeta]
      exact ⟨c, hs⟩
    | false =>
      obtain ⟨t, hrun, ht, -⟩ := V.writeBlk_eq (C := C) hs.size_eq (by simp [hs.status_left]) hs.left
        b.isLt hmeta iv data
      obtain ⟨t', hrun', ht', -⟩ := V.writeBlk_eq (C := C) hsize' (by simp [hs.status_right])
        hs.right b.isLt hmeta iv data
      rw [hrun, hrun']
      refine ⟨_, ?_, hs.size_eq, hs.status_left, hs.status_right, ht, ht'⟩
      rw [hs.disk_eq]
  | read b =>
    -- The read fails before it touches the tree, and both states have the same device.
    have hstuck : ∀ s₁ : BlkState, s₁.disk = s.disk → s₁.status = .mounted →
        (readBlk C V.cfg s₁ b).2 = s₁ := by
      intro s₁ hdisk hst
      rw [V.readBlk_eq (hdisk ▸ hs.size_eq) hst b.isLt, hdisk]
      cases hmeta : V.cfg.isMeta b with
      | true => rfl
      | false =>
        cases hopen : V.opened C s.disk b with
        | none => rfl
        | some data =>
          have hcheck := checked_of_opened hs.size_eq hs.status_left hs.left.full hmeta hopen
          rw [hcheck] at ha
          exact absurd ha (by simp)
    simp only [BlkAct.exec]
    rw [hstuck s rfl hs.status_left, hstuck s' hs.disk_eq.symm hs.status_right]
    exact ⟨c, hs⟩
  | tamper b blk =>
    refine ⟨c, ?_, hs.size_eq, hs.status_left, hs.status_right, hs.left, hs.right⟩
    simp only [BlkAct.exec, hs.disk_eq]

lemma SameHashes.run {c : ℕ → List UInt8} (acts : List (BlkAct V.numBlks))
    (hs : SameHashes V s s' c) (hacts : NoneChecked C V.cfg s acts) :
    ∃ c', SameHashes V (runBlks C V.cfg s acts)
      (runBlks C V.cfg s' (withoutRejected C V.cfg s acts)) c' := by
  induction acts generalizing s s' c with
  | nil => exact ⟨c, hs⟩
  | cons a acts ih =>
    obtain ⟨ha, hacts⟩ := hacts
    obtain ⟨c', hs'⟩ := hs.exec ha
    rw [withoutRejected, if_neg (by rw [rejected_of_not_checked ha]; simp)]
    exact ih hs' hacts

lemma Tracks.rejected {c : ℕ → List UInt8} {last : ℕ → Option (Iv × Block)} {intact : ℕ → Prop}
    (hs : Tracks C V s c last intact) (hst : s.status = .mounted) (hall : V.AllWritten last)
    {b : Fin V.numBlks} (hrej : (BlkAct.read b).rejected C V.cfg s = true) :
    SameHashes V ((BlkAct.read b).exec C V.cfg s) s c := by
  simp only [BlkAct.rejected, BlkAct.exec] at hrej ⊢
  rw [V.readBlk_eq hs.size_eq hst b.isLt] at hrej ⊢
  cases hmeta : V.cfg.isMeta b with
  | true => simp [hmeta] at hrej
  | false =>
    cases hopen : V.opened C s.disk b with
    | none => simp [hmeta, hopen] at hrej
    | some data =>
      simp only [hmeta, hopen, Bool.false_eq_true, if_false] at hrej ⊢
      have hlen : (c (up (leaf (V.levels+1) b))).length = hmacLen := by
        rw [hs.tree.parent b b.isLt (hall b b.isLt hmeta)]
        exact length_pairHash C _ _
      by_cases heq : readHash C V.levels c b (V.macOf s.disk b) = c (up (leaf (V.levels+1) b))
      · obtain ⟨t, hrun, -, -⟩ := verifyRead_accept C V.cfg s.disk hs.holds hs.unaliased b.isLt
          (V.macOf s.disk b) hlen heq
        simp [hrun, Except.map] at hrej
      · obtain ⟨t, hrun, ht, -⟩ := verifyRead_reject C V.cfg s.disk hs.holds hs.unaliased b.isLt
          (V.macOf s.disk b) hlen heq
        rw [hrun]
        exact ⟨rfl, hs.size_eq, hst, hst, ht, hs.holds⟩

lemma Tracks.same_hashes {c : ℕ → List UInt8} {last : ℕ → Option (Iv × Block)} {intact : ℕ → Prop}
    (hs : Tracks C V s c last intact) (hC : CollisionFree C) (hst : s.status = .mounted)
    (hall : V.AllWritten last) (acts : List (BlkAct V.numBlks))
    (hacts : NoneCheckedAfterRejection C V.cfg s acts) :
    ∃ c', SameHashes V (runBlks C V.cfg s acts)
      (runBlks C V.cfg s (withoutRejected C V.cfg s acts)) c' := by
  induction acts generalizing s c last intact with
  | nil => exact ⟨c, rfl, hs.size_eq, hst, hst, hs.holds, hs.holds⟩
  | cons a acts ih =>
    rw [NoneCheckedAfterRejection] at hacts
    rw [withoutRejected]
    cases hrej : a.rejected C V.cfg s with
    | false =>
      rw [hrej, if_neg (by simp)] at hacts
      rw [if_neg (by simp)]
      obtain ⟨c', hst', hs'⟩ := hs.exec hC hst hall a hrej
      exact ih hs' hst' (hall.noteWrite a) hacts
    | true =>
      rw [hrej, if_pos rfl] at hacts
      rw [if_pos rfl]
      cases a with
      | write b iv data => simp [BlkAct.rejected] at hrej
      | tamper b blk => simp [BlkAct.rejected] at hrej
      | read b => exact (hs.rejected hst hall hrej).run acts hacts

end Erased

section Detection

variable (C : Crypto) (V : NativeVolume) (image : ℕ → Block) (ivs : ℕ → Iv)

/-- On a formatted and mounted volume: the rejected reads of a run leave every hash as it is when no
read gets as far as the parent hash after a rejected one. In every run, once a read of a block was
rejected, each later read of it that decrypts is accepted. -/
theorem rejected_reads_harmless_until_next_check (hC : CollisionFree C) :
    ∃ s₀, formatAndMount C V image ivs = .ok s₀ ∧
      (∀ acts : List (BlkAct V.numBlks), NoneCheckedAfterRejection C V.cfg s₀ acts →
        ∀ i < 2^(V.levels+2) - 1, (runBlks C V.cfg s₀ acts).mt.get i =
          (runBlks C V.cfg s₀ (withoutRejected C V.cfg s₀ acts)).mt.get i) ∧
      ∀ (pre post : List (BlkAct V.numBlks)) (b : Fin V.numBlks),
        (BlkAct.read b).rejected C V.cfg (runBlks C V.cfg s₀ pre) = true →
        let s := runBlks C V.cfg s₀ (pre ++ .read b :: post)
        ∀ data, V.opened C s.disk b = some data → (readBlk C V.cfg s b).1 = .ok data := by
  obtain ⟨s₀, c, d, root, hmount, hst, -, hs⟩ := formatAndMount_eq C V image ivs
  refine ⟨s₀, hmount, ?_, ?_⟩
  · intro acts hacts i hi
    obtain ⟨c', hsame⟩ := hs.same_hashes hC hst (mkfsLast_allWritten V image ivs) acts hacts
    rw [hsame.left.get_eq i hi, hsame.right.get_eq i hi]
  · intro pre post b hrej s data hopen
    have hrunning : Running V s₀ := ⟨hs.size_eq, hst, hs.holds.full⟩
    have hsplit : s = runBlks C V.cfg (runBlks C V.cfg s₀ pre) (.read b :: post) :=
      List.foldl_append
    rw [hsplit] at hopen ⊢
    exact (hrunning.run pre).1.accepts_after_rejection b post hrej hopen

end Detection

section Replay

lemma Tracks.rejected_of_mac_ne {C : Crypto} {V : NativeVolume} {s : BlkState} {c : ℕ → List UInt8}
    {last : ℕ → Option (Iv × Block)} {intact : ℕ → Prop} (hs : Tracks C V s c last intact)
    (hC : CollisionFree C) (hst : s.status = .mounted) {b : Fin V.numBlks}
    (hmeta : V.cfg.isMeta b = false) {iv : Iv} {data found : Block}
    (hlast : last b = some (iv, data)) (hopen : V.opened C s.disk b = some found)
    (hne : V.macOf s.disk b ≠ (C.enc b iv data).2) :
    (BlkAct.read b).rejected C V.cfg s = true := by
  have hwritten : (last b).isSome := by rw [hlast]; rfl
  have hlen : (c (up (leaf (V.levels+1) b))).length = hmacLen := by
    rw [hs.tree.parent b b.isLt hwritten]
    exact length_pairHash C _ _
  have hhash : readHash C V.levels c b (V.macOf s.disk b) ≠ c (up (leaf (V.levels+1) b)) := by
    intro heq
    have hmac := hs.tree.mac_of_readHash hC b.isLt hwritten heq
    exact hne (Buf.ext (hmac.trans (hs.tree.leaf_mac b b.isLt iv data hlast)))
  obtain ⟨t, hrun, -, -⟩ := verifyRead_reject C V.cfg s.disk hs.holds hs.unaliased b.isLt
    (V.macOf s.disk b) hlen hhash
  simp only [BlkAct.rejected, V.readBlk_eq hs.size_eq hst b.isLt, hmeta, hopen, hrun]
  rfl

def replayBlk : Fin volume8192.numBlks := ⟨7000, by decide⟩

def oldEntry : Block :=
  ((Buf.fill 0 blkSz).copy (ivOff 7000) (Buf.fill 2 ivLen) (ivOff_fits 7000)).copy
    (ivOff 7000 + ivLen) (macOfIv (Buf.fill 2 ivLen)) (macOff_fits 7000)

def replay : List (BlkAct volume8192.numBlks) :=
  [.write replayBlk (Buf.fill 2 ivLen) (Buf.fill 7 blkSz),
    .write replayBlk (Buf.fill 3 ivLen) (Buf.fill 8 blkSz),
    .tamper 7000 (Buf.fill 7 blkSz),
    .tamper (volume8192.cfg.vol.metaBlk 7000) oldEntry]

lemma sealedBy_replay : replay.filterMap (BlkAct.sealing volume8192.cfg) =
    [⟨7000, Buf.fill 2 ivLen, Buf.fill 7 blkSz⟩, ⟨7000, Buf.fill 3 ivLen, Buf.fill 8 blkSz⟩] := by
  rfl

lemma sealedBy_replay_nonces :
    let log := sealedBy volume8192.cfg zeroImage onesIvs replay
    ∀ e ∈ log, ∀ e' ∈ log, e.id = e'.id → e.nonce = e'.nonce → e.msg = e'.msg := by
  have h12 := fill_iv_ne (x := 1) (y := 2) (by decide)
  have h13 := fill_iv_ne (x := 1) (y := 3) (by decide)
  have h23 := fill_iv_ne (x := 2) (y := 3) (by decide)
  have hcases : ∀ e ∈ sealedBy volume8192.cfg zeroImage onesIvs replay,
      (e.nonce = Buf.fill 1 ivLen ∧ e.msg = Buf.fill 0 blkSz) ∨
      (e.nonce = Buf.fill 2 ivLen ∧ e.msg = Buf.fill 7 blkSz) ∨
      (e.nonce = Buf.fill 3 ivLen ∧ e.msg = Buf.fill 8 blkSz) := by
    intro e he
    simp only [sealedBy, sealedBy_replay, List.mem_append, List.mem_cons, List.not_mem_nil,
      or_false] at he
    rcases he with he | rfl | rfl
    · exact Or.inl (mem_sealedBy_format he)
    · exact Or.inr (Or.inl ⟨rfl, rfl⟩)
    · exact Or.inr (Or.inr ⟨rfl, rfl⟩)
  intro log e he e' he' _ hnonce
  obtain ⟨hn, hm⟩ | ⟨hn, hm⟩ | ⟨hn, hm⟩ := hcases e he <;>
    obtain ⟨hn', hm'⟩ | ⟨hn', hm'⟩ | ⟨hn', hm'⟩ := hcases e' he' <;>
    simp_all

lemma opened_replay (s₀ : BlkState) :
    let C := ledgerCrypto (sealedBy volume8192.cfg zeroImage onesIvs replay)
    volume8192.opened C (runBlks C volume8192.cfg s₀ replay).disk 7000 = some (Buf.fill 7 blkSz) ∧
      volume8192.macOf (runBlks C volume8192.cfg s₀ replay).disk 7000 =
        macOfIv (Buf.fill 2 ivLen) := by
  intro C
  have hne : 7000 ≠ volume8192.cfg.vol.metaBlk 7000 := by decide
  have hblk : (runBlks C volume8192.cfg s₀ replay).disk.blk 7000 = Buf.fill 7 blkSz := by
    simp only [runBlks, replay, List.foldl_cons, List.foldl_nil, BlkAct.exec,
      Function.update_of_ne hne, Function.update_self]
  have hmeta : (runBlks C volume8192.cfg s₀ replay).disk.blk (volume8192.cfg.vol.metaBlk 7000) =
      oldEntry := by
    simp only [runBlks, replay, List.foldl_cons, List.foldl_nil, BlkAct.exec, Function.update_self]
  have hslot : volume8192.cfg.vol.slotOf (runBlks C volume8192.cfg s₀ replay).disk 7000 =
      (Buf.fill 2 ivLen, macOfIv (Buf.fill 2 ivLen)) := by
    simp only [Volume.slotOf, hmeta, oldEntry, Buf.sub_copy_same, Prod.mk.injEq, and_true]
    rw [Buf.sub_copy_disjoint _ _ _ _ _ _ _ (Or.inl le_rfl), Buf.sub_copy_same]
  refine ⟨?_, by rw [NativeVolume.macOf, hslot]⟩
  rw [NativeVolume.opened, NativeVolume.macOf, hslot, hblk]
  have hmem : (⟨7000, Buf.fill 2 ivLen, Buf.fill 7 blkSz⟩ : Aead.Sealing ℕ Iv Block) ∈
      sealedBy volume8192.cfg zeroImage onesIvs replay := by
    rw [sealedBy, sealedBy_replay]
    exact List.mem_append_right _ List.mem_cons_self
  exact ledgerCrypto_dec hmem

lemma noneCheckedAfterRejection_replay (C : Crypto) (s : BlkState) :
    NoneCheckedAfterRejection C volume8192.cfg s (replay ++ [.read replayBlk]) := by
  have hread : ∀ s, NoneCheckedAfterRejection C volume8192.cfg s [.read replayBlk] := by
    intro s
    unfold NoneCheckedAfterRejection
    split_ifs <;> trivial
  exact hread _

theorem replay_read_keeps_hashes :
    let C := ledgerCrypto (sealedBy volume8192.cfg zeroImage onesIvs replay)
    ∃ s₀, formatAndMount C volume8192 zeroImage onesIvs = .ok s₀ ∧
      ∀ i < 2^(volume8192.levels+2) - 1, (runBlks C volume8192.cfg s₀ (replay ++ [.read replayBlk])).mt.get i =
        (runBlks C volume8192.cfg s₀
          (withoutRejected C volume8192.cfg s₀ (replay ++ [.read replayBlk]))).mt.get i := by
  intro C
  obtain ⟨s₀, hmount, hsame, -⟩ := rejected_reads_harmless_until_next_check C volume8192 zeroImage
    onesIvs (ledgerCrypto_collisionFree _)
  exact ⟨s₀, hmount, hsame _ (noneCheckedAfterRejection_replay C s₀)⟩

/-- The rolled back block is rejected once, and accepted when it is read again. -/
theorem rolled_back_block_accepted_on_retry :
    let log := sealedBy volume8192.cfg zeroImage onesIvs replay
    let C := ledgerCrypto log
    CollisionFree C ∧ Aead.Ideal C.toScheme log ∧
      ∃ s₀, formatAndMount C volume8192 zeroImage onesIvs = .ok s₀ ∧
        (BlkAct.read replayBlk).rejected C volume8192.cfg (runBlks C volume8192.cfg s₀ replay) =
          true ∧
        lastWrites volume8192.cfg (mkfsLast volume8192 zeroImage onesIvs)
          (replay ++ [.read replayBlk]) 7000 = some (Buf.fill 3 ivLen, Buf.fill 8 blkSz) ∧
        (readBlk C volume8192.cfg (runBlks C volume8192.cfg s₀ (replay ++ [.read replayBlk]))
          7000).1 = .ok (Buf.fill 7 blkSz) := by
  intro log C
  have hC : CollisionFree C := ledgerCrypto_collisionFree _
  obtain ⟨s₀, c, d, root, hmount, hst, -, hs⟩ :=
    formatAndMount_eq C volume8192 zeroImage onesIvs
  have hlast : lastWrites volume8192.cfg (mkfsLast volume8192 zeroImage onesIvs) replay 7000 =
      some (Buf.fill 3 ivLen, Buf.fill 8 blkSz) := by rfl
  obtain ⟨c', hst', hall', hs'⟩ := hs.run hC hst (mkfsLast_allWritten volume8192 zeroImage onesIvs)
    replay ⟨rfl, rfl, rfl, rfl, trivial⟩
  obtain ⟨hopen, hmac⟩ := opened_replay s₀
  have hrej : (BlkAct.read replayBlk).rejected C volume8192.cfg
      (runBlks C volume8192.cfg s₀ replay) = true := by
    apply hs'.rejected_of_mac_ne (b := replayBlk) hC hst' (by decide) hlast hopen
    intro heq
    rw [ledgerCrypto_enc] at heq
    exact fill_iv_ne (by decide) (macOfIv_injective (hmac.symm.trans heq))
  have hrunning : Running volume8192 (runBlks C volume8192.cfg s₀ replay) :=
    ⟨hs'.size_eq, hst', hs'.holds.full⟩
  refine ⟨hC, ledgerCrypto_ideal sealedBy_replay_nonces, s₀, hmount, hrej, hlast, ?_⟩
  have hsplit : runBlks C volume8192.cfg s₀ (replay ++ [.read replayBlk]) =
      runBlks C volume8192.cfg (runBlks C volume8192.cfg s₀ replay) [.read replayBlk] :=
    List.foldl_append
  rw [hsplit]
  apply hrunning.accepts_after_rejection replayBlk [] hrej
  have hdisk : (runBlks C volume8192.cfg (runBlks C volume8192.cfg s₀ replay)
      [.read replayBlk]).disk = (runBlks C volume8192.cfg s₀ replay).disk :=
    (hs'.rejected hst' hall' hrej).disk_eq
  rw [hdisk]
  exact hopen

end Replay

end Bfs.Fs
