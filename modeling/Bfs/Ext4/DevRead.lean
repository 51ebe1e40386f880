import Bfs.Ext4.DevWrite
import Bfs.Fs.Primitives

/-! Multi-block reads of the lwext4 device: what a successful read leaves in the slices of the
buffer, and when the tree is checked. -/
namespace Bfs.Ext4
open ByteSeq HeapTree Bfs.Fs

section Loop

variable {C : Crypto} {cfg : DevCfg} {s : DevState} {start cnt : ℕ}

def dataAt (C : Crypto) (cfg : DevCfg) (d : Disk) (b : ℕ) : Block :=
  match readSealed C cfg d b with
  | .ok (data, _) => data
  | .error _ => Buf.fill 0 blkSz

def macAt (C : Crypto) (cfg : DevCfg) (d : Disk) (b : ℕ) : Mac :=
  match readSealed C cfg d b with
  | .ok (_, mac) => mac
  | .error _ => Buf.fill 0 macLen

def ReadHere (s : DevState) (start cnt j i : ℕ) : Prop :=
  j ≤ i ∧ i < cnt ∧ s.unseen (start + i) = false

instance (s : DevState) (start cnt j i : ℕ) : Decidable (ReadHere s start cnt j i) :=
  inferInstanceAs (Decidable (_ ∧ _ ∧ _))

/-- The entries of `macs` when the loop has come to its end. -/
def macsAfter (C : Crypto) (cfg : DevCfg) (s : DevState) (start cnt j : ℕ) (macs : ℕ → Option Mac) :
    ℕ → Option Mac := fun i =>
  if ReadHere s start cnt j i then some (macAt C cfg s.disk (start + i)) else macs i

structure LoopData (C : Crypto) (cfg : DevCfg) (s : DevState) (start cnt j : ℕ) (buf : ℕ → Block)
    (out : ℕ → Block) : Prop where
  opened : ∀ i, ReadHere s start cnt j i → readSealed C cfg s.disk (start + i) =
    .ok (dataAt C cfg s.disk (start + i), macAt C cfg s.disk (start + i))
  slice : ∀ i, i ≠ 0 → out i =
    if ReadHere s start cnt j i then dataAt C cfg s.disk (start + i) else buf i
  first_cleared : (∃ i, j ≤ i ∧ i < cnt ∧ s.unseen (start + i) = true) → out 0 = Buf.fill 0 blkSz
  first_kept : (∀ i, j ≤ i → i < cnt → s.unseen (start + i) = false) → out 0 =
    if ReadHere s start cnt j 0 then dataAt C cfg s.disk start else buf 0

def Checks (cfg : DevCfg) (s : DevState) (start cnt j : ℕ) : Prop :=
  ReadHere s start cnt j (cnt - 1) ∧ (cfg.useMt && s.status == .mounted) = true

structure LoopTree (C : Crypto) (cfg : DevCfg) (s : DevState) (start cnt j : ℕ)
    (macs : ℕ → Option Mac) (t t' : MerkleTree) : Prop where
  checked : Checks cfg s start cnt j →
    verifyMt C cfg s.disk t start cnt (macsAfter C cfg s start cnt j macs) = (.ok (), t')
  unchecked : ¬ Checks cfg s start cnt j → t' = t

lemma readSealed_dataAt {b : ℕ} {data : Block} {mac : Mac}
    (hread : readSealed C cfg s.disk b = .ok (data, mac)) :
    dataAt C cfg s.disk b = data ∧ macAt C cfg s.disk b = mac := by
  simp [dataAt, macAt, hread]

lemma not_readHere_end (s : DevState) (start cnt i : ℕ) : ¬ ReadHere s start cnt cnt i :=
  fun hi => absurd hi.1 (by have := hi.2.1; omega)

lemma readHere_succ {j i : ℕ} (hij : i ≠ j) :
    ReadHere s start cnt j i ↔ ReadHere s start cnt (j+1) i := by
  unfold ReadHere
  constructor
  · rintro ⟨h₁, h₂, h₃⟩
    exact ⟨by omega, h₂, h₃⟩
  · rintro ⟨h₁, h₂, h₃⟩
    exact ⟨by omega, h₂, h₃⟩

lemma readHere_unseen {j i : ℕ} (hunseen : s.unseen (start + j) = true) :
    ReadHere s start cnt j i ↔ ReadHere s start cnt (j+1) i := by
  by_cases hij : i = j
  · subst hij
    constructor
    · rintro ⟨-, -, hseen⟩
      rw [hunseen] at hseen
      exact absurd hseen (by simp)
    · rintro ⟨hle, -, -⟩
      omega
  · exact readHere_succ hij

lemma loopData_nil (buf : ℕ → Block) : LoopData C cfg s start cnt cnt buf buf where
  opened := fun i hi => absurd hi (not_readHere_end s start cnt i)
  slice := fun i _ => (if_neg (not_readHere_end s start cnt i)).symm
  first_cleared := by
    rintro ⟨i, h₁, h₂, -⟩
    omega
  first_kept := fun _ => (if_neg (not_readHere_end s start cnt 0)).symm

lemma LoopData.skip {j : ℕ} {buf out : ℕ → Block} (hj : j < cnt)
    (hunseen : s.unseen (start + j) = true)
    (hrest : LoopData C cfg s start cnt (j+1) (Function.update buf 0 (Buf.fill 0 blkSz)) out) :
    LoopData C cfg s start cnt j buf out where
  opened := fun i hi => hrest.opened i ((readHere_unseen hunseen).mp hi)
  slice := by
    intro i hi
    rw [hrest.slice i hi, Function.update_of_ne hi]
    exact if_congr (readHere_unseen hunseen).symm rfl rfl
  first_cleared := by
    intro _
    by_cases hmore : ∃ i, j+1 ≤ i ∧ i < cnt ∧ s.unseen (start + i) = true
    · exact hrest.first_cleared hmore
    · rw [hrest.first_kept, Function.update_self, if_neg]
      · exact fun hi => absurd hi.1 (by omega)
      · intro i h₁ h₂
        by_contra hi
        exact hmore ⟨i, h₁, h₂, Bool.eq_true_of_not_eq_false hi⟩
  first_kept := by
    intro hall
    rw [hall j le_rfl hj] at hunseen
    exact absurd hunseen (by simp)

lemma LoopData.read {j : ℕ} {buf out : ℕ → Block} {data : Block} {mac : Mac} (hj : j < cnt)
    (hseen : s.unseen (start + j) = false)
    (hread : readSealed C cfg s.disk (start + j) = .ok (data, mac))
    (hrest : LoopData C cfg s start cnt (j+1) (Function.update buf j data) out) :
    LoopData C cfg s start cnt j buf out := by
  obtain ⟨hdata, hmac⟩ := readSealed_dataAt hread
  have hhere : ReadHere s start cnt j j := ⟨le_rfl, hj, hseen⟩
  have hnext : ¬ ReadHere s start cnt (j+1) j := fun hi => absurd hi.1 (by omega)
  refine ⟨?_, ?_, ?_, ?_⟩
  · intro i hi
    by_cases hij : i = j
    · subst hij
      rw [hdata, hmac, hread]
    · exact hrest.opened i ((readHere_succ hij).mp hi)
  · intro i hi
    rw [hrest.slice i hi]
    by_cases hij : i = j
    · subst hij
      rw [if_neg hnext, Function.update_self, if_pos hhere, hdata]
    · rw [Function.update_of_ne hij]
      exact if_congr (readHere_succ hij).symm rfl rfl
  · rintro ⟨i, h₁, h₂, hunseen⟩
    have hij : i ≠ j := by
      rintro rfl
      rw [hseen] at hunseen
      exact absurd hunseen (by simp)
    exact hrest.first_cleared ⟨i, by omega, h₂, hunseen⟩
  · intro hall
    rw [hrest.first_kept fun i h₁ h₂ => hall i (by omega) h₂]
    by_cases hij : 0 = j
    · subst hij
      rw [if_neg hnext, Function.update_self, if_pos hhere, ← hdata, Nat.add_zero]
    · rw [Function.update_of_ne hij]
      exact if_congr (readHere_succ hij).symm rfl rfl

lemma macsAfter_unseen {j : ℕ} (macs : ℕ → Option Mac) (hunseen : s.unseen (start + j) = true) :
    macsAfter C cfg s start cnt j macs = macsAfter C cfg s start cnt (j+1) macs := by
  funext i
  exact if_congr (readHere_unseen hunseen) rfl rfl

lemma macsAfter_read {j : ℕ} (macs : ℕ → Option Mac) {data : Block} {mac : Mac} (hj : j < cnt)
    (hseen : s.unseen (start + j) = false)
    (hread : readSealed C cfg s.disk (start + j) = .ok (data, mac)) :
    macsAfter C cfg s start cnt j macs =
      macsAfter C cfg s start cnt (j+1) (Function.update macs j (some mac)) := by
  obtain ⟨-, hmac⟩ := readSealed_dataAt hread
  funext i
  unfold macsAfter
  by_cases hij : i = j
  · subst hij
    have hnext : ¬ ReadHere s start cnt (i+1) i := fun hi => absurd hi.1 (by omega)
    rw [if_pos ⟨le_rfl, hj, hseen⟩, if_neg hnext, Function.update_self, hmac]
  · rw [Function.update_of_ne hij]
    exact if_congr (readHere_succ hij) rfl rfl

lemma breadLoop_ok (k j : ℕ) (buf : ℕ → Block) (macs : ℕ → Option Mac) (t : MerkleTree)
    (hcnt : j + k = cnt) {out : ℕ → Block} {t' : MerkleTree}
    (hok : breadLoop C cfg s start cnt k j buf macs t = (.ok out, t')) :
    LoopData C cfg s start cnt j buf out ∧ LoopTree C cfg s start cnt j macs t t' := by
  induction k generalizing j buf macs t with
  | zero =>
    obtain rfl : j = cnt := hcnt
    simp only [breadLoop, Prod.mk.injEq, Except.ok.injEq] at hok
    obtain ⟨rfl, rfl⟩ := hok
    exact ⟨loopData_nil buf, fun h => absurd h.1 (not_readHere_end s start _ _), fun _ => rfl⟩
  | succ k ih =>
    rw [breadLoop] at hok
    cases hseen : s.unseen (start + j) with
    | true =>
      rw [hseen, if_pos rfl] at hok
      obtain ⟨hdata, htree⟩ := ih (j+1) _ macs t (by omega) hok
      refine ⟨hdata.skip (by omega) hseen, ?_, ?_⟩
      · intro h
        rw [macsAfter_unseen macs hseen]
        exact htree.checked ⟨(readHere_unseen hseen).mp h.1, h.2⟩
      · intro h
        exact htree.unchecked fun h' => h ⟨(readHere_unseen hseen).mpr h'.1, h'.2⟩
    | false =>
      rw [hseen, if_neg (by simp)] at hok
      cases hread : readSealed C cfg s.disk (start + j) with
      | error e => simp [hread] at hok
      | ok dm =>
        obtain ⟨data, mac⟩ := dm
        simp only [hread] at hok
        by_cases hlast : 1 < cnt ∧ j < cnt - 1
        · rw [if_pos hlast] at hok
          obtain ⟨hdata, htree⟩ := ih (j+1) _ _ t (by omega) hok
          have hne : cnt - 1 ≠ j := by omega
          refine ⟨hdata.read (by omega) hseen hread, ?_, ?_⟩
          · intro h
            rw [macsAfter_read macs (by omega) hseen hread]
            exact htree.checked ⟨(readHere_succ hne).mp h.1, h.2⟩
          · intro h
            exact htree.unchecked fun h' => h ⟨(readHere_succ hne).mpr h'.1, h'.2⟩
        · -- The last block of the request, where the tree is checked.
          obtain rfl : k = 0 := by omega
          obtain rfl : cnt = j + 1 := by omega
          rw [if_neg hlast] at hok
          have hmacs := macsAfter_read macs (Nat.lt_succ_self j) hseen hread
          have hend : macsAfter C cfg s start (j+1) (j+1) (Function.update macs j (some mac)) =
              Function.update macs j (some mac) := by
            funext i
            exact if_neg (not_readHere_end s start _ i)
          by_cases huse : (cfg.useMt && s.status == .mounted) = true
          · rw [if_pos huse] at hok
            cases hver : verifyMt C cfg s.disk t start (j+1) (Function.update macs j (some mac)) with
            | mk res t₁ =>
              rw [hver] at hok
              cases res with
              | error e => simp at hok
              | ok u =>
                simp only [breadLoop, Prod.mk.injEq, Except.ok.injEq] at hok
                obtain ⟨rfl, rfl⟩ := hok
                refine ⟨(loopData_nil _).read (by omega) hseen hread, ?_, ?_⟩
                · intro _
                  rw [hmacs, hend, hver]
                · exact fun h => absurd ⟨⟨by omega, by omega, hseen⟩, huse⟩ h
          · rw [if_neg huse] at hok
            simp only [breadLoop, Prod.mk.injEq, Except.ok.injEq] at hok
            obtain ⟨rfl, rfl⟩ := hok
            exact ⟨(loopData_nil _).read (by omega) hseen hread, fun h => absurd h.2 huse,
              fun _ => rfl⟩

lemma breadLoop_error (C : Crypto) (s : DevState) {lv : ℕ} {c : ℕ → List UInt8} (k j : ℕ) (buf : ℕ → Block)
    (macs : ℕ → Option Mac) (t : MerkleTree) (hcnt : j + k = cnt)
    (hready : cfg.useMt = true → Ready t lv c ∧ start + cnt ≤ 2^(lv+1)) {e : DevErr}
    (herr : (breadLoop C cfg s start cnt k j buf macs t).1 = .error e) (hsurv : e.survived = true) :
    (breadLoop C cfg s start cnt k j buf macs t).2 = t := by
  induction k generalizing j buf macs with
  | zero => rfl
  | succ k ih =>
    rw [breadLoop] at herr ⊢
    cases hseen : s.unseen (start + j) with
    | true =>
      simp only [hseen, if_true] at herr ⊢
      exact ih (j+1) _ macs (by omega) herr
    | false =>
      simp only [hseen, Bool.false_eq_true, if_false] at herr ⊢
      cases hread : readSealed C cfg s.disk (start + j) with
      | error e' => rfl
      | ok dm =>
        simp only [hread] at herr ⊢
        by_cases hlast : 1 < cnt ∧ j < cnt - 1
        · rw [if_pos hlast] at herr ⊢
          exact ih (j+1) _ _ (by omega) herr
        · obtain rfl : k = 0 := by omega
          rw [if_neg hlast] at herr ⊢
          by_cases huse : (cfg.useMt && s.status == .mounted) = true
          · rw [if_pos huse] at herr ⊢
            cases hver : verifyMt C cfg s.disk t start cnt (Function.update macs j (some dm.2)) with
            | mk res t₁ =>
              rw [hver] at herr
              cases res with
              | ok u => exact absurd herr (by simp [breadLoop])
              | error e' =>
                obtain ⟨ht, hin⟩ := hready (by simp only [Bool.and_eq_true] at huse; exact huse.1)
                have hdead := verifyMt_error (e := e') ht hin (by rw [hver])
                simp only [Except.error.injEq] at herr
                rw [herr, hsurv] at hdead
                exact absurd hdead (by simp)
          · rw [if_neg huse]
            rfl

lemma breadLoop_buf (k j : ℕ) (buf buf' : ℕ → Block) (macs : ℕ → Option Mac) (t : MerkleTree)
    {out : ℕ → Block} {t' : MerkleTree}
    (hok : breadLoop C cfg s start cnt k j buf macs t = (.ok out, t')) :
    ∃ out', breadLoop C cfg s start cnt k j buf' macs t = (.ok out', t') := by
  induction k generalizing j buf buf' macs t with
  | zero =>
    simp only [breadLoop, Prod.mk.injEq] at hok
    exact ⟨buf', by rw [breadLoop, hok.2]⟩
  | succ k ih =>
    rw [breadLoop] at hok ⊢
    cases hseen : s.unseen (start + j) with
    | true =>
      simp only [hseen, if_true] at hok ⊢
      exact ih (j+1) _ _ macs t hok
    | false =>
      simp only [hseen, Bool.false_eq_true, if_false] at hok ⊢
      cases hread : readSealed C cfg s.disk (start + j) with
      | error e => simp [hread] at hok
      | ok dm =>
        simp only [hread] at hok ⊢
        split_ifs at hok ⊢
        · exact ih (j+1) _ _ _ t hok
        · cases hver : verifyMt C cfg s.disk t start cnt (Function.update macs j (some dm.2)) with
          | mk res t₁ =>
            rw [hver] at hok
            cases res with
            | error e => simp at hok
            | ok u => exact ih (j+1) _ _ _ t₁ hok
        · exact ih (j+1) _ _ _ t hok

lemma breadLoop_succeeds (C : Crypto) (cfg : DevCfg) (s : DevState) (start k j : ℕ) (buf : ℕ → Block) (macs : ℕ → Option Mac) (t : MerkleTree)
    (hcnt : j + k = cnt)
    (hopen : ∀ i, ReadHere s start cnt j i → ∃ r, readSealed C cfg s.disk (start + i) = .ok r)
    (hver : Checks cfg s start cnt j →
      (verifyMt C cfg s.disk t start cnt (macsAfter C cfg s start cnt j macs)).1 = .ok ()) :
    ∃ out t', breadLoop C cfg s start cnt k j buf macs t = (.ok out, t') := by
  induction k generalizing j buf macs with
  | zero => exact ⟨buf, t, rfl⟩
  | succ k ih =>
    rw [breadLoop]
    cases hseen : s.unseen (start + j) with
    | true =>
      rw [if_pos rfl]
      apply ih (j+1) _ macs (by omega) (fun i hi => hopen i ((readHere_unseen hseen).mpr hi))
      intro h
      rw [← macsAfter_unseen macs hseen]
      exact hver ⟨(readHere_unseen hseen).mpr h.1, h.2⟩
    | false =>
      rw [if_neg (by simp)]
      obtain ⟨⟨data, mac⟩, hread⟩ := hopen j ⟨le_rfl, by omega, hseen⟩
      have hmacs := macsAfter_read macs (show j < cnt by omega) hseen hread
      have hrest : ∀ i, ReadHere s start cnt (j+1) i →
          ∃ r, readSealed C cfg s.disk (start + i) = .ok r := by
        intro i hi
        exact hopen i ⟨by have := hi.1; omega, hi.2⟩
      simp only [hread]
      split_ifs with hlast hmt
      · apply ih (j+1) _ _ (by omega) hrest
        intro h
        rw [← hmacs]
        exact hver ⟨(readHere_succ (by omega)).mpr h.1, h.2⟩
      · obtain rfl : k = 0 := by omega
        obtain rfl : cnt = j + 1 := by omega
        have hend : macsAfter C cfg s start (j+1) (j+1) (Function.update macs j (some mac)) =
            Function.update macs j (some mac) := by
          funext i
          exact if_neg (not_readHere_end s start _ i)
        have hok := hver ⟨⟨by omega, by omega, hseen⟩, hmt⟩
        rw [hmacs, hend] at hok
        cases hres : verifyMt C cfg s.disk t start (j+1) (Function.update macs j (some mac)) with
        | mk res t₁ =>
          rw [hres] at hok
          obtain rfl : res = .ok () := hok
          exact ⟨_, t₁, rfl⟩
      · exact ih (j+1) _ _ (by omega) hrest (fun h => absurd h.2 hmt)

lemma fileDevBread_ok {buf out : ℕ → Block} {s' : DevState}
    (hok : fileDevBread C cfg s buf start cnt = (.ok out, s')) :
    ∃ t', breadLoop C cfg s start cnt cnt 0 buf (fun _ => none) s.mt = (.ok out, t') ∧
      LoopData C cfg s start cnt 0 buf out ∧
      LoopTree C cfg s start cnt 0 (fun _ => none) s.mt t' := by
  rw [fileDevBread, Prod.mk.injEq] at hok
  have hloop : breadLoop C cfg s start cnt cnt 0 buf (fun _ => none) s.mt =
      (.ok out, (breadLoop C cfg s start cnt cnt 0 buf (fun _ => none) s.mt).2) :=
    Prod.ext hok.1 rfl
  exact ⟨_, hloop, breadLoop_ok cnt 0 buf _ s.mt (Nat.zero_add cnt) hloop⟩

lemma fileDevBread_buf {buf out : ℕ → Block} {s' : DevState} (buf' : ℕ → Block)
    (hok : fileDevBread C cfg s buf start cnt = (.ok out, s')) :
    ∃ out' s'', fileDevBread C cfg s buf' start cnt = (.ok out', s'') := by
  obtain ⟨t', hloop, -, -⟩ := fileDevBread_ok hok
  obtain ⟨out', hloop'⟩ := breadLoop_buf cnt 0 buf buf' _ s.mt hloop
  exact ⟨out', { s with mt := t' }, by rw [fileDevBread, hloop']⟩

end Loop

end Bfs.Ext4
