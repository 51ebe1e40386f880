import Bfs.Ext4.DevRead

/-! Runs of the lwext4 device from the start of formatting on, with an adversary who may replace any
block of it. -/
namespace Bfs.Ext4
open ByteSeq HeapTree Bfs.Fs

inductive DevAct (n : ℕ)
  | write (start : ℕ) (blks : List (Iv × Block)) (inside : start + blks.length ≤ n)
  | read (start cnt : ℕ) (buf : ℕ → Block) (inside : start + cnt ≤ n)
  | finishFormat
  | mount
  | tamper (b : ℕ) (blk : Block)

namespace DevAct

variable {n : ℕ}

def isTamper : DevAct n → Bool
  | .tamper _ _ => true
  | _ => false

def isWrite : DevAct n → Bool
  | .write _ _ _ => true
  | _ => false

def noteWrite (last : ℕ → Option (Iv × Block)) : DevAct n → ℕ → Option (Iv × Block)
  | .write start blks _ => noteBlks last start blks
  | _ => last

def sealings : DevAct n → List (Aead.Sealing ℕ Iv Block)
  | .write start blks _ => blks.mapIdx fun j blk => ⟨start + j, blk.1, blk.2⟩
  | _ => []

def noteIntact (V : Ext4Volume) (intact : ℕ → Prop) : DevAct n → ℕ → Prop
  | .write start blks _ =>
    fun b => V.RootSafe b ∧ ((start ≤ b ∧ b < start + blks.length) ∨ intact b)
  | .finishFormat => fun b => V.RootSafe b ∧ intact b
  | .tamper _ _ => fun _ => False
  | _ => intact

def exec (C : Crypto) (cfg : DevCfg) (s : DevState) : DevAct n → Option DevState
  | .write start blks _ =>
    match fileDevBwrite C cfg s start blks with
    | (.ok _, s) => some s
    | (.error e, s) => if e.survived then some s else none
  | .read start cnt buf _ =>
    match fileDevBread C cfg s buf start cnt with
    | (.ok _, s) => some s
    | (.error e, s) => if e.survived then some s else none
  | .finishFormat =>
    match Ext4.finishFormat C cfg s with
    | .ok s => some s
    | .error e => if e.survived then some s else none
  | .mount =>
    match mountDev C cfg s with
    | .ok s => some s
    | .error e => if e.survived then some s else none
  | .tamper b blk => some { s with disk := ⟨s.disk.size, Function.update s.disk.blk b blk⟩ }

end DevAct

def runDev {n : ℕ} (C : Crypto) (cfg : DevCfg) (s : DevState) (acts : List (DevAct n)) :
    Option DevState := acts.foldlM (DevAct.exec C cfg) s

def deviceAfter (C : Crypto) (V : Ext4Volume) (acts : List (DevAct V.numBlks)) : Option DevState :=
  match startFormat C V.cfg V.disk with
  | .ok s => runDev C V.cfg s acts
  | .error _ => none

def lastBlks {n : ℕ} (acts : List (DevAct n)) : ℕ → Option (Iv × Block) :=
  acts.foldl DevAct.noteWrite fun _ => none

section Step

variable {C : Crypto} {V : Ext4Volume} {s s' : DevState} {c : ℕ → List UInt8}
  {last : ℕ → Option (Iv × Block)} {intact : ℕ → Prop}

lemma startFormat_eq (C : Crypto) (V : Ext4Volume) :
    ∃ s, startFormat C V.cfg V.disk = .ok s ∧ s.status = .formatting ∧
      DevInv C V s (fun i => List.replicate (hashSz (V.levels+1) i) 0) (fun _ => none)
        (fun _ => False) := by
  have hdisk : DiskInv C V.cfg.vol V.disk (fun _ => none) fun _ => False :=
    ⟨by simp, by simp, by simp⟩
  cases huse : V.cfg.useMt with
  | false =>
    refine ⟨⟨V.disk, .formatting, [], freshTree V.cfg.numBlks⟩, by simp [startFormat, huse], rfl, ?_⟩
    exact ⟨V.whole, le_rfl, by simp, by simp, by simp [huse], hdisk⟩
  | true =>
    obtain ⟨t, hinit, hholds, hu⟩ := initMerkleTree_initial C V.cfg.vol V.disk (V.levels+1)
    rw [← V.pow huse] at hinit
    refine ⟨⟨V.disk, .formatting, [], t⟩, by simp [startFormat, huse, hinit], rfl, ?_⟩
    refine ⟨V.whole, le_rfl, by simp, by simp, fun _ => ⟨hholds, hu, ?_, ?_⟩, hdisk⟩
    · intro i hi
      rw [List.length_replicate, hashSz, if_neg (by omega)]
    · exact (treeInv_initial C V.levels).leaf_len

lemma leavesSet_eq {k start cnt : ℕ} {c₁ : ℕ → List UInt8} {f : ℕ → Mac} (hC : CollisionFree C)
    (hinv : TreeInv C k c last) (hin : start + cnt ≤ 2^(k+1))
    (hwritten : ∀ j < cnt, (last (start + j)).isSome) (hset : LeavesSet k c c₁ start 0 cnt f)
    (hlen : ∀ b, (c₁ (leaf (k+1) b)).length = macLen)
    (hpar : ∀ j < cnt, pairHash C (c₁ (leaf (k+1) (2*((start+j)/2))))
      (c₁ (leaf (k+1) (2*((start+j)/2)+1))) = c (up (leaf (k+1) (start+j)))) : c₁ = c := by
  funext i
  by_cases hi : i < 2^(k+1) - 1
  · exact hset.inner i hi
  · obtain ⟨b, rfl⟩ : ∃ b, i = leaf (k+1) b := ⟨i - (2^(k+1) - 1), by unfold leaf; omega⟩
    by_cases hb : b < start + 0 ∨ start + cnt ≤ b
    · exact hset.outside b hb
    · obtain ⟨j, rfl⟩ : ∃ j, b = start + j := ⟨b - start, by omega⟩
      have heq := hpar j (by omega)
      rw [hinv.parent (start + j) (by omega) (hwritten j (by omega))] at heq
      obtain ⟨hl, hr⟩ := hC.pairHash_inj (hlen _) (hlen _) (hinv.leaf_len _) (hinv.leaf_len _) heq
      -- The leaf is the left or the right one of its pair.
      cases Nat.mod_two_eq_zero_or_one (start + j) with
      | inl heven => rwa [show 2*((start+j)/2) = start + j by omega] at hl
      | inr hodd => rwa [show 2*((start+j)/2)+1 = start + j by omega] at hr

lemma macsAfter_some {start cnt i : ℕ} {mac : Mac}
    (hmac : macsAfter C V.cfg s start cnt 0 (fun _ => none) i = some mac) :
    ReadHere s start cnt 0 i ∧ mac = macAt C V.cfg s.disk (start + i) := by
  unfold macsAfter at hmac
  split_ifs at hmac with hhere
  exact ⟨hhere, (Option.some.inj hmac).symm⟩

lemma DevInv.written_of_readHere (hs : DevInv C V s c last intact) {start cnt i : ℕ}
    (hhere : ReadHere s start cnt 0 i) : (last (start + i)).isSome := by
  cases hlast : last (start + i) with
  | none =>
    have hunseen := (hs.unseen_iff (start + i)).mpr hlast
    rw [hhere.2.2] at hunseen
    exact absurd hunseen (by simp)
  | some blk => rfl

lemma DevInv.checked (hs : DevInv C V s c last intact) {start cnt : ℕ}
    (huse : V.cfg.useMt = true) (hin : start + cnt ≤ V.numBlks) {t' : MerkleTree}
    (hver : verifyMt C V.cfg s.disk s.mt start cnt
      (macsAfter C V.cfg s start cnt 0 fun _ => none) = (.ok (), t')) :
    ∃ c₁, Ready t' V.levels c₁ ∧
      (CollisionFree C → TreeInv C V.levels c last → c₁ = c ∧
        ∀ j < cnt, (macAt C V.cfg s.disk (start + j)).toList = c (leaf (V.levels+1) (start + j))) := by
  have hin' : start + cnt ≤ 2^(V.levels+1) := V.pow huse ▸ hin
  obtain ⟨f, c₁, hmacs, hset, hready, hpar⟩ := verifyMt_ok (hs.tree huse) hin' (by rw [hver])
  rw [hver] at hready
  refine ⟨c₁, hready, ?_⟩
  intro hC hinv
  have hwritten : ∀ j < cnt, (last (start + j)).isSome :=
    fun j hj => hs.written_of_readHere (macsAfter_some (hmacs j hj)).1
  have heq := leavesSet_eq hC hinv hin' hwritten hset hready.leaf_len hpar
  refine ⟨heq, ?_⟩
  intro j hj
  rw [← (macsAfter_some (hmacs j hj)).2, ← hset.inside j (Nat.zero_le j) hj, heq]

lemma DevInv.bread (hs : DevInv C V s c last intact) {start cnt : ℕ} (buf : ℕ → Block)
    (hin : start + cnt ≤ V.numBlks)
    (hexec : (DevAct.read start cnt buf hin).exec C V.cfg s = some s') :
    ∃ c', DevInv C V s' c' last intact ∧
      (V.cfg.useMt = true → CollisionFree C → TreeInv C V.levels c last → c' = c) := by
  have hkeep : ∀ t, (V.cfg.useMt = true → Ready t V.levels c) →
      DevInv C V { s with mt := t } c last intact :=
    fun t ht => ⟨hs.size_eq, hs.started, hs.usable, hs.seen_iff, ht, hs.disk⟩
  cases hrun : breadLoop C V.cfg s start cnt cnt 0 buf (fun _ => none) s.mt with
  | mk res t' =>
    simp only [DevAct.exec, fileDevBread, hrun] at hexec
    cases res with
    | error e =>
      simp only at hexec
      split_ifs at hexec with hsurv
      obtain rfl := Option.some.inj hexec
      have hready : V.cfg.useMt = true → Ready s.mt V.levels c ∧ start + cnt ≤ 2^(V.levels+1) :=
        fun huse => ⟨hs.tree huse, V.pow huse ▸ hin⟩
      have hsame := breadLoop_error C s (e := e) cnt 0 buf (fun _ => none) s.mt (Nat.zero_add cnt)
        hready (by rw [hrun]) hsurv
      rw [hrun] at hsame
      obtain rfl : t' = s.mt := hsame
      exact ⟨c, hs, fun _ _ _ => rfl⟩
    | ok out =>
      obtain rfl := Option.some.inj hexec
      obtain ⟨-, htree⟩ := breadLoop_ok cnt 0 buf _ s.mt (Nat.zero_add cnt) hrun
      by_cases hcheck : Checks V.cfg s start cnt 0
      · have huse : V.cfg.useMt = true := by
          have hand := hcheck.2
          simp only [Bool.and_eq_true] at hand
          exact hand.1
        obtain ⟨c₁, hready, heq⟩ := hs.checked huse hin (htree.checked hcheck)
        refine ⟨c₁, ⟨hs.size_eq, hs.started, hs.usable, hs.seen_iff, fun _ => hready, hs.disk⟩, ?_⟩
        exact fun _ hC hinv => (heq hC hinv).1
      · rw [htree.unchecked hcheck]
        exact ⟨c, hkeep s.mt hs.tree, fun _ _ _ => rfl⟩

lemma DevInv.finishFormat (hs : DevInv C V s c last intact) (hst : s.status = .formatting) :
    ∃ s', Ext4.finishFormat C V.cfg s = .ok s' ∧ s'.status = .formatted ∧
      DevInv C V s' c last fun b => V.RootSafe b ∧ intact b := by
  cases huse : V.cfg.useMt with
  | false =>
    refine ⟨{ s with status := .formatted }, by simp [Ext4.finishFormat, hst, huse], rfl, ?_⟩
    exact ⟨hs.size_eq, by simp [Status.code], by simp, hs.seen_iff, hs.tree, hs.disk.mono fun _ hb => hb.2⟩
  | true =>
    have hready := hs.tree huse
    have hpow := Nat.one_le_two_pow (n := V.levels)
    have hlen := hready.inner_len 0 (by rw [pow_succ]; omega)
    have hflush := flushMerkleTree_eq C V.cfg.vol s.disk hready.holds (V.metaFits hs.size_eq) hlen
    refine ⟨{ s with
      disk := V.cfg.vol.putRoot s.disk ⟨c 0, hlen⟩, status := .formatted },
      by simp [Ext4.finishFormat, hst, huse, hflush], rfl, ?_⟩
    refine ⟨hs.size_eq, by simp [Status.code], by simp, hs.seen_iff, hs.tree,
      (hs.disk.putRoot ⟨c 0, hlen⟩).mono ?_⟩
    intro b hb
    exact ⟨hb.1.resolve_left (by simp [huse]), hb.2⟩

lemma DevInv.mountDev (hs : DevInv C V s c last intact) (hst : s.status = .formatted) :
    Ext4.mountDev C V.cfg s = .ok { s with status := .mounted } ∧
      DevInv C V { s with status := .mounted } c last intact := by
  refine ⟨?_, hs.size_eq, by simp [Status.code], by simp, hs.seen_iff, hs.tree, hs.disk⟩
  cases huse : V.cfg.useMt with
  | false => simp [Ext4.mountDev, hst, huse]
  | true =>
    have hfull := initNodes_full C V.cfg.vol s.disk true s.mt.numNodes s.mt
      (nodes_ne_null (hs.tree huse).holds)
    simp [Ext4.mountDev, hst, huse, initMerkleTree, hfull, bind, Except.bind]

lemma DevInv.exec (hs : DevInv C V s c last intact) (a : DevAct V.numBlks)
    (hexec : a.exec C V.cfg s = some s') :
    ∃ c', DevInv C V s' c' (a.noteWrite last) (a.noteIntact V intact) ∧
      (V.cfg.useMt = true → CollisionFree C → TreeInv C V.levels c last →
        TreeInv C V.levels c' (a.noteWrite last)) := by
  cases a with
  | write start blks inside =>
    obtain ⟨s₁, c', hrun, -, hinv, htree⟩ := hs.bwrite start blks inside
    simp only [DevAct.exec, hrun] at hexec
    obtain rfl := Option.some.inj hexec
    exact ⟨c', hinv, fun huse _ => htree huse⟩
  | read start cnt buf inside =>
    obtain ⟨c', hinv, hsame⟩ := hs.bread buf inside hexec
    exact ⟨c', hinv, fun huse hC htree => (hsame huse hC htree).symm ▸ htree⟩
  | finishFormat =>
    by_cases hst : s.status = .formatting
    · obtain ⟨s₁, hrun, -, hinv⟩ := hs.finishFormat hst
      simp only [DevAct.exec, hrun] at hexec
      obtain rfl := Option.some.inj hexec
      exact ⟨c, hinv, fun _ _ htree => htree⟩
    · simp only [DevAct.exec, Ext4.finishFormat, ne_eq, hst, not_false_eq_true, if_true,
        DevErr.survived] at hexec
      obtain rfl := Option.some.inj hexec
      exact ⟨c, hs.mono fun _ hb => hb.2, fun _ _ htree => htree⟩
  | mount =>
    by_cases hst : s.status = .formatted
    · obtain ⟨hrun, hinv⟩ := hs.mountDev hst
      simp only [DevAct.exec, hrun] at hexec
      obtain rfl := Option.some.inj hexec
      exact ⟨c, hinv, fun _ _ htree => htree⟩
    · simp only [DevAct.exec, Ext4.mountDev, ne_eq, hst, not_false_eq_true, if_true,
        DevErr.survived] at hexec
      obtain rfl := Option.some.inj hexec
      exact ⟨c, hs, fun _ _ htree => htree⟩
  | tamper b blk =>
    obtain rfl := Option.some.inj hexec
    exact ⟨c, ⟨hs.size_eq, hs.started, hs.usable, hs.seen_iff, hs.tree, hs.disk.forget _⟩,
      fun _ _ htree => htree⟩

lemma DevInv.run (hs : DevInv C V s c last intact) (acts : List (DevAct V.numBlks))
    (hrun : runDev C V.cfg s acts = some s') :
    ∃ c', DevInv C V s' c' (acts.foldl DevAct.noteWrite last)
        (acts.foldl (DevAct.noteIntact V) intact) ∧
      (V.cfg.useMt = true → CollisionFree C → TreeInv C V.levels c last →
        TreeInv C V.levels c' (acts.foldl DevAct.noteWrite last)) := by
  induction acts generalizing s c last intact with
  | nil =>
    obtain rfl := Option.some.inj hrun
    exact ⟨c, hs, fun _ _ htree => htree⟩
  | cons a acts ih =>
    rw [runDev, List.foldlM_cons, Option.bind_eq_bind, Option.bind_eq_some_iff] at hrun
    obtain ⟨s₁, hexec, hrest⟩ := hrun
    obtain ⟨c₁, hs₁, htree₁⟩ := hs.exec a hexec
    obtain ⟨c', hs', htree'⟩ := ih hs₁ hrest
    exact ⟨c', hs', fun huse hC htree => htree' huse hC (htree₁ huse hC htree)⟩

lemma deviceAfter_inv {acts : List (DevAct V.numBlks)} (hrun : deviceAfter C V acts = some s) :
    ∃ c, DevInv C V s c (lastBlks acts) (acts.foldl (DevAct.noteIntact V) fun _ => False) ∧
      (V.cfg.useMt = true → CollisionFree C → TreeInv C V.levels c (lastBlks acts)) := by
  obtain ⟨s₀, hstart, -, hs⟩ := startFormat_eq C V
  simp only [deviceAfter, hstart] at hrun
  obtain ⟨c, hinv, htree⟩ := hs.run acts hrun
  exact ⟨c, hinv, fun huse hC => htree huse hC (treeInv_initial C V.levels)⟩

lemma intact_of_untampered (last : ℕ → Option (Iv × Block)) (intact : ℕ → Prop)
    (acts : List (DevAct V.numBlks))
    (hclean : ∀ a ∈ acts, a.isTamper = false)
    (hint : ∀ b, V.RootSafe b → (last b).isSome → intact b) :
    ∀ b, V.RootSafe b → (acts.foldl DevAct.noteWrite last b).isSome →
      acts.foldl (DevAct.noteIntact V) intact b := by
  induction acts generalizing last intact with
  | nil => exact hint
  | cons a acts ih =>
    apply ih _ _ (fun a' ha' => hclean a' (List.mem_cons_of_mem _ ha'))
    intro b hsafe hb
    have ha := hclean a List.mem_cons_self
    cases a with
    | write start blks inside =>
      refine ⟨hsafe, ?_⟩
      by_cases hrange : start ≤ b ∧ b < start + blks.length
      · exact Or.inl hrange
      · rw [DevAct.noteWrite, noteBlks_outside blks (by omega)] at hb
        exact Or.inr (hint b hsafe hb)
    | read start cnt buf inside => exact hint b hsafe hb
    | finishFormat => exact ⟨hsafe, hint b hsafe hb⟩
    | mount => exact hint b hsafe hb
    | tamper b' blk => exact absurd ha (by simp [DevAct.isTamper])

end Step

end Bfs.Ext4
