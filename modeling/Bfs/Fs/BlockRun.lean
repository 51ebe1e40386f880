import Bfs.Fs.NativeMount
import Bfs.Fs.Primitives

/-! Runs of block reads and writes against an adversary who owns the device. -/
namespace Bfs.Fs
open ByteSeq HeapTree

/-- One event on a mounted volume of `n` blocks. The adversary replaces any block of the device,
data or metadata. -/
inductive BlkAct (n : ℕ)
  | write (b : Fin n) (iv : Iv) (data : Block)
  | read (b : Fin n)
  | tamper (b : ℕ) (blk : Block)

namespace BlkAct

variable {n : ℕ}

def isTamper : BlkAct n → Bool
  | .tamper _ _ => true
  | _ => false

def isWriteOf (b : ℕ) : BlkAct n → Bool
  | .write a _ _ => a.val == b
  | _ => false

def exec (C : Crypto) (cfg : BlkCfg) (s : BlkState) : BlkAct n → BlkState
  | .write b iv data => (writeBlk C cfg s b iv data).2
  | .read b => (readBlk C cfg s b).2
  | .tamper b blk => { s with disk := ⟨s.disk.size, Function.update s.disk.blk b blk⟩ }

def rejected (C : Crypto) (cfg : BlkCfg) (s : BlkState) : BlkAct n → Bool
  | .read b =>
    match (readBlk C cfg s b).1 with
    | .error .parMismatch => true
    | _ => false
  | _ => false

def sealing (cfg : BlkCfg) : BlkAct n → Option (Aead.Sealing ℕ Iv Block)
  | .write b iv data => if cfg.isMeta b then none else some ⟨b, iv, data⟩
  | _ => none

def noteIntact (cfg : BlkCfg) (intact : ℕ → Prop) : BlkAct n → ℕ → Prop
  | .write b _ _ => fun a => (a = b ∧ cfg.isMeta b = false) ∨ intact a
  | .read _ => intact
  | .tamper _ _ => fun _ => False

def noteWrite (cfg : BlkCfg) (last : ℕ → Option (Iv × Block)) :
    BlkAct n → ℕ → Option (Iv × Block)
  | .write b iv data => if cfg.isMeta b then last else Function.update last b (some (iv, data))
  | _ => last

end BlkAct

section Run

variable {n : ℕ} (C : Crypto) (cfg : BlkCfg)

def runBlks (s : BlkState) (acts : List (BlkAct n)) : BlkState := acts.foldl (BlkAct.exec C cfg) s

def NoneRejected : BlkState → List (BlkAct n) → Prop
  | _, [] => True
  | s, a::acts => a.rejected C cfg s = false ∧ NoneRejected (a.exec C cfg s) acts

def sealedBy (image : ℕ → Block) (ivs : ℕ → Iv) (acts : List (BlkAct n)) :
    List (Aead.Sealing ℕ Iv Block) :=
  ((mkfsBlks cfg).map fun b => ⟨b, ivs b, image b⟩) ++ acts.filterMap (BlkAct.sealing cfg)

def lastWrites (last : ℕ → Option (Iv × Block)) (acts : List (BlkAct n)) :
    ℕ → Option (Iv × Block) := acts.foldl (BlkAct.noteWrite cfg) last

end Run

section Read

variable {C : Crypto} {V : NativeVolume} {s : BlkState} {c : ℕ → List UInt8}
  {last : ℕ → Option (Iv × Block)} {intact : ℕ → Prop}

def NativeVolume.macOf (V : NativeVolume) (d : Disk) (b : ℕ) : Mac := (V.cfg.vol.slotOf d b).2

def NativeVolume.opened (V : NativeVolume) (C : Crypto) (d : Disk) (b : ℕ) : Option Block :=
  C.dec b (V.cfg.vol.slotOf d b).1 (d.blk b) (V.macOf d b)

lemma NativeVolume.readBlk_eq (V : NativeVolume) (hsize : s.disk.size = V.numBlks)
    (hst : s.status = .mounted) {b : ℕ} (hb : b < V.numBlks) :
    readBlk C V.cfg s b =
      if V.cfg.isMeta b then (.error .readMeta, s)
      else
        match V.opened C s.disk b with
        | none => (.error .decryptFailed, s)
        | some data =>
          ((verifyRead C V.cfg s.disk s.mt b (V.macOf s.disk b)).1.map fun _ => data,
            { s with mt := (verifyRead C V.cfg s.disk s.mt b (V.macOf s.disk b)).2 }) := by
  have hslot := readBlkMeta_slot (V.metaFits hsize) (b := b) hb.le (Buf.fill 0 ivLen)
    (Buf.fill 0 macLen)
  have hread : readBlockHelper s.disk b = .ok (s.disk.blk b) := by
    simp [readBlockHelper, hsize, hb]
  have hmt : V.cfg.useMt = true := rfl
  simp only [readBlk, hread, hslot, hst, hmt, NativeVolume.opened, NativeVolume.macOf]
  rfl

lemma TreeInv.mac_of_readHash {k : ℕ} (hinv : TreeInv C k c last) (hC : CollisionFree C) {b : ℕ}
    (hb : b < 2^(k+1)) (hwritten : (last b).isSome) {mac : Mac}
    (heq : readHash C k c b mac = c (up (leaf (k+1) b))) : mac.toList = c (leaf (k+1) b) := by
  rw [hinv.parent b hb hwritten] at heq
  have hlen : ∀ a, (Function.update c (leaf (k+1) b) mac.toList (leaf (k+1) a)).length = macLen := by
    intro a
    by_cases hab : leaf (k+1) a = leaf (k+1) b
    · rw [hab, Function.update_self]
      exact mac.length_toList
    · rw [Function.update_of_ne hab]
      exact hinv.leaf_len a
  obtain ⟨hleft, hright⟩ := hC.pairHash_inj (hlen _) (hlen _) (hinv.leaf_len _) (hinv.leaf_len _) heq
  -- The leaf is the left or the right child of its parent.
  cases Nat.mod_two_eq_zero_or_one b with
  | inl heven =>
    rw [show 2*(b/2) = b by omega, Function.update_self] at hleft
    exact hleft
  | inr hodd =>
    rw [show 2*(b/2)+1 = b by omega, Function.update_self] at hright
    exact hright

lemma Tracks.read (hs : Tracks C V s c last intact) (hC : CollisionFree C)
    (hst : s.status = .mounted)
    (hall : ∀ b < V.numBlks, V.cfg.isMeta b = false → (last b).isSome) {b : ℕ}
    (hb : b < V.numBlks) (hacc : (readBlk C V.cfg s b).1 ≠ .error .parMismatch) :
    (readBlk C V.cfg s b).2.disk = s.disk ∧ (readBlk C V.cfg s b).2.status = .mounted ∧
      Tracks C V (readBlk C V.cfg s b).2 c last intact ∧
      ∀ data, (readBlk C V.cfg s b).1 = .ok data →
        V.cfg.isMeta b = false ∧ V.opened C s.disk b = some data ∧
        (V.macOf s.disk b).toList = c (leaf (V.levels+1) b) := by
  rw [V.readBlk_eq hs.size_eq hst hb] at hacc ⊢
  cases hmeta : V.cfg.isMeta b with
  | true => simpa [hst] using hs
  | false =>
    simp only [hmeta, Bool.false_eq_true, if_false] at hacc ⊢
    cases hopen : V.opened C s.disk b with
    | none => simpa [hst] using hs
    | some data =>
      simp only [hopen] at hacc ⊢
      have hlen : (c (up (leaf (V.levels+1) b))).length = hmacLen := by
        rw [hs.tree.parent b hb (hall b hb hmeta)]
        exact length_pairHash C _ _
      by_cases heq : readHash C V.levels c b (V.macOf s.disk b) = c (up (leaf (V.levels+1) b))
      · obtain ⟨t, hrun, hholds, hu⟩ := verifyRead_accept C V.cfg s.disk hs.holds hs.unaliased hb
          (V.macOf s.disk b) hlen heq
        have hmac := hs.tree.mac_of_readHash hC hb (hall b hb hmeta) heq
        rw [hmac, Function.update_eq_self] at hholds
        rw [hrun]
        refine ⟨trivial, hst, ⟨hs.size_eq, hholds, hu, hs.tree, hs.disk⟩, ?_⟩
        intro data' hdata
        obtain rfl := Except.ok.inj hdata
        exact ⟨trivial, rfl, hmac⟩
      · obtain ⟨t, hrun, -, -⟩ := verifyRead_reject C V.cfg s.disk hs.holds hs.unaliased hb
          (V.macOf s.disk b) hlen heq
        rw [hrun] at hacc
        exact absurd rfl hacc

end Read

section Runs

variable {C : Crypto} {V : NativeVolume} {s : BlkState} {c : ℕ → List UInt8}
  {last : ℕ → Option (Iv × Block)} {intact : ℕ → Prop}

def NativeVolume.AllWritten (V : NativeVolume) (last : ℕ → Option (Iv × Block)) : Prop :=
  ∀ b < V.numBlks, V.cfg.isMeta b = false → (last b).isSome

lemma writeBlk_meta {cfg : BlkCfg} {b : ℕ} (hmeta : cfg.isMeta b = true) (iv : Iv) (data : Block) :
    writeBlk C cfg s b iv data = (.error .writeMeta, s) := by
  simp [writeBlk, hmeta]

lemma NativeVolume.AllWritten.noteWrite (hall : V.AllWritten last) (a : BlkAct V.numBlks) :
    V.AllWritten (a.noteWrite V.cfg last) := by
  intro b hb hmeta
  cases a with
  | write a iv data =>
    simp only [BlkAct.noteWrite]
    split_ifs
    · exact hall b hb hmeta
    · by_cases hba : b = a
      · simp [hba]
      · rw [Function.update_of_ne hba]
        exact hall b hb hmeta
  | read a => exact hall b hb hmeta
  | tamper a blk => exact hall b hb hmeta

lemma readBlk_of_not_rejected {cfg : BlkCfg} {n : ℕ} {b : Fin n}
    (hacc : (BlkAct.read b).rejected C cfg s = false) :
    (readBlk C cfg s b).1 ≠ .error .parMismatch := by
  intro hrej
  simp [BlkAct.rejected, hrej] at hacc

lemma Tracks.exec (hs : Tracks C V s c last intact) (hC : CollisionFree C)
    (hst : s.status = .mounted) (hall : V.AllWritten last) (a : BlkAct V.numBlks)
    (hacc : a.rejected C V.cfg s = false) :
    ∃ c', (a.exec C V.cfg s).status = .mounted ∧
      Tracks C V (a.exec C V.cfg s) c' (a.noteWrite V.cfg last) (a.noteIntact V.cfg intact) := by
  cases a with
  | write b iv data =>
    simp only [BlkAct.exec, BlkAct.noteWrite, BlkAct.noteIntact]
    cases hmeta : V.cfg.isMeta b with
    | true =>
      rw [writeBlk_meta hmeta, if_pos rfl]
      exact ⟨c, hst, hs.mono fun a ha => ha.resolve_left (by simp)⟩
    | false =>
      obtain ⟨s', c', hwrite, hst', hs'⟩ := hs.write (by simp [hst]) b.isLt hmeta iv data
      rw [hwrite, if_neg (by simp)]
      exact ⟨c', hst'.trans hst, hs'.mono fun a ha => ha.imp_left And.left⟩
  | read b =>
    obtain ⟨-, hst', hs', -⟩ := hs.read hC hst hall b.isLt (readBlk_of_not_rejected hacc)
    exact ⟨c, hst', hs'⟩
  | tamper b blk =>
    exact ⟨c, hst, hs.size_eq, hs.holds, hs.unaliased, hs.tree, hs.disk.forget _⟩

lemma Tracks.run (hs : Tracks C V s c last intact) (hC : CollisionFree C)
    (hst : s.status = .mounted) (hall : V.AllWritten last) (acts : List (BlkAct V.numBlks))
    (hacc : NoneRejected C V.cfg s acts) :
    ∃ c', (runBlks C V.cfg s acts).status = .mounted ∧ V.AllWritten (lastWrites V.cfg last acts) ∧
      Tracks C V (runBlks C V.cfg s acts) c' (lastWrites V.cfg last acts)
        (acts.foldl (BlkAct.noteIntact V.cfg) intact) := by
  induction acts generalizing s c last intact with
  | nil => exact ⟨c, hst, hall, hs⟩
  | cons a acts ih =>
    obtain ⟨c', hst', hs'⟩ := hs.exec hC hst hall a hacc.1
    exact ih hs' hst' (hall.noteWrite a) hacc.2

lemma intact_run (acts : List (BlkAct V.numBlks)) (hclean : ∀ a ∈ acts, a.isTamper = false) {b : ℕ}
    (hmeta : V.cfg.isMeta b = false) (hb : intact b ∨ ∃ a ∈ acts, a.isWriteOf b) :
    acts.foldl (BlkAct.noteIntact V.cfg) intact b := by
  induction acts generalizing intact with
  | nil => exact hb.resolve_right (by simp)
  | cons a acts ih =>
    apply ih (fun a' ha' => hclean a' (List.mem_cons_of_mem _ ha'))
    have ha := hclean a List.mem_cons_self
    simp only [List.mem_cons, exists_eq_or_imp] at hb
    cases a with
    | write a iv data =>
      simp only [BlkAct.noteIntact, BlkAct.isWriteOf, beq_iff_eq] at hb ⊢
      rcases hb with hb | rfl | hb
      · exact Or.inl (Or.inr hb)
      · exact Or.inl (Or.inl ⟨rfl, hmeta⟩)
      · exact Or.inr hb
    | read a => simpa [BlkAct.noteIntact, BlkAct.isWriteOf] using hb
    | tamper a blk => exact absurd ha (by simp [BlkAct.isTamper])

lemma lastWrites_sealed (cfg : BlkCfg) {n : ℕ} (acts : List (BlkAct n))
    {log : List (Aead.Sealing ℕ Iv Block)}
    (hlog : ∀ b iv data, last b = some (iv, data) → ⟨b, iv, data⟩ ∈ log) :
    ∀ b iv data, lastWrites cfg last acts b = some (iv, data) →
      ⟨b, iv, data⟩ ∈ log ++ acts.filterMap (BlkAct.sealing cfg) := by
  induction acts generalizing last log with
  | nil => simpa [lastWrites] using hlog
  | cons a acts ih =>
    have hstep : ∀ b iv data, a.noteWrite cfg last b = some (iv, data) →
        ⟨b, iv, data⟩ ∈ log ++ (a.sealing cfg).toList := by
      intro b iv data hb
      cases a with
      | write a iv' data' =>
        simp only [BlkAct.noteWrite, BlkAct.sealing] at hb ⊢
        split_ifs at hb ⊢ with hmeta
        · exact List.mem_append_left _ (hlog b iv data hb)
        · by_cases hba : b = a
          · subst hba
            rw [Function.update_self, Option.some.injEq, Prod.mk.injEq] at hb
            obtain ⟨rfl, rfl⟩ := hb
            simp
          · rw [Function.update_of_ne hba] at hb
            exact List.mem_append_left _ (hlog b iv data hb)
      | read a => exact List.mem_append_left _ (hlog b iv data hb)
      | tamper a blk => exact List.mem_append_left _ (hlog b iv data hb)
    intro b iv data hb
    have hmem := ih hstep b iv data hb
    rw [List.append_assoc] at hmem
    convert hmem using 2
    cases hseal : a.sealing cfg <;> simp [hseal]

end Runs

end Bfs.Fs
