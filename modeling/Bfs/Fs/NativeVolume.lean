import Bfs.Fs.Stored

/-! A native volume with a power-of-two number of blocks. -/
namespace Bfs.Fs
open ByteSeq HeapTree

/-- A device with `2^(levels+1)` blocks, enough for the layout and one data block more. -/
structure NativeVolume where
  levels : ℕ
  disk : Disk
  large : dataRelStartBlkNum (2^(levels+1)) < 2^(levels+1)
  whole : disk.size = 2^(levels+1)

namespace NativeVolume

variable (V : NativeVolume)

def numBlks : ℕ := 2^(V.levels+1)

def cfg : BlkCfg := ⟨V.numBlks, true⟩

lemma metaBlk_lt {b : ℕ} (hb : b ≤ V.numBlks) :
    metadataRelStartBlkNum ≤ V.cfg.vol.metaBlk b ∧
      V.cfg.vol.metaBlk b < dataRelStartBlkNum V.numBlks := by
  have hdiv : b / metasPerBlk ≤ V.numBlks / metasPerBlk := Nat.div_le_div_right hb
  have hblk : V.cfg.vol.metaBlk b = metadataRelStartBlkNum + b / metasPerBlk := rfl
  rw [metasPerBlk_eq] at hdiv hblk
  rw [dataRelStartBlkNum, numMetaBlocks, metasPerBlk_eq]
  omega

lemma metaFits {d : Disk} (hd : d.size = V.numBlks) : V.cfg.vol.MetaFits d := by
  have hlt := (V.metaBlk_lt (le_refl V.numBlks)).2
  have hlarge := V.large
  change V.cfg.vol.metaBlk V.numBlks < d.size
  rw [hd]
  exact hlt.trans hlarge

lemma metaBlk_ne {a b : ℕ} (ha : a ≤ V.numBlks) (hb : V.cfg.isMeta b = false) :
    V.cfg.vol.metaBlk a ≠ b := by
  rintro rfl
  obtain ⟨hlo, hhi⟩ := V.metaBlk_lt ha
  have hmeta : V.cfg.isMeta (V.cfg.vol.metaBlk a) = true := by
    simp only [BlkCfg.isMeta, Bool.and_eq_true, decide_eq_true_eq]
    exact ⟨hlo, hhi⟩
  rw [hmeta] at hb
  exact absurd hb (by simp)

lemma separate {b : ℕ} (hb : b < V.numBlks) (hmeta : V.cfg.isMeta b = false) :
    V.cfg.vol.Separate b := ⟨hb, fun _ ha => V.metaBlk_ne ha hmeta⟩

end NativeVolume

end Bfs.Fs
