import Bfs.Fs.Rollback

/-! Mounting in a fresh process. The tree is rebuilt from the metadata region, but the first leaf to
be hashed asks for its MAC with NULL in place of the address of the IV, which `read_blk_meta` reads. -/
namespace Bfs.Fs
open ByteSeq HeapTree

/-- A block that `read_blk` and `write_blk` accept. -/
abbrev NativeVolume.Blk (V : NativeVolume) := {b : ℕ // b < V.numBlks ∧ V.cfg.isMeta b = false}

variable (C : Crypto) (V : NativeVolume)

end Bfs.Fs
