import Bfs.Ext4.FileOps
import Bfs.Rpc.Encoding

/-! The listing of a directory on its way to the client. The server copies the names behind fields that it
puts before them, entry by entry, so that the start of the names moves; the client takes the fields off
in the opposite order and finds the names from the end. -/
namespace Bfs.Rpc
open ByteSeq Fallible LittleEndian
open Bfs.Device.PacketBuffer (addFields addFields_of_room removeHeader_field)
open Bfs.Ext4 (Dentry)
open Bfs.Server Bfs.Utils

section Server

/-- `MAX_FILE_NAME_LEN`, the size of a slot for a name, and `de_len`, that of the fields of an entry. -/
def slotLen : ℕ := 255
end Server

section Client

structure Filled where
  name : Path
  ino : UInt64
  mode : UInt32
  size : UInt64
  atime : UInt32
  mtime : UInt32
  ctime : UInt32
  deriving DecidableEq

/-- `FIRST_UNRESERVED_INO`. -/
def firstUnreservedIno : UInt64 := 8

def dot : Path := [46]
def dotdot : Path := [46, 46]

def Refused (path name : Path) (ino : UInt64) : Prop :=
  ino < firstUnreservedIno ∧
    if path = [Native.slash] then name ≠ dot ∧ name ≠ dotdot
    else name ≠ dotdot ∨ Native.dirname path ≠ [Native.slash]

instance (path name : Path) (ino : UInt64) : Decidable (Refused path name ino) := by
  unfold Refused
  infer_instance

end Client

section Buffers

variable {d d' : FlexData} {xs : List UInt8}

end Buffers

section Encoding

def slot (e : Dentry) : List UInt8 := padTo 0 slotLen (basename e.deName)

lemma toNat_pathLen_of_lt {name : Path} (h : name.length < 256) : (pathLen name).toNat = name.length + 1 := by
  rw [pathLen, UInt32.toNat_ofNat', Nat.mod_eq_of_lt (by omega)]

lemma toNat_slot_rest {name : Path} (h : name.length ≤ 254) :
    (maxFileNameLen - pathLen name).toNat = 254 - name.length := by
  have hlen := toNat_pathLen_of_lt (by omega : name.length < 256)
  have hmax : maxFileNameLen.toNat = 255 := rfl
  rw [UInt32.toNat_sub_of_le _ _ (by rw [UInt32.le_iff_toNat_le]; omega), hlen, hmax]
  omega

lemma slot_eq {e : Dentry} (h : (basename e.deName).length ≤ 254) :
    slot e = (basename e.deName ++ [0]) ++
      List.replicate (maxFileNameLen - pathLen (basename e.deName)).toNat 0 := by
  rw [toNat_slot_rest h, slot, padTo, List.append_assoc, List.singleton_append, ← List.replicate_succ]
  have hlen : slotLen - (basename e.deName).length = 254 - (basename e.deName).length + 1 := by
    unfold slotLen
    omega
  rw [hlen]

end Encoding

section Decoding

structure Followed (d : FlexData) (xs : List UInt8) (b : UInt8) : Prop where
  holds : d.Holds xs
  behind : ∃ front back, d.mem = front ++ (xs ++ b::back) ∧ front.length = d.layout.hlength.toNat

variable {d : FlexData} {xs : List UInt8} {b : UInt8}

lemma Followed.length_lt (h : Followed d xs b) : d.layout.hlength.toNat + xs.length < d.mem.length := by
  obtain ⟨front, back, hmem, hfront⟩ := h.behind
  rw [hmem, ← hfront]
  simp only [List.length_append, List.length_cons]
  omega

lemma Followed.slice {front mid back : List UInt8} (h : Followed d (front ++ (mid ++ back)) b) {pos len : ℕ}
    (hpos : front.length = pos) (hlen : mid.length = len) :
    ByteSeq.slice d.mem (d.layout.hlength.toNat + pos) len = mid := by
  obtain ⟨head, tail, hmem, hhead⟩ := h.behind
  have hsplit : d.mem = (head ++ front) ++ (mid ++ (back ++ b::tail)) := by
    rw [hmem]
    simp only [List.append_assoc]
  rw [hsplit, slice_parts _ _ _ (by rw [List.length_append, hhead, hpos]) hlen]

lemma Followed.removeHeader {field : List UInt8} (h : Followed d (field ++ xs) b) {len : UInt32}
    (hlen : field.length = len.toNat) (hne : field ≠ []) :
    ∃ d', d.removeHeader len = .ok (field, d') ∧ Followed d' xs b := by
  obtain ⟨d', hremove, hholds⟩ := removeHeader_field h.holds hlen hne
  refine ⟨d', hremove, hholds, ?_⟩
  obtain ⟨front, back, hmem, hfront⟩ := h.behind
  have hlayout : d' = d.withLayout (d.layout.dropHeader len) := by
    rw [FlexData.removeHeader] at hremove
    split_ifs at hremove
    exact (Prod.mk.inj (Except.ok.inj hremove)).2.symm
  refine ⟨front ++ field, back, ?_, ?_⟩
  · rw [hlayout, FlexData.mem_withLayout, hmem]
    simp only [List.append_assoc]
  · have hsize := h.holds.size
    have hlt := d.layout.allocation.toNat_lt
    have hbound := h.length_lt
    rw [List.length_append] at hbound
    rw [hlayout, FlexData.layout_withLayout, FlexBuf.dropHeader, List.length_append, UInt32.toNat_add]
    omega

structure LegalName (name : Path) : Prop where
  nonempty : name ≠ []
  noZero : 0 ∉ name
  noSlash : Native.slash ∉ name
  short : name.length ≤ 255

lemma LegalName.basename {name : Path} (h : LegalName name) : Server.basename name = name := by
  rw [Server.basename, List.takeWhile_eq_self_iff.mpr, List.reverse_reverse]
  intro x hx
  rw [bne_iff_ne]
  intro hslash
  exact h.noSlash (hslash ▸ List.mem_reverse.mp hx)

def Filled.of (e : Dentry) : Filled :=
  ⟨e.deName, e.ino, e.eMode, e.eSize, e.atime, e.mtime, e.ctime⟩

end Decoding

section Received

open SecAssociation

end Received

section RoundTrip

end RoundTrip

end Bfs.Rpc
