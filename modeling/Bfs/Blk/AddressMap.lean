import Bfs.Blk.ClusterArray

/-! `getPhyBlockAddr` as a map from virtual block ids to blocks of devices. The loop adds up the
sizes of the devices in 64 bits, and the map is a bijection exactly when the sum does not wrap. -/
namespace Bfs.Blk
open Concat Bfs.Device

variable {D : Type*} {M : DeviceOps D}

section Translation

/-- Virtual ids below the total size and blocks of devices correspond to each other, and every
other id is refused. -/
structure Cluster.Bijective (M : DeviceOps D) (c : Cluster D) : Prop where
  mapped : ∀ addr : UInt64, addr.toNat < (sizes M c.devices).sum →
    ∃ i dev pbid, c.getPhyBlockAddr M addr = .ok (i, dev, pbid) ∧ c.devices[i]? = some dev ∧
      pbid < M.numBlocks dev
  distinct : ∀ (addr addr' : UInt64) (i : ℕ) (dev dev' : D) (pbid : UInt64),
    c.getPhyBlockAddr M addr = .ok (i, dev, pbid) →
      c.getPhyBlockAddr M addr' = .ok (i, dev', pbid) → addr = addr'
  reached : ∀ (i : ℕ) (dev : D) (pbid : UInt64), c.devices[i]? = some dev →
    pbid < M.numBlocks dev →
      ∃ addr : UInt64, addr.toNat < (sizes M c.devices).sum ∧
        c.getPhyBlockAddr M addr = .ok (i, dev, pbid)
  refused : ∀ addr : UInt64, (sizes M c.devices).sum ≤ addr.toNat →
    c.getPhyBlockAddr M addr = .error (.unmappable addr)

/-- A sum below `2^64` is added up without wrapping, so the loop finds the place of the id in the
concatenation of the devices. -/
lemma bijective_of_lt {c : Cluster D} (hsum : (sizes M c.devices).sum < 2^64) : c.Bijective M where
  mapped := fun addr hlt => getPhyBlockAddr_ok hsum hlt
  distinct := by
    intro addr addr' i dev dev' pbid haddr haddr'
    have hloc := ((getPhyBlockAddr_eq_ok_iff hsum).mp haddr).2
    have hloc' := ((getPhyBlockAddr_eq_ok_iff hsum).mp haddr').2
    exact UInt64.toNat_inj.mp (locate_inj hloc hloc')
  reached := by
    intro i dev pbid hdev hlt
    have hloc : locate (sizes M c.devices) (((sizes M c.devices).take i).sum + pbid.toNat) =
        some (i, pbid.toNat) := by
      refine locate_eq_some_iff.mpr ⟨(M.numBlocks dev).toNat, ?_, UInt64.lt_iff_toNat_lt.mp hlt, rfl⟩
      rw [sizes, List.getElem?_map, hdev, Option.map_some]
    have hbelow : ((sizes M c.devices).take i).sum + pbid.toNat < (sizes M c.devices).sum := by
      by_contra hge
      rw [locate_eq_none_iff.mpr (by omega)] at hloc
      cases hloc
    have hnat : (UInt64.ofNat (((sizes M c.devices).take i).sum + pbid.toNat)).toNat =
        ((sizes M c.devices).take i).sum + pbid.toNat := by
      rw [UInt64.toNat_ofNat', Nat.mod_eq_of_lt (by omega)]
    refine ⟨UInt64.ofNat (((sizes M c.devices).take i).sum + pbid.toNat), by rwa [hnat], ?_⟩
    exact (getPhyBlockAddr_eq_ok_iff hsum).mpr ⟨hdev, by rw [hnat, hloc]⟩
  refused := fun addr hge => getPhyBlockAddr_error hsum hge

lemma getPhyBlockAddrFrom_eq_some {devs : List D} {i k : ℕ} {saddr addr : UInt64} {dev : D}
    {pbid : UInt64} (h : getPhyBlockAddrFrom M devs i saddr addr = some (k, dev, pbid)) :
    ∃ j, k = i+j ∧ devs[j]? = some dev ∧
      addr < saddr + UInt64.ofNat ((sizes M devs).take j).sum + M.numBlocks dev ∧
      pbid = addr - (saddr + UInt64.ofNat ((sizes M devs).take j).sum) := by
  induction devs generalizing i saddr with
  | nil => cases h
  | cons d devs ih =>
    rw [getPhyBlockAddrFrom] at h
    by_cases hlt : addr < saddr + M.numBlocks d
    · rw [if_pos hlt] at h
      cases h
      refine ⟨0, rfl, rfl, ?_, ?_⟩
      · simpa using hlt
      · simp
    · rw [if_neg hlt] at h
      obtain ⟨j, hk, hdev, htest, hpbid⟩ := ih h
      have hacc : saddr + M.numBlocks d + UInt64.ofNat ((sizes M devs).take j).sum =
          saddr + UInt64.ofNat ((sizes M (d :: devs)).take (j+1)).sum := by
        rw [show sizes M (d :: devs) = (M.numBlocks d).toNat :: sizes M devs from rfl,
          List.take_succ_cons, List.sum_cons, UInt64.ofNat_add, UInt64.ofNat_toNat, UInt64.add_assoc]
      rw [hacc] at htest hpbid
      exact ⟨j+1, by omega, hdev, htest, hpbid⟩

/-- The block at place `2^64 - 1` of the concatenation is never reached: its only possible id is
the greatest one, which no sum exceeds. -/
lemma lt_of_bijective {c : Cluster D} (h : c.Bijective M) : (sizes M c.devices).sum < 2^64 := by
  by_contra hge
  cases hloc : locate (sizes M c.devices) (2^64-1) with
  | none => exact absurd (locate_eq_none_iff.mp hloc) (by omega)
  | some r =>
    obtain ⟨i, p⟩ := r
    obtain ⟨n, hn, hp, hplace⟩ := locate_eq_some_iff.mp hloc
    rw [sizes, List.getElem?_map, Option.map_eq_some_iff] at hn
    obtain ⟨dev, hdev, rfl⟩ := hn
    have hpbid : (UInt64.ofNat p).toNat = p := by
      rw [UInt64.toNat_ofNat', Nat.mod_eq_of_lt (hp.trans (UInt64.toNat_lt _))]
    obtain ⟨addr, -, haddr⟩ := h.reached i dev (UInt64.ofNat p) hdev (by
      rw [UInt64.lt_iff_toNat_lt, hpbid]
      exact hp)
    have hfrom : getPhyBlockAddrFrom M c.devices 0 0 addr = some (i, dev, UInt64.ofNat p) := by
      unfold Cluster.getPhyBlockAddr at haddr
      split at haddr
      · cases haddr
      · cases haddr
        assumption
    obtain ⟨j, hj, -, htest, hblk⟩ := getPhyBlockAddrFrom_eq_some hfrom
    obtain rfl : i = j := by omega
    rw [UInt64.zero_add] at htest hblk
    have hsum : addr = UInt64.ofNat (((sizes M c.devices).take i).sum + p) := by
      rw [UInt64.ofNat_add, hblk, UInt64.add_comm, UInt64.sub_add_cancel]
    have hlast : addr.toNat = 2^64 - 1 := by
      rw [hsum, ← hplace]
      rfl
    have hlt := UInt64.lt_iff_toNat_lt.mp htest
    have hmax := (UInt64.ofNat ((sizes M c.devices).take i).sum + M.numBlocks dev).toNat_lt
    omega

/-- Whatever devices a cluster has, its translation of addresses is a bijection exactly when the
sizes of the devices add up to less than `2^64`. -/
theorem getPhyBlockAddr_bijective_iff (M : DeviceOps D) (c : Cluster D) :
    c.Bijective M ↔ (sizes M c.devices).sum < 2^64 :=
  ⟨lt_of_bijective, bijective_of_lt⟩

end Translation

section Wrapped

def reporting (n : UInt64) : BlockDevice := .remote ⟨⟨1, n, 0, 0⟩, sevens, true⟩

def wrappedDevices : List BlockDevice := [reporting 10, reporting 18446744073709551611]

/-- The id 12 is below the total size and is refused: the second sum of the loop is 5. -/
theorem wrapped_sum_refuses :
    (∀ dev ∈ wrappedDevices, 0 < dev.numBlocks) ∧
      12 < (sizes (BlockDevice.ops seqKey zeroIvs) wrappedDevices).sum ∧
      Cluster.getPhyBlockAddr (BlockDevice.ops seqKey zeroIvs) ⟨wrappedDevices, 5⟩ 12 =
        .error (.unmappable 12) := by
  refine ⟨?_, by decide, rfl⟩
  intro dev hdev
  simp only [wrappedDevices, List.mem_cons, List.not_mem_nil, or_false] at hdev
  obtain rfl | rfl := hdev
  · decide
  · decide

end Wrapped

end Bfs.Blk
