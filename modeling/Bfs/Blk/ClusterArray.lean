import Bfs.Blk.Cluster

/-! The cluster as one array of blocks: the translation of addresses is a bijection, and every call
does on the devices what it would do on the array. -/
namespace Bfs.Blk
open ByteSeq Fallible Concat Bfs.Device
open Bfs.Fs (Block blkSz)

variable {D : Type*}

section Translation

variable {M : DeviceOps D}

def sizes (M : DeviceOps D) (devs : List D) : List ℕ := devs.map fun dev => (M.numBlocks dev).toNat

lemma getPhyBlockAddrFrom_eq (M : DeviceOps D) (devs : List D) (i : ℕ) (saddr addr : UInt64)
    (hsum : saddr.toNat + (sizes M devs).sum < 2^64) (hle : saddr.toNat ≤ addr.toNat) :
    getPhyBlockAddrFrom M devs i saddr addr =
      (locate (sizes M devs) (addr.toNat - saddr.toNat)).bind fun r =>
        (devs[r.1]?).map fun dev => (i + r.1, dev, UInt64.ofNat r.2) := by
  induction devs generalizing i saddr with
  | nil => rfl
  | cons dev devs ih =>
    have hsizes : sizes M (dev :: devs) = (M.numBlocks dev).toNat :: sizes M devs := rfl
    rw [hsizes, List.sum_cons] at hsum
    have hadd : (saddr + M.numBlocks dev).toNat = saddr.toNat + (M.numBlocks dev).toNat := by
      rw [UInt64.toNat_add, Nat.mod_eq_of_lt (by omega)]
    rw [getPhyBlockAddrFrom, hsizes, locate]
    by_cases hlt : addr.toNat - saddr.toNat < (M.numBlocks dev).toNat
    · rw [if_pos (by rw [UInt64.lt_iff_toNat_lt, hadd]; omega), if_pos hlt]
      have hsub : UInt64.ofNat (addr.toNat - saddr.toNat) = addr - saddr := by
        apply UInt64.toNat_inj.mp
        rw [UInt64.toNat_sub_of_le _ _ (UInt64.le_iff_toNat_le.mpr hle), UInt64.toNat_ofNat',
          Nat.mod_eq_of_lt]
        have := addr.toNat_lt
        omega
      simp [hsub]
    · rw [if_neg (by rw [UInt64.lt_iff_toNat_lt, hadd]; omega), if_neg hlt,
        ih (i+1) _ (by omega) (by omega), hadd, Nat.sub_sub, Option.bind_map]
      congr 1
      funext r
      simp [Nat.add_assoc, Nat.add_comm 1]

lemma getPhyBlockAddr_eq_ok_iff {c : Cluster D} (hsum : (sizes M c.devices).sum < 2^64)
    {addr : UInt64} {i : ℕ} {dev : D} {pbid : UInt64} :
    c.getPhyBlockAddr M addr = .ok (i, dev, pbid) ↔
      c.devices[i]? = some dev ∧ locate (sizes M c.devices) addr.toNat = some (i, pbid.toNat) := by
  have hfrom := getPhyBlockAddrFrom_eq M c.devices 0 0 addr (by simpa using hsum)
    (Nat.zero_le _)
  have hzero : addr.toNat - (0 : UInt64).toNat = addr.toNat := Nat.sub_zero _
  rw [hzero] at hfrom
  rw [Cluster.getPhyBlockAddr, hfrom]
  cases hloc : locate (sizes M c.devices) addr.toNat with
  | none => simp
  | some r =>
    obtain ⟨j, p⟩ := r
    have hp : (UInt64.ofNat p).toNat = p := by
      obtain ⟨n, -, -, hv⟩ := locate_eq_some_iff.mp hloc
      have := addr.toNat_lt
      rw [UInt64.toNat_ofNat', Nat.mod_eq_of_lt (by omega)]
    cases hdev : c.devices[j]? with
    | none =>
      simp only [Option.bind_some, hdev, Option.map_none, reduceCtorEq, Option.some.injEq,
        Prod.mk.injEq, false_iff, not_and]
      rintro hi rfl
      rw [hdev] at hi
      cases hi
    | some d =>
      simp only [Option.bind_some, hdev, Option.map_some, Except.ok.injEq, Prod.mk.injEq, zero_add,
        Option.some.injEq]
      constructor
      · rintro ⟨rfl, rfl, rfl⟩
        exact ⟨hdev, rfl, hp.symm⟩
      · rintro ⟨hi, rfl, rfl⟩
        rw [hdev] at hi
        exact ⟨rfl, Option.some.inj hi, UInt64.ofNat_toNat⟩

lemma getPhyBlockAddr_error {c : Cluster D} (hsum : (sizes M c.devices).sum < 2^64) {addr : UInt64}
    (hge : (sizes M c.devices).sum ≤ addr.toNat) :
    c.getPhyBlockAddr M addr = .error (.unmappable addr) := by
  cases haddr : c.getPhyBlockAddr M addr with
  | ok r =>
    have hloc := ((getPhyBlockAddr_eq_ok_iff hsum).mp haddr).2
    rw [locate_eq_none_iff.mpr hge] at hloc
    cases hloc
  | error e =>
    unfold Cluster.getPhyBlockAddr at haddr
    split at haddr
    · exact haddr.symm
    · cases haddr

lemma getPhyBlockAddr_ok {c : Cluster D} (hsum : (sizes M c.devices).sum < 2^64) {addr : UInt64}
    (hlt : addr.toNat < (sizes M c.devices).sum) :
    ∃ i dev pbid, c.getPhyBlockAddr M addr = .ok (i, dev, pbid) ∧ c.devices[i]? = some dev ∧
      pbid < M.numBlocks dev := by
  cases hloc : locate (sizes M c.devices) addr.toNat with
  | none => exact absurd (locate_eq_none_iff.mp hloc) (by omega)
  | some r =>
    obtain ⟨i, p⟩ := r
    obtain ⟨n, hn, hp, -⟩ := locate_eq_some_iff.mp hloc
    rw [sizes, List.getElem?_map, Option.map_eq_some_iff] at hn
    obtain ⟨dev, hdev, rfl⟩ := hn
    have hpbid : (UInt64.ofNat p).toNat = p := by
      rw [UInt64.toNat_ofNat', Nat.mod_eq_of_lt]
      exact hp.trans (UInt64.toNat_lt _)
    refine ⟨i, dev, UInt64.ofNat p, ?_, hdev, ?_⟩
    · exact (getPhyBlockAddr_eq_ok_iff hsum).mpr ⟨hdev, by rw [hpbid, hloc]⟩
    · rw [UInt64.lt_iff_toNat_lt, hpbid]
      exact hp

end Translation

section Devices

variable {M : ArrayDevice D} {n : ℕ} {c : Cluster D} {arr arr' : UInt64 → Block}

structure Represents (M : ArrayDevice D) (n : ℕ) (c : Cluster D) (arr : UInt64 → Block) : Prop where
  size : (sizes M.toDeviceOps c.devices).sum = n
  bound : n < 2^64
  ready : ∀ dev ∈ c.devices, M.Ready dev
  agree : ∀ addr i dev pbid, c.getPhyBlockAddr M.toDeviceOps addr = .ok (i, dev, pbid) →
    arr addr = M.contents dev pbid

namespace Represents

lemma lt (h : Represents M n c arr) : (sizes M.toDeviceOps c.devices).sum < 2^64 :=
  h.size ▸ h.bound

lemma located (h : Represents M n c arr) {addr : UInt64} (hlt : addr.toNat < n) :
    ∃ i dev pbid, c.getPhyBlockAddr M.toDeviceOps addr = .ok (i, dev, pbid) ∧
      c.devices[i]? = some dev ∧ pbid < M.numBlocks dev :=
  getPhyBlockAddr_ok h.lt (h.size.symm ▸ hlt)

lemma refused (h : Represents M n c arr) {addr : UInt64} (hge : ¬ addr.toNat < n) :
    c.getPhyBlockAddr M.toDeviceOps addr = .error (.unmappable addr) :=
  getPhyBlockAddr_error h.lt (h.size.symm ▸ not_lt.mp hge)

lemma ne_ok (h : Represents M n c arr) {addr : UInt64} (hge : n ≤ addr.toNat)
    (r : ℕ × D × UInt64) : c.getPhyBlockAddr M.toDeviceOps addr ≠ .ok r := by
  rw [h.refused (not_lt.mpr hge)]
  nofun

lemma ready_of_getElem? (h : Represents M n c arr) {i : ℕ} {dev : D}
    (hdev : c.devices[i]? = some dev) : M.Ready dev :=
  h.ready dev (List.mem_of_getElem? hdev)

lemma lt_numBlocks (h : Represents M n c arr) {addr : UInt64} {i : ℕ} {dev : D} {pbid : UInt64}
    (haddr : c.getPhyBlockAddr M.toDeviceOps addr = .ok (i, dev, pbid)) :
    pbid < M.numBlocks dev := by
  obtain ⟨hdev, hloc⟩ := (getPhyBlockAddr_eq_ok_iff h.lt).mp haddr
  obtain ⟨m, hm, hlt, -⟩ := locate_eq_some_iff.mp hloc
  rw [sizes, List.getElem?_map, hdev] at hm
  cases hm
  exact UInt64.lt_iff_toNat_lt.mpr hlt

lemma addr_inj (h : Represents M n c arr) {addr addr' : UInt64} {i : ℕ} {dev : D} {pbid : UInt64}
    (haddr : c.getPhyBlockAddr M.toDeviceOps addr = .ok (i, dev, pbid))
    (haddr' : c.getPhyBlockAddr M.toDeviceOps addr' = .ok (i, dev, pbid)) : addr = addr' :=
  UInt64.toNat_inj.mp (locate_inj ((getPhyBlockAddr_eq_ok_iff h.lt).mp haddr).2
    ((getPhyBlockAddr_eq_ok_iff h.lt).mp haddr').2)

lemma device_eq (h : Represents M n c arr) {addr : UInt64} {i : ℕ} {dev dev' : D} {pbid : UInt64}
    (haddr : c.getPhyBlockAddr M.toDeviceOps addr = .ok (i, dev, pbid))
    (hdev' : c.devices[i]? = some dev') : dev = dev' := by
  have hdev := ((getPhyBlockAddr_eq_ok_iff h.lt).mp haddr).1
  rw [hdev'] at hdev
  exact (Option.some.inj hdev).symm

lemma of_devices (h : Represents M n c arr) {devices : List D}
    (hlen : devices.length = c.devices.length)
    (hdevs : ∀ (i : ℕ) dev dev', c.devices[i]? = some dev → devices[i]? = some dev' →
      M.Ready dev' ∧ M.numBlocks dev' = M.numBlocks dev ∧
      ∀ addr pbid, c.getPhyBlockAddr M.toDeviceOps addr = .ok (i, dev, pbid) →
        arr' addr = M.contents dev' pbid) :
    Represents M n { c with devices } arr' := by
  have hget : ∀ (i : ℕ) dev', devices[i]? = some dev' → ∃ dev, c.devices[i]? = some dev := by
    intro i dev' hdev'
    have hi := (List.getElem?_eq_some_iff.mp hdev').1
    exact ⟨_, List.getElem?_eq_getElem (hlen ▸ hi)⟩
  have hsizes : sizes M.toDeviceOps devices = sizes M.toDeviceOps c.devices := by
    apply List.ext_getElem?
    intro i
    simp only [sizes, List.getElem?_map]
    cases hdev' : devices[i]? with
    | none =>
      rw [List.getElem?_eq_none_iff, hlen, ← List.getElem?_eq_none_iff] at hdev'
      rw [hdev']
    | some dev' =>
      obtain ⟨dev, hdev⟩ := hget i dev' hdev'
      rw [hdev, Option.map_some, Option.map_some, (hdevs i dev dev' hdev hdev').2.1]
  refine ⟨hsizes ▸ h.size, h.bound, ?_, ?_⟩
  · intro dev' hmem
    obtain ⟨i, hdev'⟩ := List.mem_iff_getElem?.mp hmem
    obtain ⟨dev, hdev⟩ := hget i dev' hdev'
    exact (hdevs i dev dev' hdev hdev').1
  · intro addr i dev' pbid haddr
    obtain ⟨hdev', hloc⟩ := (getPhyBlockAddr_eq_ok_iff (hsizes ▸ h.lt)).mp haddr
    obtain ⟨dev, hdev⟩ := hget i dev' hdev'
    refine (hdevs i dev dev' hdev hdev').2.2 addr pbid ?_
    exact (getPhyBlockAddr_eq_ok_iff h.lt).mpr ⟨hdev, hsizes ▸ hloc⟩

lemma setDevice (h : Represents M n c arr) {i : ℕ} {dev dev' : D} (hdev : c.devices[i]? = some dev)
    (hready : M.Ready dev') (hnum : M.numBlocks dev' = M.numBlocks dev)
    (hin : ∀ addr pbid, c.getPhyBlockAddr M.toDeviceOps addr = .ok (i, dev, pbid) →
      arr' addr = M.contents dev' pbid)
    (hout : ∀ addr j dev₁ pbid, c.getPhyBlockAddr M.toDeviceOps addr = .ok (j, dev₁, pbid) →
      j ≠ i → arr' addr = arr addr) :
    Represents M n (c.setDevice i dev') arr' := by
  have hi := (List.getElem?_eq_some_iff.mp hdev).1
  refine h.of_devices (List.length_set ..) ?_
  intro j dev₁ dev₂ hdev₁ hdev₂
  by_cases hj : j = i
  · subst j
    rw [List.getElem?_set_self hi] at hdev₂
    rw [hdev] at hdev₁
    cases hdev₁
    cases hdev₂
    exact ⟨hready, hnum, hin⟩
  · rw [List.getElem?_set_ne (Ne.symm hj), hdev₁] at hdev₂
    cases hdev₂
    refine ⟨h.ready_of_getElem? hdev₁, rfl, ?_⟩
    intro addr pbid haddr
    rw [hout addr j dev₁ pbid haddr hj, h.agree addr j dev₁ pbid haddr]

lemma getBlock (h : Represents M n c arr) {vbid : UInt64} {i : ℕ} {dev : D} {pbid : UInt64}
    (haddr : c.getPhyBlockAddr M.toDeviceOps vbid = .ok (i, dev, pbid)) :
    ∃ dev', M.getBlock dev pbid = (.ok (arr vbid), dev') ∧ M.numBlocks dev' = M.numBlocks dev ∧
      Represents M n (c.setDevice i dev') arr := by
  have hdev := ((getPhyBlockAddr_eq_ok_iff h.lt).mp haddr).1
  obtain ⟨dev', hget, hready, hnum, hcont⟩ :=
    M.getBlock_eq dev pbid (h.ready_of_getElem? hdev) (h.lt_numBlocks haddr)
  refine ⟨dev', ?_, hnum, h.setDevice hdev hready hnum ?_ fun _ _ _ _ _ _ => rfl⟩
  · rw [hget, h.agree vbid i dev pbid haddr]
  · intro addr p hp
    rw [h.agree addr i dev p hp, hcont]

lemma putBlock (h : Represents M n c arr) {vbid : UInt64} {i : ℕ} {dev : D} {pbid : UInt64}
    (haddr : c.getPhyBlockAddr M.toDeviceOps vbid = .ok (i, dev, pbid)) (blk : Block) :
    ∃ buf dev', M.putBlock dev pbid blk.toList = (.ok buf, dev') ∧
      M.numBlocks dev' = M.numBlocks dev ∧
      Represents M n (c.setDevice i dev') (Function.update arr vbid blk) := by
  have hdev := ((getPhyBlockAddr_eq_ok_iff h.lt).mp haddr).1
  obtain ⟨buf, dev', hput, hready, hnum, hcont⟩ :=
    M.putBlock_eq dev pbid blk (h.ready_of_getElem? hdev) (h.lt_numBlocks haddr)
  refine ⟨buf, dev', hput, hnum, h.setDevice hdev hready hnum ?_ ?_⟩
  · intro addr p hp
    rw [hcont]
    by_cases hv : addr = vbid
    · subst addr
      rw [haddr] at hp
      cases hp
      rw [Function.update_self, Function.update_self]
    · have hne : p ≠ pbid := by
        rintro rfl
        exact hv (h.addr_inj hp haddr)
      rw [Function.update_of_ne hv, Function.update_of_ne hne, h.agree addr i dev p hp]
  · intro addr j dev₁ p hp hj
    rw [Function.update_of_ne]
    rintro rfl
    rw [haddr] at hp
    cases hp
    exact hj rfl

end Represents

lemma readBlock_of_lt (h : Represents M n c arr) {vbid : UInt64} (hlt : vbid.toNat < n) :
    ∃ c', c.readBlock M.toDeviceOps vbid = (.ok (arr vbid), c') ∧ Represents M n c' arr := by
  obtain ⟨i, dev, pbid, haddr, -⟩ := h.located hlt
  obtain ⟨dev', hget, -, h'⟩ := h.getBlock haddr
  refine ⟨c.setDevice i dev', ?_, h'⟩
  simp only [Cluster.readBlock, haddr, hget]

lemma writeBlock_of_lt (h : Represents M n c arr) {vbid : UInt64} (hlt : vbid.toNat < n)
    (blk : Block) (flags : UInt32) :
    ∃ c', c.writeBlock M.toDeviceOps vbid blk flags = (.ok (), c') ∧
      Represents M n c' (Function.update arr vbid blk) := by
  obtain ⟨i, dev, pbid, haddr, -⟩ := h.located hlt
  obtain ⟨buf, dev', hput, -, h'⟩ := h.putBlock haddr blk
  refine ⟨c.setDevice i dev', ?_, h'⟩
  simp only [Cluster.writeBlock, haddr, hput]

lemma sizes_setDevice {M : DeviceOps D} {i : ℕ} {dev dev' : D} (hdev : c.devices[i]? = some dev)
    (hnum : M.numBlocks dev' = M.numBlocks dev) :
    sizes M (c.setDevice i dev').devices = sizes M c.devices := by
  obtain ⟨hi, rfl⟩ := List.getElem?_eq_some_iff.mp hdev
  rw [Cluster.setDevice, sizes, List.map_set, hnum]
  apply List.ext_getElem?
  intro k
  by_cases hk : k = i
  · subst k
    rw [List.getElem?_set_self (by simpa using hi), sizes, List.getElem?_map,
      List.getElem?_eq_getElem hi, Option.map_some]
  · rw [List.getElem?_set_ne (Ne.symm hk), sizes]

end Devices

section Batches

variable {M : ArrayDevice D} {n : ℕ} {c : Cluster D} {arr : UInt64 → Block} {α : Type*}

def Located (M : DeviceOps D) (c : Cluster D) (keyed : List (UInt64 × α))
    (locs : List ((ℕ × D × UInt64) × α)) : Prop :=
  List.Forall₂ (fun k l => c.getPhyBlockAddr M k.1 = .ok l.1 ∧ k.2 = l.2) keyed locs

lemma onDevice_cons (i : ℕ) (l : (ℕ × D × UInt64) × α) (locs : List ((ℕ × D × UInt64) × α)) :
    Cluster.onDevice i (l :: locs) =
      if l.1.1 = i then (l.1.2.2, l.2) :: Cluster.onDevice i locs else Cluster.onDevice i locs := by
  rw [Cluster.onDevice, List.filterMap_cons]
  split_ifs <;> rfl

lemma length_onDevice_le (i : ℕ) (locs : List ((ℕ × D × UInt64) × α)) :
    (Cluster.onDevice i locs).length ≤ locs.length :=
  List.length_filterMap_le _ _

lemma mem_onDevice {M : DeviceOps D} {keyed : List (UInt64 × α)}
    {locs : List ((ℕ × D × UInt64) × α)} (hloc : Located M c keyed locs) {i : ℕ} {pbid : UInt64}
    {a : α} :
    (pbid, a) ∈ Cluster.onDevice i locs ↔
      ∃ vbid dev, (vbid, a) ∈ keyed ∧ c.getPhyBlockAddr M vbid = .ok (i, dev, pbid) := by
  induction hloc with
  | nil => simp [Cluster.onDevice]
  | @cons k l keyed locs hkl _ ih =>
    obtain ⟨vbid, b⟩ := k
    obtain ⟨⟨j, dev, p⟩, b'⟩ := l
    obtain ⟨haddr, rfl : b = b'⟩ := hkl
    have hhead : (∃ v d, ((v, a) = (vbid, b)) ∧ c.getPhyBlockAddr M v = .ok (i, d, pbid)) ↔
        j = i ∧ p = pbid ∧ b = a := by
      constructor
      · rintro ⟨v, d, hv, hd⟩
        cases hv
        rw [haddr] at hd
        cases hd
        exact ⟨rfl, rfl, rfl⟩
      · rintro ⟨rfl, rfl, rfl⟩
        exact ⟨vbid, dev, rfl, haddr⟩
    have hsplit : (∃ v d, (v, a) ∈ (vbid, b) :: keyed ∧ c.getPhyBlockAddr M v = .ok (i, d, pbid)) ↔
        (j = i ∧ p = pbid ∧ b = a) ∨ (pbid, a) ∈ Cluster.onDevice i locs := by
      rw [← hhead, ih]
      simp only [List.mem_cons, or_and_right, exists_or]
    rw [hsplit, onDevice_cons]
    by_cases hj : j = i
    · rw [if_pos hj, List.mem_cons, Prod.mk.injEq]
      simp only [hj, true_and, @eq_comm _ pbid, @eq_comm _ a]
    · rw [if_neg hj]
      simp [hj]

lemma onDevice_pairwise (h : Represents M n c arr) {keyed : List (UInt64 × α)}
    {locs : List ((ℕ × D × UInt64) × α)} (hloc : Located M.toDeviceOps c keyed locs)
    (hsorted : (keyed.map Prod.fst).Pairwise (· < ·)) (i : ℕ) :
    ((Cluster.onDevice i locs).map Prod.fst).Pairwise (· < ·) := by
  induction hloc with
  | nil => exact List.Pairwise.nil
  | @cons k l keyed locs hkl htail ih =>
    rw [List.map_cons, List.pairwise_cons] at hsorted
    rw [onDevice_cons]
    split_ifs with hj
    · rw [List.map_cons, List.pairwise_cons]
      refine ⟨?_, ih hsorted.2⟩
      intro p hp
      obtain ⟨⟨p, a⟩, hmem, rfl⟩ := List.mem_map.mp hp
      obtain ⟨vbid, dev, hv, haddr⟩ := (mem_onDevice htail).mp hmem
      have hlt : k.1 < vbid := hsorted.1 vbid (List.mem_map.mpr ⟨_, hv, rfl⟩)
      have hk : c.getPhyBlockAddr M.toDeviceOps k.1 = .ok (i, l.1.2.1, l.1.2.2) := by
        rw [hkl.1, ← hj]
      rw [UInt64.lt_iff_toNat_lt] at hlt ⊢
      exact (locate_lt_iff ((getPhyBlockAddr_eq_ok_iff h.lt).mp hk).2
        ((getPhyBlockAddr_eq_ok_iff h.lt).mp haddr).2).mpr hlt
    · exact ih hsorted.2

lemma assignAll_onDevice (h : Represents M n c arr) {keyed : List (UInt64 × Block)}
    {locs : List ((ℕ × D × UInt64) × Block)} (hloc : Located M.toDeviceOps c keyed locs)
    {i : ℕ} {dev : D} {f g : UInt64 → Block}
    (hfg : ∀ addr pbid, c.getPhyBlockAddr M.toDeviceOps addr = .ok (i, dev, pbid) →
      f addr = g pbid)
    {addr pbid : UInt64} (haddr : c.getPhyBlockAddr M.toDeviceOps addr = .ok (i, dev, pbid)) :
    assignAll f keyed addr = assignAll g (Cluster.onDevice i locs) pbid := by
  induction hloc generalizing f g with
  | nil => exact hfg addr pbid haddr
  | @cons k l keyed locs hkl _ ih =>
    obtain ⟨vbid, b⟩ := k
    obtain ⟨⟨j, d, p⟩, b'⟩ := l
    obtain ⟨hv, rfl : b = b'⟩ := hkl
    replace hv : c.getPhyBlockAddr M.toDeviceOps vbid = .ok (j, d, p) := hv
    rw [assignAll_cons, onDevice_cons]
    split_ifs with hj
    · obtain rfl : j = i := hj
      rw [assignAll_cons]
      apply ih
      intro addr q hq
      obtain rfl : dev = d := h.device_eq hq ((getPhyBlockAddr_eq_ok_iff h.lt).mp hv).1
      by_cases hav : addr = vbid
      · subst addr
        rw [hv] at hq
        cases hq
        rw [Function.update_self, Function.update_self]
      · have hne : q ≠ p := by
          rintro rfl
          exact hav (h.addr_inj hq hv)
        rw [Function.update_of_ne hav, Function.update_of_ne hne, hfg addr q hq]
    · apply ih
      intro addr q hq
      rw [Function.update_of_ne, hfg addr q hq]
      rintro rfl
      rw [hv] at hq
      cases hq
      exact hj rfl

lemma forDevices_ok (request : ℕ → D → Except ClusterErr α × D) {P : ℕ → D → α → D → Prop}
    (devs : List D) (i : ℕ)
    (h : ∀ (k : ℕ) dev, devs[k]? = some dev →
      ∃ a dev', request (i+k) dev = (.ok a, dev') ∧ P (i+k) dev a dev') :
    ∃ as devs', Cluster.forDevices request i devs = (.ok as, devs') ∧
      devs'.length = devs.length ∧
      ∀ (k : ℕ) dev, devs[k]? = some dev →
        ∃ a dev', as[k]? = some a ∧ devs'[k]? = some dev' ∧ P (i+k) dev a dev' := by
  induction devs generalizing i with
  | nil => exact ⟨[], [], rfl, rfl, by simp⟩
  | cons dev devs ih =>
    obtain ⟨a, dev', hreq, hP⟩ := h 0 dev rfl
    obtain ⟨as, devs', hrest, hlen, hall⟩ := ih (i+1) fun k dev hdev => by
      obtain ⟨a, dev', hreq, hP⟩ := h (k+1) dev hdev
      rw [show i + (k+1) = i+1+k by omega] at hreq hP
      exact ⟨a, dev', hreq, hP⟩
    rw [Nat.add_zero] at hreq hP
    refine ⟨a :: as, dev' :: devs', ?_, by simp [hlen], ?_⟩
    · simp only [Cluster.forDevices, hreq, hrest]
    · intro k d hd
      cases k with
      | zero =>
        cases hd
        exact ⟨a, dev', rfl, rfl, hP⟩
      | succ k =>
        obtain ⟨b, d', hb, hd', hP'⟩ := hall k d hd
        rw [show i+1+k = i + (k+1) by omega] at hP'
        exact ⟨b, d', hb, hd', hP'⟩

lemma fetch_eq {dev : D} {pbids : List UInt64} (hready : M.Ready dev)
    (hlt : ∀ pbid ∈ pbids, pbid < M.numBlocks dev) (hsorted : pbids.Pairwise (· < ·))
    (hfits : M.Fits pbids.length) :
    ∃ dev', Cluster.fetch M.toDeviceOps dev pbids =
        (.ok (pbids.map fun pbid => (pbid, M.contents dev pbid)), dev') ∧ M.Ready dev' ∧
      M.numBlocks dev' = M.numBlocks dev ∧ M.contents dev' = M.contents dev := by
  by_cases hnil : pbids = []
  · subst hnil
    exact ⟨dev, rfl, hready, rfl, rfl⟩
  · obtain ⟨dev', hget, hrest⟩ := M.getBlocks_eq dev pbids hready hlt hsorted hfits
    exact ⟨dev', by simp only [Cluster.fetch, if_neg hnil, hget], hrest⟩

lemma store_eq {dev : D} {blks : List (UInt64 × Block)} (hready : M.Ready dev)
    (hlt : ∀ pbid ∈ blks.map Prod.fst, pbid < M.numBlocks dev)
    (hsorted : (blks.map Prod.fst).Pairwise (· < ·)) (hfits : M.Fits blks.length) :
    ∃ dev', Cluster.store M.toDeviceOps dev blks = (.ok (), dev') ∧ M.Ready dev' ∧
      M.numBlocks dev' = M.numBlocks dev ∧ M.contents dev' = assignAll (M.contents dev) blks := by
  by_cases hnil : blks = []
  · subst hnil
    exact ⟨dev, rfl, hready, rfl, rfl⟩
  · obtain ⟨dev', hput, hrest⟩ := M.putBlocks_eq dev blks hready hlt hsorted hfits
    exact ⟨dev', by simp only [Cluster.store, if_neg hnil, hput], hrest⟩

lemma lt_of_mem_onDevice (h : Represents M n c arr) {keyed : List (UInt64 × α)}
    {locs : List ((ℕ × D × UInt64) × α)} (hloc : Located M.toDeviceOps c keyed locs) {i : ℕ}
    {dev : D} (hdev : c.devices[i]? = some dev) {pbid : UInt64}
    (hmem : pbid ∈ (Cluster.onDevice i locs).map Prod.fst) : pbid < M.numBlocks dev := by
  obtain ⟨⟨p, a⟩, hentry, rfl⟩ := List.mem_map.mp hmem
  obtain ⟨vbid, dev', -, haddr⟩ := (mem_onDevice hloc).mp hentry
  obtain rfl := h.device_eq haddr hdev
  exact h.lt_numBlocks haddr

lemma readBlocks_of_lt (h : Represents M n c arr) {vbids : List UInt64}
    (hlt : ∀ vbid ∈ vbids, vbid.toNat < n) (hsorted : vbids.Pairwise (· < ·))
    (hfits : ∀ k ≤ vbids.length, M.Fits k) :
    ∃ c', c.readBlocks M.toDeviceOps vbids = (.ok (vbids.map fun vbid => (vbid, arr vbid)), c') ∧
      Represents M n c' arr := by
  obtain ⟨locs, hmap⟩ := exists_mapM_ok (f := c.getPhyBlockAddr M.toDeviceOps) fun vbid hv => by
    obtain ⟨i, dev, pbid, haddr, -⟩ := h.located (hlt vbid hv)
    exact ⟨(i, dev, pbid), haddr⟩
  have hall := mapM_eq_ok_iff.mp hmap
  have hloc : Located M.toDeviceOps c (vbids.map (·, ())) (locs.map (·, ())) := by
    rw [Located, List.forall₂_map_left_iff, List.forall₂_map_right_iff]
    exact hall.imp fun _ _ haddr => ⟨haddr, rfl⟩
  have hsorted' : ((vbids.map (·, ())).map Prod.fst).Pairwise (· < ·) := by
    rw [List.map_map, show (Prod.fst ∘ fun v : UInt64 => (v, ())) = id from rfl, List.map_id]
    exact hsorted
  let group := fun i => (Cluster.onDevice i (locs.map (·, ()))).map Prod.fst
  obtain ⟨found, devices, hfor, hlen, hdevs⟩ := forDevices_ok
    (fun i dev => Cluster.fetch M.toDeviceOps dev (group i))
    (P := fun i dev blks dev' => blks = (group i).map (fun pbid => (pbid, M.contents dev pbid)) ∧
      M.Ready dev' ∧ M.numBlocks dev' = M.numBlocks dev ∧ M.contents dev' = M.contents dev)
    c.devices 0 fun k dev hdev => by
      rw [Nat.zero_add]
      have hk : (group k).length ≤ vbids.length := by
        rw [List.length_map, hall.length_eq]
        exact (length_onDevice_le k _).trans_eq (List.length_map _)
      obtain ⟨dev', hfetch, hrest⟩ := fetch_eq (h.ready_of_getElem? hdev)
        (fun _ hmem => lt_of_mem_onDevice h hloc hdev hmem)
        (onDevice_pairwise h hloc hsorted' k) (hfits _ hk)
      exact ⟨_, dev', hfetch, rfl, hrest⟩
  -- each address finds its block among those of its device
  have hvalue : ∀ vl ∈ vbids.zip locs,
      (((found[vl.2.1]?).getD []).lookup vl.2.2.2).getD (Buf.fill 0 blkSz) = arr vl.1 := by
    rintro ⟨vbid, i, dev, pbid⟩ hmem
    have haddr : c.getPhyBlockAddr M.toDeviceOps vbid = .ok (i, dev, pbid) :=
      (List.forall₂_iff_zip.mp hall).2 hmem
    obtain ⟨blks, -, hfound, -, rfl, -⟩ :=
      hdevs i dev ((getPhyBlockAddr_eq_ok_iff h.lt).mp haddr).1
    have hgroup : pbid ∈ group i := by
      refine List.mem_map.mpr ⟨(pbid, ()), (mem_onDevice hloc).mpr ⟨vbid, dev, ?_, haddr⟩, rfl⟩
      exact List.mem_map.mpr ⟨vbid, (List.of_mem_zip hmem).1, rfl⟩
    simp only [hfound, Option.getD_some, Nat.zero_add, List.lookup_graph _ hgroup,
      h.agree vbid i dev pbid haddr]
  refine ⟨{ c with devices }, ?_, h.of_devices hlen ?_⟩
  · simp only [Cluster.readBlocks, hmap]
    rw [hfor]
    refine Prod.ext (congrArg Except.ok ?_) rfl
    calc _ = (vbids.zip locs).map fun vl => (vl.1, arr vl.1) := by
          refine List.map_congr_left fun vl hmem => ?_
          rw [hvalue vl hmem]
      _ = ((vbids.zip locs).map Prod.fst).map fun vbid => (vbid, arr vbid) := by
          rw [List.map_map]
          rfl
      _ = _ := by rw [List.map_fst_zip hall.length_eq.le]
  · intro i dev dev' hdev hdev'
    obtain ⟨_, d, -, hd, -, hready, hnum, hcont⟩ := hdevs i dev hdev
    rw [hdev'] at hd
    cases hd
    refine ⟨hready, hnum, ?_⟩
    intro addr pbid haddr
    rw [hcont, h.agree addr i dev pbid haddr]

lemma located_zip {blks : List (UInt64 × Block)} {locs : List (ℕ × D × UInt64)}
    (hall : List.Forall₂ (fun b l => c.getPhyBlockAddr M.toDeviceOps b.1 = .ok l) blks locs) :
    Located M.toDeviceOps c blks (locs.zip (blks.map Prod.snd)) := by
  induction hall with
  | nil => exact List.Forall₂.nil
  | cons hbl _ ih => exact List.Forall₂.cons ⟨hbl, rfl⟩ ih

lemma writeBlocks_of_lt (h : Represents M n c arr) {blks : List (UInt64 × Block)}
    (hlt : ∀ vbid ∈ blks.map Prod.fst, vbid.toNat < n)
    (hsorted : (blks.map Prod.fst).Pairwise (· < ·)) (hfits : ∀ k ≤ blks.length, M.Fits k) :
    ∃ c', c.writeBlocks M.toDeviceOps blks = (.ok (), c') ∧
      Represents M n c' (assignAll arr blks) := by
  obtain ⟨locs, hmap⟩ := exists_mapM_ok (f := fun b : UInt64 × Block =>
      c.getPhyBlockAddr M.toDeviceOps b.1) fun b hb => by
    obtain ⟨i, dev, pbid, haddr, -⟩ := h.located (hlt b.1 (List.mem_map_of_mem hb))
    exact ⟨(i, dev, pbid), haddr⟩
  have hall := mapM_eq_ok_iff.mp hmap
  have hloc := located_zip hall
  let group := fun i => Cluster.onDevice i (locs.zip (blks.map Prod.snd))
  obtain ⟨_, devices, hfor, hlen, hdevs⟩ := forDevices_ok
    (fun i dev => Cluster.store M.toDeviceOps dev (group i))
    (P := fun i dev _ dev' => M.Ready dev' ∧ M.numBlocks dev' = M.numBlocks dev ∧
      M.contents dev' = assignAll (M.contents dev) (group i))
    c.devices 0 fun k dev hdev => by
      rw [Nat.zero_add]
      have hk : (group k).length ≤ blks.length :=
        (length_onDevice_le k _).trans_eq hloc.length_eq.symm
      obtain ⟨dev', hstore, hrest⟩ := store_eq (h.ready_of_getElem? hdev)
        (fun _ hmem => lt_of_mem_onDevice h hloc hdev hmem)
        (onDevice_pairwise h hloc hsorted k) (hfits _ hk)
      exact ⟨_, dev', hstore, hrest⟩
  refine ⟨{ c with devices }, ?_, h.of_devices hlen ?_⟩
  · simp only [Cluster.writeBlocks, hmap]
    rw [hfor]
  · intro i dev dev' hdev hdev'
    obtain ⟨_, d, -, hd, hready, hnum, hcont⟩ := hdevs i dev hdev
    rw [hdev'] at hd
    cases hd
    rw [Nat.zero_add] at hcont
    refine ⟨hready, hnum, ?_⟩
    intro addr pbid haddr
    rw [hcont]
    exact assignAll_onDevice h hloc (fun a p ha => h.agree a i dev p ha) haddr

end Batches

/-! ## The array -/

/-- A call on an array of `n` blocks: what it returns, `none` if it is refused, and the array after
it. -/
def ClusterOp.onArray (n : ℕ) (arr : UInt64 → Block) :
    ClusterOp → Option ClusterResult × (UInt64 → Block)
  | .readBlock vbid => if vbid.toNat < n then (some [(vbid, arr vbid)], arr) else (none, arr)
  | .writeBlock vbid blk _ =>
    if vbid.toNat < n then (some [], Function.update arr vbid blk) else (none, arr)
  | .readBlocks vbids =>
    if ∀ vbid ∈ vbids, vbid.toNat < n then (some (vbids.map fun vbid => (vbid, arr vbid)), arr)
    else (none, arr)
  | .writeBlocks blks =>
    if ∀ vbid ∈ blks.map Prod.fst, vbid.toNat < n then (some [], assignAll arr blks) else (none, arr)

def runArray (n : ℕ) : (UInt64 → Block) → List ClusterOp →
    List (Option ClusterResult) × (UInt64 → Block)
  | arr, [] => ([], arr)
  | arr, op :: ops =>
    let r := op.onArray n arr
    let rest := runArray n r.2 ops
    (r.1 :: rest.1, rest.2)

def ClusterOp.WellFormed (M : ArrayDevice D) : ClusterOp → Prop
  | .readBlock _ => True
  | .writeBlock _ _ _ => True
  | .readBlocks vbids => vbids.Pairwise (· < ·) ∧ ∀ k ≤ vbids.length, M.Fits k
  | .writeBlocks blks => (blks.map Prod.fst).Pairwise (· < ·) ∧ ∀ k ≤ blks.length, M.Fits k

def Cluster.contents (M : ArrayDevice D) (c : Cluster D) (addr : UInt64) : Block :=
  match c.getPhyBlockAddr M.toDeviceOps addr with
  | .ok (_, dev, pbid) => M.contents dev pbid
  | .error _ => Buf.fill 0 blkSz

section Runs

variable {M : ArrayDevice D} {n : ℕ} {c : Cluster D} {arr : UInt64 → Block}

lemma exec_onArray (h : Represents M n c arr) {op : ClusterOp} (hwf : op.WellFormed M) :
    (op.exec M.toDeviceOps c).1.toOption = (op.onArray n arr).1 ∧
      Represents M n (op.exec M.toDeviceOps c).2 (op.onArray n arr).2 := by
  cases op with
  | readBlock vbid =>
    rw [ClusterOp.onArray]
    split_ifs with hlt
    · obtain ⟨c', hread, h'⟩ := readBlock_of_lt h hlt
      simp only [ClusterOp.exec, hread]
      exact ⟨rfl, h'⟩
    · simp only [ClusterOp.exec, Cluster.readBlock, h.refused hlt]
      exact ⟨rfl, h⟩
  | writeBlock vbid blk flags =>
    rw [ClusterOp.onArray]
    split_ifs with hlt
    · obtain ⟨c', hwrite, h'⟩ := writeBlock_of_lt h hlt blk flags
      simp only [ClusterOp.exec, hwrite]
      exact ⟨rfl, h'⟩
    · simp only [ClusterOp.exec, Cluster.writeBlock, h.refused hlt]
      exact ⟨rfl, h⟩
  | readBlocks vbids =>
    rw [ClusterOp.onArray]
    split_ifs with hlt
    · obtain ⟨c', hread, h'⟩ := readBlocks_of_lt h hlt hwf.1 hwf.2
      simp only [ClusterOp.exec, hread]
      exact ⟨rfl, h'⟩
    · push Not at hlt
      obtain ⟨vbid, hmem, hge⟩ := hlt
      obtain ⟨e, hmap⟩ := exists_mapM_error (f := c.getPhyBlockAddr M.toDeviceOps) hmem
        (h.ne_ok hge)
      simp only [ClusterOp.exec, Cluster.readBlocks, hmap]
      exact ⟨rfl, h⟩
  | writeBlocks blks =>
    rw [ClusterOp.onArray]
    split_ifs with hlt
    · obtain ⟨c', hwrite, h'⟩ := writeBlocks_of_lt h hlt hwf.1 hwf.2
      simp only [ClusterOp.exec, hwrite]
      exact ⟨rfl, h'⟩
    · push Not at hlt
      obtain ⟨vbid, hmem, hge⟩ := hlt
      obtain ⟨b, hb, rfl⟩ := List.mem_map.mp hmem
      obtain ⟨e, hmap⟩ := exists_mapM_error (f := fun b : UInt64 × Block =>
          c.getPhyBlockAddr M.toDeviceOps b.1) hb (h.ne_ok hge)
      simp only [ClusterOp.exec, Cluster.writeBlocks, hmap]
      exact ⟨rfl, h⟩

lemma runCluster_onArray (h : Represents M n c arr) {ops : List ClusterOp}
    (hwf : ∀ op ∈ ops, op.WellFormed M) :
    (runCluster M.toDeviceOps c ops).1.map Except.toOption = (runArray n arr ops).1 ∧
      Represents M n (runCluster M.toDeviceOps c ops).2 (runArray n arr ops).2 := by
  induction ops generalizing c arr with
  | nil => exact ⟨rfl, h⟩
  | cons op ops ih =>
    obtain ⟨hres, h'⟩ := exec_onArray h (hwf op List.mem_cons_self)
    obtain ⟨hrest, hend⟩ := ih h' fun op hop => hwf op (List.mem_cons_of_mem _ hop)
    exact ⟨by rw [runCluster, runArray, List.map_cons, hres, hrest], hend⟩

lemma foldlM_addBlockDevice {M : DeviceOps D} {manifest : List D} {c c' : Cluster D}
    (hmax : c.maxBlockID.toNat = (sizes M c.devices).sum)
    (hadd : manifest.foldlM (Cluster.addBlockDevice M) c = some c') :
    c'.devices = c.devices ++ manifest ∧ c'.maxBlockID.toNat = (sizes M c'.devices).sum := by
  induction manifest generalizing c with
  | nil =>
    cases hadd
    exact ⟨(List.append_nil _).symm, hmax⟩
  | cons dev manifest ih =>
    rw [List.foldlM_cons, Option.bind_eq_bind, Option.bind_eq_some_iff] at hadd
    obtain ⟨c₁, hc₁, hrest⟩ := hadd
    unfold Cluster.addBlockDevice at hc₁
    split_ifs at hc₁ with hfit
    cases hc₁
    have hlt : c.maxBlockID.toNat + (M.numBlocks dev).toNat < 2^64 := by
      unfold allocEntrySize at hfit
      omega
    obtain ⟨hdevs, hmax'⟩ := ih (by
      rw [UInt64.toNat_add, Nat.mod_eq_of_lt hlt, hmax]
      simp [sizes]) hrest
    exact ⟨by rw [hdevs, List.append_assoc, List.singleton_append], hmax'⟩

lemma represents_contents {manifest : List D}
    (hinit : Cluster.clusterInitialize M.toDeviceOps manifest = some c)
    (hready : ∀ dev ∈ manifest, M.Ready dev) :
    Represents M (sizes M.toDeviceOps manifest).sum c (c.contents M) := by
  obtain ⟨hdevs, hmax⟩ := foldlM_addBlockDevice rfl hinit
  obtain rfl : c.devices = manifest := hdevs
  refine ⟨rfl, hmax ▸ c.maxBlockID.toNat_lt, hready, ?_⟩
  intro addr i dev pbid haddr
  rw [Cluster.contents, haddr]

section Example

def diskAndRemote : List BlockDevice :=
  [.disk ⟨1, ⟨1, fun _ => Buf.fill 0 blkSz⟩⟩, .remote (RemoteLink.connect seqKey zeroIvs sevens)]

lemma diskAndRemote_numBlocks :
    diskAndRemote.map (BlockDevice.ops seqKey zeroIvs).numBlocks = [1, 2] := by
  have hremote := RemoteLink.connect_numBlocks zeroIvs seqKey_committing.correct
    (show sevens.sendSeq = 0 from rfl) rfl
  simp only [diskAndRemote, List.map_cons, List.map_nil, BlockDevice.ops, BlockDevice.numBlocks,
    hremote]
  rfl

lemma diskAndRemote_init :
    Cluster.clusterInitialize (BlockDevice.ops seqKey zeroIvs) diskAndRemote =
      some ⟨diskAndRemote, 3⟩ := by
  have hnum := diskAndRemote_numBlocks
  simp only [diskAndRemote, List.map_cons, List.map_nil, List.cons.injEq, and_true] at hnum
  simp only [Cluster.clusterInitialize, diskAndRemote, List.foldlM_cons, List.foldlM_nil,
    Cluster.addBlockDevice, hnum.1, hnum.2]
  rfl

lemma diskAndRemote_ready : ∀ dev ∈ diskAndRemote, dev.Ready := by
  intro dev hdev
  simp only [diskAndRemote, List.mem_cons, List.not_mem_nil, or_false] at hdev
  obtain rfl | rfl := hdev
  · trivial
  · exact BlockDevice.ready_connect zeroIvs seqKey_committing.correct rfl rfl

lemma diskAndRemote_size : (sizes (BlockDevice.ops seqKey zeroIvs) diskAndRemote).sum = 3 := by
  have hnum := congrArg (fun l => (l.map UInt64.toNat).sum) diskAndRemote_numBlocks
  rw [List.map_map] at hnum
  exact hnum

end Example

end Runs

end Bfs.Blk
