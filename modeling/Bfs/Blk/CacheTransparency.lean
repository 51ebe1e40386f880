import Bfs.Blk.ClusterArray
import Bfs.Blk.CachedCluster
import Bfs.Utils.LruLaw

/-! With the block cache each read returns what it returns without it, as long as synchronous writes
go to devices that leave the buffer of a block as it is, and as long as the queue of the cache is kept
in order. A remote device receives its response into the buffer of the cached block. -/
namespace Bfs.Blk
open ByteSeq Concat Bfs.Device Bfs.Utils
open Bfs.Fs (Block blkSz Iv)

variable {D : Type*}

structure Keeping (M : DeviceOps D) where
  Keeps : D → Prop
  getBlock_keeps : ∀ dev pbid, Keeps dev → Keeps (M.getBlock dev pbid).2
  putBlock_keeps : ∀ dev pbid buf, Keeps dev → Keeps (M.putBlock dev pbid buf).2
  putBlock_buf : ∀ dev pbid buf buf' dev', Keeps dev → M.putBlock dev pbid buf = (.ok buf', dev') →
    buf' = buf

/-- The cluster has `dsk` on devices of sizes `ns`, and the devices with an index in `kept` leave
buffers as they are. -/
structure Backed {M : ArrayDevice D} (K : Keeping M.toDeviceOps) (ns : List ℕ) (kept : Set ℕ)
    (c : Cluster D) (dsk : UInt64 → Block) : Prop where
  represents : Represents M ns.sum c dsk
  sizes_eq : sizes M.toDeviceOps c.devices = ns
  keeps : ∀ i ∈ kept, ∀ dev, c.devices[i]? = some dev → K.Keeps dev

/-- The blocks of the cache entries `l`, in front of the blocks `dsk` on the devices, are the array
`arr`. -/
structure Coherent {M : ArrayDevice D} (K : Keeping M.toDeviceOps) (ns : List ℕ) (kept : Set ℕ)
    (s : CachedCluster D) (l : List (UInt64 × ℕ)) (dsk arr : UInt64 → Block) : Prop where
  backed : Backed K ns kept s.cluster dsk
  cached : ∀ vbid a, (vbid, a) ∈ l → ∃ pblk, s.blocks a = some pblk ∧
    pblk.buf = (arr vbid).toList ∧ locate ns vbid.toNat = some (pblk.rd, pblk.pbid.toNat) ∧
    (pblk.dirty = false → dsk vbid = arr vbid)
  uncached : ∀ vbid, vbid ∉ l.map Prod.fst → dsk vbid = arr vbid
  keys : (l.map Prod.fst).Nodup
  addrs : (l.map Prod.snd).Nodup
  lt_fresh : ∀ a ∈ l.map Prod.snd, a < s.fresh

variable {M : ArrayDevice D} {K : Keeping M.toDeviceOps} {ns : List ℕ} {kept : Set ℕ}

namespace Backed

variable {c : Cluster D} {dsk : UInt64 → Block} {vbid pbid : UInt64} {i : ℕ} {dev dev' : D}

lemma getPhyBlockAddr_iff (h : Backed K ns kept c dsk) :
    c.getPhyBlockAddr M.toDeviceOps vbid = .ok (i, dev, pbid) ↔
      c.devices[i]? = some dev ∧ locate ns vbid.toNat = some (i, pbid.toNat) := by
  rw [getPhyBlockAddr_eq_ok_iff h.represents.lt, h.sizes_eq]

lemma keeps_setDevice (h : Backed K ns kept c dsk) (hdev : c.devices[i]? = some dev)
    (hkeeps : K.Keeps dev → K.Keeps dev') :
    ∀ j ∈ kept, ∀ d, (c.setDevice i dev').devices[j]? = some d → K.Keeps d := by
  intro j hj d hd
  by_cases hij : j = i
  · subst j
    rw [Cluster.setDevice, List.getElem?_set_self (List.getElem?_eq_some_iff.mp hdev).1] at hd
    cases hd
    exact hkeeps (h.keeps i hj dev hdev)
  · rw [Cluster.setDevice, List.getElem?_set_ne (Ne.symm hij)] at hd
    exact h.keeps j hj d hd

lemma getBlock (h : Backed K ns kept c dsk)
    (haddr : c.getPhyBlockAddr M.toDeviceOps vbid = .ok (i, dev, pbid)) :
    ∃ dev', M.getBlock dev pbid = (.ok (dsk vbid), dev') ∧
      Backed K ns kept (c.setDevice i dev') dsk := by
  have hdev := (h.getPhyBlockAddr_iff.mp haddr).1
  obtain ⟨dev', hget, hnum, hrep⟩ := h.represents.getBlock haddr
  refine ⟨dev', hget, hrep, (sizes_setDevice hdev hnum).trans h.sizes_eq,
    h.keeps_setDevice hdev ?_⟩
  intro hk
  have := K.getBlock_keeps dev pbid hk
  rwa [hget] at this

lemma putBlock (h : Backed K ns kept c dsk)
    (haddr : c.getPhyBlockAddr M.toDeviceOps vbid = .ok (i, dev, pbid)) (blk : Block) :
    ∃ buf dev', M.putBlock dev pbid blk.toList = (.ok buf, dev') ∧
      Backed K ns kept (c.setDevice i dev') (Function.update dsk vbid blk) ∧
      (i ∈ kept → buf = blk.toList) := by
  have hdev := (h.getPhyBlockAddr_iff.mp haddr).1
  obtain ⟨buf, dev', hput, hnum, hrep⟩ := h.represents.putBlock haddr blk
  refine ⟨buf, dev', hput, ⟨hrep, (sizes_setDevice hdev hnum).trans h.sizes_eq,
    h.keeps_setDevice hdev ?_⟩, ?_⟩
  · intro hk
    have := K.putBlock_keeps dev pbid blk.toList hk
    rwa [hput] at this
  · intro hi
    exact K.putBlock_buf dev pbid _ buf dev' (h.keeps i hi dev hdev) hput

end Backed

namespace Coherent

variable {s : CachedCluster D} {l lb lc : List (UInt64 × ℕ)} {dsk arr : UInt64 → Block}
  {vbid pbid : UInt64} {a i : ℕ}

lemma getPhyBlockAddr (h : Coherent K ns kept s l dsk arr)
    (hloc : locate ns vbid.toNat = some (i, pbid.toNat)) :
    ∃ dev, s.cluster.devices[i]? = some dev ∧
      s.cluster.getPhyBlockAddr M.toDeviceOps vbid = .ok (i, dev, pbid) := by
  obtain ⟨n, hn, -⟩ := locate_eq_some_iff.mp hloc
  rw [← h.backed.sizes_eq, sizes, List.getElem?_map, Option.map_eq_some_iff] at hn
  obtain ⟨dev, hdev, -⟩ := hn
  exact ⟨dev, hdev, h.backed.getPhyBlockAddr_iff.mpr ⟨hdev, hloc⟩⟩

lemma put (h : Coherent K ns kept s l dsk arr) (hmem : (vbid, a) ∈ l) :
    ∃ pblk buf c, s.blocks a = some pblk ∧ pblk.buf = (arr vbid).toList ∧
      locate ns vbid.toNat = some (pblk.rd, pblk.pbid.toNat) ∧
      s.put M.toDeviceOps a = (.ok (), { s with
        cluster := c, blocks := Function.update s.blocks a (some { pblk with buf }) }) ∧
      Backed K ns kept c (Function.update dsk vbid (arr vbid)) ∧
      (pblk.rd ∈ kept → buf = pblk.buf) := by
  obtain ⟨pblk, hpblk, hbuf, hloc, -⟩ := h.cached vbid a hmem
  obtain ⟨dev, hdev, haddr⟩ := h.getPhyBlockAddr hloc
  obtain ⟨buf, dev', hput, hbacked, hkept⟩ := h.backed.putBlock haddr (arr vbid)
  rw [← hbuf] at hput hkept
  refine ⟨pblk, buf, s.cluster.setDevice pblk.rd dev', hpblk, hbuf, hloc, ?_, hbacked, hkept⟩
  simp only [CachedCluster.put, hpblk, hdev, hput]

lemma drop (h : Coherent K ns kept s (lb ++ (vbid, a) :: lc) dsk arr) {s' : CachedCluster D}
    {dsk' : UInt64 → Block} (hbacked : Backed K ns kept s'.cluster dsk')
    (hblocks : ∀ x ≠ a, s'.blocks x = s.blocks x) (hfresh : s'.fresh = s.fresh)
    (hdsk : dsk' vbid = arr vbid) (hother : ∀ v ≠ vbid, dsk' v = dsk v) :
    Coherent K ns kept s' (lb ++ lc) dsk' arr := by
  have hkeys := h.keys
  have haddrs := h.addrs
  rw [List.map_append, List.map_cons, List.nodup_middle, List.nodup_cons, ← List.map_append]
    at hkeys haddrs
  have hsub : ∀ e ∈ lb ++ lc, e ∈ lb ++ (vbid, a) :: lc := by
    intro e he
    rw [List.mem_append] at he
    rw [List.mem_append, List.mem_cons]
    tauto
  refine ⟨hbacked, ?_, ?_, hkeys.2, haddrs.2, ?_⟩
  · intro v x hmem
    have hv : v ≠ vbid := by
      rintro rfl
      exact hkeys.1 (List.mem_map.mpr ⟨_, hmem, rfl⟩)
    have hx : x ≠ a := by
      rintro rfl
      exact haddrs.1 (List.mem_map.mpr ⟨_, hmem, rfl⟩)
    obtain ⟨pblk, hpblk, hrest⟩ := h.cached v x (hsub _ hmem)
    rw [hblocks x hx, hother v hv]
    exact ⟨pblk, hpblk, hrest⟩
  · intro v hv
    by_cases hvv : v = vbid
    · rw [hvv, hdsk]
    · rw [hother v hvv]
      apply h.uncached
      rw [List.map_append, List.map_cons, List.mem_append, List.mem_cons]
      rw [List.map_append, List.mem_append] at hv
      tauto
  · intro x hx
    obtain ⟨e, he, rfl⟩ := List.mem_map.mp hx
    rw [hfresh]
    exact h.lt_fresh _ (List.mem_map_of_mem (hsub e he))

lemma flushBlk (h : Coherent K ns kept s (lb ++ (vbid, a) :: lc) dsk arr) :
    ∃ s' dsk', s.flushBlk M.toDeviceOps a = (.ok (), s') ∧
      Coherent K ns kept (s'.delete a) (lb ++ lc) dsk' arr ∧ s'.blkCache = s.blkCache ∧
      s'.fresh = s.fresh ∧ ∀ x ≠ a, (s'.delete a).blocks x = s.blocks x := by
  have hmem : (vbid, a) ∈ lb ++ (vbid, a) :: lc := by simp
  obtain ⟨pblk, hpblk, -, -, hclean⟩ := h.cached vbid a hmem
  cases hd : pblk.dirty with
  | false =>
    have hblocks : ∀ x ≠ a, (s.delete a).blocks x = s.blocks x := fun x hx =>
      Function.update_of_ne hx _ _
    refine ⟨s, dsk, ?_, ?_, rfl, rfl, hblocks⟩
    · simp only [CachedCluster.flushBlk, hpblk, hd, Bool.false_eq_true, if_false]
    · exact h.drop h.backed hblocks rfl (hclean hd) fun _ _ => rfl
  | true =>
    obtain ⟨pblk', buf, c, hpblk', -, -, hput, hbacked, -⟩ := h.put hmem
    have hblocks : ∀ x ≠ a,
        Function.update (Function.update s.blocks a (some { pblk' with buf })) a none x =
          s.blocks x := fun x hx => by
      rw [Function.update_of_ne hx, Function.update_of_ne hx]
    refine ⟨{ s with
        cluster := c, blocks := Function.update s.blocks a (some { pblk' with buf }) },
      Function.update dsk vbid (arr vbid), ?_, ?_, rfl, rfl, hblocks⟩
    · simp only [CachedCluster.flushBlk, hpblk, hd, if_true, hput]
    · exact h.drop hbacked hblocks rfl (Function.update_self ..) fun v hv =>
        Function.update_of_ne hv _ _

lemma with_blkCache (h : Coherent K ns kept s l dsk arr) (blkCache : BfsCache UInt64 ℕ) :
    Coherent K ns kept { s with blkCache } l dsk arr :=
  ⟨h.backed, h.cached, h.uncached, h.keys, h.addrs, h.lt_fresh⟩

lemma fresh_notMem (h : Coherent K ns kept s l dsk arr) : s.fresh ∉ l.map Prod.snd :=
  fun hmem => lt_irrefl _ (h.lt_fresh _ hmem)

lemma alloc (h : Coherent K ns kept s l dsk arr) (pblk : PBfsBlock) :
    Coherent K ns kept (s.alloc pblk) l dsk arr := by
  refine ⟨h.backed, ?_, h.uncached, h.keys, h.addrs, ?_⟩
  · intro v x hmem
    have hx : x ≠ s.fresh := by
      rintro rfl
      exact h.fresh_notMem (List.mem_map.mpr ⟨_, hmem, rfl⟩)
    obtain ⟨pblk', hpblk', hrest⟩ := h.cached v x hmem
    exact ⟨pblk', (Function.update_of_ne hx _ _).trans hpblk', hrest⟩
  · exact fun x hx => (h.lt_fresh x hx).trans (Nat.lt_succ_self _)

lemma add (h : Coherent K ns kept s l dsk arr) {blk : Block} {dirty : Bool}
    (hblk : s.blocks a = some ⟨blk.toList, pbid, i, dirty⟩) (hlt : a < s.fresh)
    (hloc : locate ns vbid.toNat = some (i, pbid.toNat)) (hv : vbid ∉ l.map Prod.fst)
    (ha : a ∉ l.map Prod.snd) (hclean : dirty = false → blk = arr vbid) :
    Coherent K ns kept s (l ++ [(vbid, a)]) dsk (Function.update arr vbid blk) := by
  refine ⟨h.backed, ?_, ?_, ?_, ?_, ?_⟩
  · intro v x hmem
    rw [List.mem_append, List.mem_singleton] at hmem
    obtain hmem | hmem := hmem
    · have hne : v ≠ vbid := by
        rintro rfl
        exact hv (List.mem_map.mpr ⟨_, hmem, rfl⟩)
      rw [Function.update_of_ne hne]
      exact h.cached v x hmem
    · cases hmem
      refine ⟨_, hblk, ?_, hloc, ?_⟩
      · rw [Function.update_self]
      · intro hd
        rw [Function.update_self, hclean hd, h.uncached _ hv]
  · intro v hmem
    rw [List.map_append, List.mem_append, not_or] at hmem
    have hne : v ≠ vbid := by simpa using hmem.2
    rw [Function.update_of_ne hne, h.uncached v hmem.1]
  · rw [List.map_append, List.nodup_append]
    refine ⟨h.keys, List.nodup_singleton _, ?_⟩
    rintro v hmem w hw rfl
    rw [List.map_singleton, List.mem_singleton] at hw
    subst hw
    exact hv hmem
  · rw [List.map_append, List.nodup_append]
    refine ⟨h.addrs, List.nodup_singleton _, ?_⟩
    rintro x hmem y hy rfl
    rw [List.map_singleton, List.mem_singleton] at hy
    subst hy
    exact ha hmem
  · intro x hx
    rw [List.map_append, List.mem_append, List.map_singleton, List.mem_singleton] at hx
    obtain hx | rfl := hx
    · exact h.lt_fresh x hx
    · exact hlt

end Coherent

section Insert

variable {s : CachedCluster D} {as : List ℕ} {l : List (UInt64 × ℕ)} {dsk arr : UInt64 → Block}
  {vbid pbid : UInt64} {a i : ℕ}

lemma insert_lru {maxsz : ℕ} (hcap : 1 ≤ maxsz) (hkeys : (l.map Prod.fst).Nodup) (vbid : UInt64)
    (a : ℕ) :
    let r := (CacheOp.insert vbid a).lru maxsz l
    (r = (some a, l ++ [(vbid, a)]) ∧ vbid ∉ l.map Prod.fst) ∨
    ∃ lb v x lc, l = lb ++ (v, x) :: lc ∧ r = (some x, lb ++ lc ++ [(vbid, a)]) ∧
      vbid ∉ (lb ++ lc).map Prod.fst := by
  intro r
  cases hfind : l.find? (·.1 = vbid) with
  | some old =>
    right
    obtain ⟨v, x⟩ := old
    obtain rfl : v = vbid := by simpa using List.find?_some hfind
    obtain ⟨lb, lc, rfl⟩ := List.append_of_mem (List.mem_of_find?_eq_some hfind)
    rw [List.map_append, List.map_cons, List.nodup_middle, List.nodup_cons, ← List.map_append]
      at hkeys
    refine ⟨lb, v, x, lc, rfl, ?_, hkeys.1⟩
    have hne : ∀ e ∈ lb ++ lc, e.1 ≠ v := by
      rintro e he rfl
      exact hkeys.1 (List.mem_map.mpr ⟨e, he, rfl⟩)
    have hfilter : (lb ++ (v, x) :: lc).filter (·.1 ≠ v) = lb ++ lc :=
      filter_keyed (fun e he => hne e (List.mem_append_left _ he))
        fun e he => hne e (List.mem_append_right _ he)
    simp only [r, CacheOp.lru, hfind, hfilter]
  | none =>
    have hv : vbid ∉ l.map Prod.fst := by
      intro hmem
      obtain ⟨e, he, rfl⟩ := List.mem_map.mp hmem
      simpa using List.find?_eq_none.mp hfind e he
    by_cases hroom : l.length < maxsz
    · left
      exact ⟨by simp only [r, CacheOp.lru, hfind, if_pos hroom], hv⟩
    · right
      cases l with
      | nil => exact absurd hcap (by simpa using hroom)
      | cons e l =>
        obtain ⟨v, x⟩ := e
        refine ⟨[], v, x, l, rfl, ?_, ?_⟩
        · simp only [r, CacheOp.lru, hfind, if_neg hroom, List.head?_cons, Option.map_some,
            List.tail_cons, List.nil_append]
        · exact fun hmem => hv (List.mem_cons_of_mem _ hmem)

lemma eq_ok_of_map {c c' : BfsCache UInt64 ℕ} {x : ℕ}
    (hins : (c.insertCache vbid a).map (fun r => (some r.1, r.2)) = .ok (some x, c')) :
    c.insertCache vbid a = .ok (x, c') := by
  obtain ⟨r, hr, he⟩ := Fallible.map_eq_ok.mp hins
  simp only [Prod.mk.injEq, Option.some.injEq] at he
  rw [hr, ← he.1, ← he.2]

lemma Coherent.insertBlk (h : Coherent K ns kept s l dsk arr) (vbid : UInt64)
    (hg : s.blkCache.Good as l) (hcap : 1 ≤ s.blkCache.maxsize) {blk : Block} {dirty : Bool}
    (hblk : s.blocks a = some ⟨blk.toList, pbid, i, dirty⟩) (hlt : a < s.fresh)
    (hloc : locate ns vbid.toNat = some (i, pbid.toNat)) (ha : a ∉ l.map Prod.snd)
    (hclean : dirty = false → blk = arr vbid)
    (hsafe : ¬ ((CacheOp.insert vbid a).unlinksFirst s.blkCache ∧ s.blkCache.Stale)) :
    ∃ s' as' l' dsk', s.insertBlk M.toDeviceOps vbid a = (.ok (), s') ∧
      s'.blkCache.Good as' l' ∧ s'.blkCache.maxsize = s.blkCache.maxsize ∧
      Coherent K ns kept s' l' dsk' (Function.update arr vbid blk) ∧ (vbid, a) ∈ l' ∧
      s'.blocks a = s.blocks a := by
  obtain ⟨c', as', hins, hg', hmax⟩ := hg.insertCache hcap vbid a hsafe
  obtain ⟨hlru, hv⟩ | ⟨lb, v, x, lc, rfl, hlru, hv⟩ := insert_lru hcap h.keys vbid a
  · rw [hlru] at hins hg'
    have hcache := eq_ok_of_map hins
    refine ⟨{ s with blkCache := c' }, as', _, dsk, ?_, hg', hmax,
      (h.with_blkCache c').add hblk hlt hloc hv ha hclean, by simp, rfl⟩
    simp only [CachedCluster.insertBlk, hcache, if_true]
  · rw [hlru] at hins hg'
    have hcache := eq_ok_of_map hins
    have hxa : x ≠ a := by
      rintro rfl
      exact ha (by simp)
    obtain ⟨s', dsk', hflush, h', hc', hfresh, hblocks⟩ := (h.with_blkCache c').flushBlk
    refine ⟨s'.delete x, as', _, dsk', ?_, hc' ▸ hg', hc' ▸ hmax,
      h'.add ((hblocks a hxa.symm).trans hblk) (hfresh.symm ▸ hlt) hloc hv ?_ hclean, by simp,
      hblocks a hxa.symm⟩
    · simp only [CachedCluster.insertBlk, hcache, if_neg hxa, hflush]
    · intro hmem
      obtain ⟨e, he, rfl⟩ := List.mem_map.mp hmem
      refine ha (List.mem_map.mpr ⟨e, ?_, rfl⟩)
      rw [List.mem_append] at he ⊢
      exact he.imp_right (List.mem_cons_of_mem _)

lemma Coherent.written (h : Coherent K ns kept s l dsk arr) {c : Cluster D}
    (hmem : (vbid, a) ∈ l)
    (hbacked : Backed K ns kept c (Function.update dsk vbid (arr vbid))) :
    Coherent K ns kept { s with cluster := c } l (Function.update dsk vbid (arr vbid)) arr := by
  refine ⟨hbacked, ?_, ?_, h.keys, h.addrs, h.lt_fresh⟩
  · intro v x hx
    obtain ⟨pblk, hpblk, hbuf, hloc, hclean⟩ := h.cached v x hx
    refine ⟨pblk, hpblk, hbuf, hloc, ?_⟩
    intro hd
    by_cases hv : v = vbid
    · rw [hv, Function.update_self]
    · rw [Function.update_of_ne hv, hclean hd]
  · intro v hv
    rw [Function.update_of_ne, h.uncached v hv]
    rintro rfl
    exact hv (List.mem_map.mpr ⟨_, hmem, rfl⟩)

end Insert

/-- The cluster and its cache for `maxsz` blocks store the array. -/
def Transparent {M : ArrayDevice D} (K : Keeping M.toDeviceOps) (ns : List ℕ) (kept : Set ℕ)
    (maxsz : ℕ) (s : CachedCluster D) (arr : UInt64 → Block) : Prop :=
  1 ≤ maxsz ∧ ∃ as l dsk, s.blkCache.Good as l ∧ s.blkCache.maxsize = maxsz ∧
    Coherent K ns kept s l dsk arr

section Calls

variable {s : CachedCluster D} {arr : UInt64 → Block} {vbid : UInt64} {maxsz : ℕ}

lemma Transparent.refused (h : Transparent K ns kept maxsz s arr) (hge : ¬ vbid.toNat < ns.sum) :
    s.cluster.getPhyBlockAddr M.toDeviceOps vbid = .error (.unmappable vbid) := by
  obtain ⟨-, _, _, _, -, -, hc⟩ := h
  exact hc.backed.represents.refused hge

lemma Transparent.readBlock (h : Transparent K ns kept maxsz s arr) (hlt : vbid.toNat < ns.sum)
    (hsafe : s.blkCache.find vbid = none →
      ¬ ((CacheOp.insert vbid s.fresh).unlinksFirst s.blkCache ∧ s.blkCache.Stale)) :
    ∃ s', s.readBlock M.toDeviceOps vbid = (.ok (arr vbid).toList, s') ∧
      Transparent K ns kept maxsz s' arr := by
  obtain ⟨hcap, as, l, dsk, hg, rfl, hc⟩ := h
  obtain ⟨i, dev, pbid, haddr, -⟩ := hc.backed.represents.located hlt
  cases hf : s.blkCache.find vbid with
  | some x =>
    rw [hg.find_eq] at hf
    obtain ⟨_, _, lb, lc, a, -, rfl, hent, -⟩ := hg.locate hf
    have hcheck : s.blkCache.checkCache vbid false = .ok (some a, s.blkCache) := by
      simp [BfsCache.checkCache, hg.find_eq, hf, hent]
    obtain ⟨pblk, hpblk, hbuf, -⟩ := hc.cached vbid a (by simp)
    refine ⟨s, ?_, hcap, as, _, dsk, hg, rfl, hc⟩
    simp only [CachedCluster.readBlock, haddr, hcheck, CachedCluster.data, hpblk, hbuf]
  | none =>
    have hcheck : s.blkCache.checkCache vbid false = .ok (none, s.blkCache) := by
      simp [BfsCache.checkCache, hf]
    have hv : vbid ∉ l.map Prod.fst := by
      intro hmem
      obtain ⟨e, he, rfl⟩ := List.mem_map.mp hmem
      exact hg.key_ne_of_absent (hg.find_eq e.1 ▸ hf) e he rfl
    obtain ⟨dev', hget, hbacked⟩ := hc.backed.getBlock haddr
    have hc₁ : Coherent K ns kept { s with cluster := s.cluster.setDevice i dev' } l dsk arr :=
      ⟨hbacked, hc.cached, hc.uncached, hc.keys, hc.addrs, hc.lt_fresh⟩
    obtain ⟨s', as', l', dsk', hins, hg', hmax, hc', -, hblk⟩ :=
      (hc₁.alloc ⟨(dsk vbid).toList, pbid, i, false⟩).insertBlk vbid hg hcap
        (Function.update_self ..) (Nat.lt_succ_self _)
        (hc.backed.getPhyBlockAddr_iff.mp haddr).2 hc.fresh_notMem
        (fun _ => hc.uncached vbid hv) (hsafe hf)
    rw [hc.uncached vbid hv, Function.update_eq_self] at hc'
    refine ⟨s', ?_, hcap, as', l', dsk', hg', hmax, hc'⟩
    have hdata : s'.data s.fresh = .ok (arr vbid).toList := by
      rw [CachedCluster.data, hblk, CachedCluster.alloc, hc.uncached vbid hv]
      simp only [Function.update_self]
    simp only [CachedCluster.readBlock, haddr, hcheck, hget]
    rw [hins]
    simp only [hdata]

lemma Transparent.writeBlock (h : Transparent K ns kept maxsz s arr) (hlt : vbid.toNat < ns.sum)
    (blk : Block) {flags : UInt32}
    (hsafe : ¬ ((CacheOp.insert vbid s.fresh).unlinksFirst s.blkCache ∧ s.blkCache.Stale))
    (hsync : flags &&& oSync ≠ 0 → ∀ i p, locate ns vbid.toNat = some (i, p) → i ∈ kept) :
    ∃ s', s.writeBlock M.toDeviceOps vbid blk flags = (.ok (), s') ∧
      Transparent K ns kept maxsz s' (Function.update arr vbid blk) := by
  obtain ⟨hcap, as, l, dsk, hg, rfl, hc⟩ := h
  obtain ⟨i, dev, pbid, haddr, -⟩ := hc.backed.represents.located hlt
  have hloc := (hc.backed.getPhyBlockAddr_iff.mp haddr).2
  obtain ⟨s', as', l', dsk', hins, hg', hmax, hc', hmem, hblk⟩ :=
    (hc.alloc ⟨blk.toList, pbid, i, true⟩).insertBlk vbid hg hcap
      (Function.update_self ..) (Nat.lt_succ_self _) hloc hc.fresh_notMem
      (fun hd => absurd hd (by decide)) hsafe
  simp only [CachedCluster.writeBlock, haddr]
  rw [hins]
  by_cases hflag : flags &&& oSync ≠ 0
  · obtain ⟨pblk, buf, c, hpblk, -, hrd, hput, hbacked, hkept⟩ := hc'.put hmem
    obtain rfl : buf = pblk.buf := hkept (hsync hflag _ _ hrd)
    rw [← hpblk, Function.update_eq_self] at hput
    refine ⟨{ s' with cluster := c }, ?_, hcap, as', l', _, hg', hmax, hc'.written hmem hbacked⟩
    simp only [if_pos hflag, hput]
  · exact ⟨s', by simp only [if_neg hflag], hcap, as', l', dsk', hg', hmax, hc'⟩

end Calls

/-! ## Runs -/

def BlkOp.unlinksStale (M : DeviceOps D) (s : CachedCluster D) : BlkOp → Prop
  | .readBlock vbid => (∃ r, s.cluster.getPhyBlockAddr M vbid = .ok r) ∧
      s.blkCache.find vbid = none ∧
      (CacheOp.insert vbid s.fresh).unlinksFirst s.blkCache ∧ s.blkCache.Stale
  | .writeBlock vbid _ _ => (∃ r, s.cluster.getPhyBlockAddr M vbid = .ok r) ∧
      (CacheOp.insert vbid s.fresh).unlinksFirst s.blkCache ∧ s.blkCache.Stale

def NeverUnlinksStale (M : DeviceOps D) : CachedCluster D → List BlkOp → Prop
  | _, [] => True
  | s, op :: ops => ¬ op.unlinksStale M s ∧ NeverUnlinksStale M (op.exec M s).2 ops

def BlkOp.SyncKeeps {M : DeviceOps D} (K : Keeping M) (c : Cluster D) : BlkOp → Prop
  | .readBlock _ => True
  | .writeBlock vbid _ flags => flags &&& oSync ≠ 0 → ∀ i dev pbid,
      c.getPhyBlockAddr M vbid = .ok (i, dev, pbid) → K.Keeps dev

def ClusterResult.bytes (r : ClusterResult) : List (UInt64 × List UInt8) :=
  r.map fun b => (b.1, b.2.toList)

section Runs

variable {s : CachedCluster D} {arr : UInt64 → Block} {maxsz : ℕ}

lemma Transparent.exec (h : Transparent K ns kept maxsz s arr) {op : BlkOp} (hsafe : ¬ op.unlinksStale M.toDeviceOps s)
    (hsync : ∀ vbid blk flags, op = .writeBlock vbid blk flags → flags &&& oSync ≠ 0 →
      ∀ i p, locate ns vbid.toNat = some (i, p) → i ∈ kept) :
    (op.exec M.toDeviceOps s).1.toOption =
        (op.uncached.onArray ns.sum arr).1.map ClusterResult.bytes ∧
      Transparent K ns kept maxsz (op.exec M.toDeviceOps s).2 (op.uncached.onArray ns.sum arr).2 := by
  have haddr : ∀ {vbid : UInt64}, vbid.toNat < ns.sum →
      ∃ r, s.cluster.getPhyBlockAddr M.toDeviceOps vbid = .ok r := by
    obtain ⟨-, _, _, _, -, -, hc⟩ := h
    intro vbid hlt
    obtain ⟨i, dev, pbid, haddr, -⟩ := hc.backed.represents.located hlt
    exact ⟨_, haddr⟩
  cases op with
  | readBlock vbid =>
    rw [BlkOp.uncached, ClusterOp.onArray]
    split_ifs with hlt
    · obtain ⟨s', hread, h'⟩ := h.readBlock hlt fun hf hun => hsafe ⟨haddr hlt, hf, hun⟩
      simp only [BlkOp.exec, hread]
      exact ⟨rfl, h'⟩
    · simp only [BlkOp.exec, CachedCluster.readBlock, h.refused hlt]
      exact ⟨rfl, h⟩
  | writeBlock vbid blk flags =>
    rw [BlkOp.uncached, ClusterOp.onArray]
    split_ifs with hlt
    · obtain ⟨s', hwrite, h'⟩ := h.writeBlock hlt blk (fun hun => hsafe ⟨haddr hlt, hun⟩)
        (hsync vbid blk flags rfl)
      simp only [BlkOp.exec, hwrite]
      exact ⟨rfl, h'⟩
    · simp only [BlkOp.exec, CachedCluster.writeBlock, h.refused hlt]
      exact ⟨rfl, h⟩

lemma Transparent.runCached {ops : List BlkOp} (h : Transparent K ns kept maxsz s arr)
    (hsafe : NeverUnlinksStale M.toDeviceOps s ops)
    (hsync : ∀ vbid blk flags, .writeBlock vbid blk flags ∈ ops → flags &&& oSync ≠ 0 →
      ∀ i p, locate ns vbid.toNat = some (i, p) → i ∈ kept) :
    (runCached M.toDeviceOps s ops).1.map Except.toOption =
      (runArray ns.sum arr (ops.map BlkOp.uncached)).1.map (Option.map ClusterResult.bytes) := by
  induction ops generalizing s arr with
  | nil => rfl
  | cons op ops ih =>
    obtain ⟨hres, h'⟩ := h.exec hsafe.1 fun vbid blk flags hop =>
      hsync vbid blk flags (hop ▸ List.mem_cons_self)
    have hrest := ih h' hsafe.2 fun vbid blk flags hmem =>
      hsync vbid blk flags (List.mem_cons_of_mem _ hmem)
    rw [Blk.runCached, List.map_cons, List.map_cons, runArray, List.map_cons, hres, hrest]

lemma transparent_init {manifest : List D} {c : Cluster D}
    (hinit : Cluster.clusterInitialize M.toDeviceOps manifest = some c)
    (hready : ∀ dev ∈ manifest, M.Ready dev) (hcap : 1 ≤ maxsz) :
    Transparent K (sizes M.toDeviceOps c.devices)
      {i | ∀ dev, c.devices[i]? = some dev → K.Keeps dev} maxsz (.init c maxsz) (c.contents M) := by
  have hrep := represents_contents hinit hready
  refine ⟨hcap, [], [], c.contents M, BfsCache.Good.init maxsz, rfl, ?_⟩
  refine ⟨⟨?_, rfl, fun i hi dev hdev => hi dev hdev⟩, by simp, by simp, by simp, by simp, by simp⟩
  rw [hrep.size]
  exact hrep

lemma mem_kept_of_syncKeeps {c : Cluster D}
    (hsum : (sizes M.toDeviceOps c.devices).sum < 2^64) {ops : List BlkOp}
    (hsync : ∀ op ∈ ops, op.SyncKeeps K c) {vbid : UInt64} {blk : Block} {flags : UInt32}
    (hmem : .writeBlock vbid blk flags ∈ ops) (hflag : flags &&& oSync ≠ 0) {i p : ℕ}
    (hloc : locate (sizes M.toDeviceOps c.devices) vbid.toNat = some (i, p)) :
    ∀ dev, c.devices[i]? = some dev → K.Keeps dev := by
  intro dev hdev
  have hp : (UInt64.ofNat p).toNat = p := by
    obtain ⟨n, -, -, hv⟩ := locate_eq_some_iff.mp hloc
    have := vbid.toNat_lt
    rw [UInt64.toNat_ofNat', Nat.mod_eq_of_lt (by omega)]
  exact hsync _ hmem hflag i dev (UInt64.ofNat p)
    ((getPhyBlockAddr_eq_ok_iff hsum).mpr ⟨hdev, hp.symm ▸ hloc⟩)

lemma runCluster_uncached {n : ℕ} {c : Cluster D} (hrep : Represents M n c arr)
    (ops : List BlkOp) :
    (runCluster M.toDeviceOps c (ops.map BlkOp.uncached)).1.map
        (fun r => r.toOption.map ClusterResult.bytes) =
      (runArray n arr (ops.map BlkOp.uncached)).1.map (Option.map ClusterResult.bytes) := by
  have hwf : ∀ op ∈ ops.map BlkOp.uncached, op.WellFormed M := by
    intro op hop
    obtain ⟨op, -, rfl⟩ := List.mem_map.mp hop
    cases op <;> trivial
  rw [← (runCluster_onArray hrep hwf).1, List.map_map]
  rfl

/-- Whatever the capacity of the cache, each call returns what it returns without the cache. -/
theorem cache_transparent (K : Keeping M.toDeviceOps) {manifest : List D} {c : Cluster D}
    (hinit : Cluster.clusterInitialize M.toDeviceOps manifest = some c)
    (hready : ∀ dev ∈ manifest, M.Ready dev) (hcap : 1 ≤ maxsz) (ops : List BlkOp)
    (hsync : ∀ op ∈ ops, op.SyncKeeps K c)
    (hsafe : NeverUnlinksStale M.toDeviceOps (.init c maxsz) ops) :
    (runCached M.toDeviceOps (.init c maxsz) ops).1.map Except.toOption =
      (runCluster M.toDeviceOps c (ops.map BlkOp.uncached)).1.map
        fun r => r.toOption.map ClusterResult.bytes := by
  have hrep := represents_contents hinit hready
  have hcached := (transparent_init (K := K) hinit hready hcap).runCached hsafe
    fun vbid blk flags hmem hflag i p hloc => mem_kept_of_syncKeeps hrep.lt hsync hmem hflag hloc
  rw [hcached, hrep.size, runCluster_uncached hrep]

lemma not_stale_of_le_two {c : BfsCache UInt64 ℕ} {as : List ℕ} {l : List (UInt64 × ℕ)}
    (hg : c.Good as l) (hle : c.maxsize ≤ 2) : ¬ c.Stale := by
  intro hst
  have hlen := hg.size_eq ▸ hg.size_le.trans hle
  obtain ⟨a, ds, es, last, rfl, -, hend, hla, hlast, -⟩ := hg.stale_split hst
  have hds : ds = [] ∧ es = [] := by
    simp only [List.length_cons, List.length_append] at hlen
    exact ⟨List.length_eq_zero_iff.mp (by omega), List.length_eq_zero_iff.mp (by omega)⟩
  obtain ⟨rfl, rfl⟩ := hds
  rw [hg.ring.last_eq] at hend
  simp only [List.nil_append, List.getLast?_cons_cons, List.getLast?_singleton, Option.some.injEq]
    at hend
  simp [← hend] at hlast

lemma Transparent.neverUnlinksStale {ops : List BlkOp} (h : Transparent K ns kept maxsz s arr)
    (hle : maxsz ≤ 2)
    (hsync : ∀ vbid blk flags, .writeBlock vbid blk flags ∈ ops → flags &&& oSync ≠ 0 →
      ∀ i p, locate ns vbid.toNat = some (i, p) → i ∈ kept) :
    NeverUnlinksStale M.toDeviceOps s ops := by
  induction ops generalizing s arr with
  | nil => trivial
  | cons op ops ih =>
    have hstale : ¬ s.blkCache.Stale := by
      obtain ⟨-, as, l, dsk, hg, hmax, -⟩ := h
      exact not_stale_of_le_two hg (hmax ▸ hle)
    have hsafe : ¬ op.unlinksStale M.toDeviceOps s := by
      cases op with
      | readBlock vbid => exact fun hun => hstale hun.2.2.2
      | writeBlock vbid blk flags => exact fun hun => hstale hun.2.2
    obtain ⟨-, h'⟩ := h.exec hsafe fun vbid blk flags hop =>
      hsync vbid blk flags (hop ▸ List.mem_cons_self)
    exact ⟨hsafe, ih h' fun vbid blk flags hmem =>
      hsync vbid blk flags (List.mem_cons_of_mem _ hmem)⟩

end Runs

def BlockDevice.keeping (A : PacketKey) (ivs : UInt32 → Iv × Iv) :
    Keeping (BlockDevice.ops A ivs) where
  Keeps := fun dev => ∃ d, dev = .disk d
  getBlock_keeps := by
    rintro _ pbid ⟨d, rfl⟩
    exact ⟨d, rfl⟩
  putBlock_keeps := by
    rintro _ pbid buf ⟨d, rfl⟩
    simp only [BlockDevice.ops, BlockDevice.putBlock]
    split
    · split
      · exact ⟨_, rfl⟩
      · exact ⟨_, rfl⟩
    · exact ⟨_, rfl⟩
  putBlock_buf := by
    rintro _ pbid buf buf' dev' ⟨d, rfl⟩ hput
    simp only [BlockDevice.ops, BlockDevice.putBlock] at hput
    split at hput
    · split at hput
      · cases hput
        rfl
      · cases hput
    · cases hput

section Example

def mixedOps : List BlkOp :=
  [.writeBlock 0 (Buf.fill 8 blkSz) oSync, .writeBlock 1 (Buf.fill 9 blkSz) 0, .readBlock 0,
    .readBlock 1]

lemma mixedOps_syncKeeps :
    ∀ op ∈ mixedOps, op.SyncKeeps (BlockDevice.keeping seqKey zeroIvs) ⟨diskAndRemote, 3⟩ := by
  intro op hop
  simp only [mixedOps, List.mem_cons, List.not_mem_nil, or_false] at hop
  obtain rfl | rfl | rfl | rfl := hop
  · intro _ i dev pbid haddr
    have hnum := diskAndRemote_numBlocks
    simp only [diskAndRemote, List.map_cons, List.map_nil, List.cons.injEq, and_true] at hnum
    simp only [Cluster.getPhyBlockAddr, diskAndRemote, getPhyBlockAddrFrom, hnum.1] at haddr
    cases haddr
    exact ⟨_, rfl⟩
  · exact fun hflag => absurd rfl hflag
  · trivial
  · trivial

lemma runArray_mixed (arr : UInt64 → Block) (a b : Block) (flags flags' : UInt32) :
    (runArray 3 arr [.writeBlock 0 a flags, .writeBlock 1 b flags', .readBlock 0,
      .readBlock 1]).1 = [some [], some [], some [(0, a)], some [(1, b)]] := by
  simp [runArray, ClusterOp.onArray, Function.update]

theorem cache_transparent_mixed :
    (runCached (BlockDevice.ops seqKey zeroIvs) (.init ⟨diskAndRemote, 3⟩ 1) mixedOps).1.map
        Except.toOption =
      [some [], some [], some [(0, (Buf.fill 8 blkSz).toList)],
        some [(1, (Buf.fill 9 blkSz).toList)]] := by
  have hA := seqKey_committing.correct
  let M := BlockDevice.arrays zeroIvs hA
  let K := BlockDevice.keeping seqKey zeroIvs
  have hrep := represents_contents (M := M) diskAndRemote_init diskAndRemote_ready
  have hsafe : NeverUnlinksStale M.toDeviceOps (.init ⟨diskAndRemote, 3⟩ 1) mixedOps :=
    (transparent_init (M := M) (K := K) diskAndRemote_init diskAndRemote_ready
      le_rfl).neverUnlinksStale (by decide) fun vbid blk flags hmem hflag i p hloc =>
        mem_kept_of_syncKeeps hrep.lt mixedOps_syncKeeps hmem hflag hloc
  have hrun := cache_transparent (M := M) K diskAndRemote_init diskAndRemote_ready le_rfl mixedOps
    mixedOps_syncKeeps hsafe
  have hsize : (sizes M.toDeviceOps diskAndRemote).sum = 3 := diskAndRemote_size
  rw [runCluster_uncached hrep, hsize] at hrun
  exact hrun.trans (congrArg _ (runArray_mixed ..))

lemma getPhyBlockAddr_remote {l : RemoteLink} (hl : l.rd.numBlocks = 2) :
    (Cluster.mk [BlockDevice.remote l] 2).getPhyBlockAddr (BlockDevice.ops seqKey zeroIvs) 0 =
      .ok (0, .remote l, 0) := by
  simp only [Cluster.getPhyBlockAddr, getPhyBlockAddrFrom, BlockDevice.ops, BlockDevice.numBlocks,
    hl]
  rfl

lemma sync_write_read_remote {l : RemoteLink} (hl : (BlockDevice.remote l).Ready)
    (hnum : l.rd.numBlocks = 2) (blk : Block) :
    (runCached (BlockDevice.ops seqKey zeroIvs) (.init ⟨[.remote l], 2⟩ 2)
        [.writeBlock 0 blk oSync, .readBlock 0]).1.map Except.toOption =
      [some [], some [(0, [])]] := by
  obtain ⟨l', hput, -, hnum', -⟩ := BlockDevice.putBlock_remote zeroIvs seqKey_committing.correct hl
    (show (0 : UInt64) < l.rd.numBlocks by rw [hnum]; decide) blk
  have hput : (BlockDevice.ops seqKey zeroIvs).putBlock (.remote l) 0 blk.toList =
    (.ok [], .remote l') := hput
  have hcache : ∃ c, (BfsCache.init 2 : BfsCache UInt64 ℕ).insertCache 0 0 = .ok (0, c) ∧
      c.checkCache 0 false = .ok (some 0, c) := ⟨_, rfl, rfl⟩
  obtain ⟨c, hins, hcheck⟩ := hcache
  have haddr := getPhyBlockAddr_remote hnum
  have haddr' := getPhyBlockAddr_remote (hnum'.trans hnum)
  have hwrite : (CachedCluster.init ⟨[.remote l], 2⟩ 2).writeBlock
      (BlockDevice.ops seqKey zeroIvs) 0 blk oSync =
        (.ok (), ⟨⟨[.remote l'], 2⟩, c,
          Function.update (Function.update (fun _ => none) 0 (some ⟨blk.toList, 0, 0, true⟩)) 0
            (some ⟨[], 0, 0, true⟩), 1⟩) := by
    simp only [CachedCluster.writeBlock, CachedCluster.init, haddr, CachedCluster.alloc,
      CachedCluster.insertBlk, hins, if_true]
    rw [if_pos (by decide)]
    simp only [CachedCluster.put, Function.update_self, List.getElem?_cons_zero, hput,
      Cluster.setDevice, List.set_cons_zero]
  simp only [runCached, BlkOp.exec, hwrite, CachedCluster.readBlock, haddr', hcheck,
    CachedCluster.data, Function.update_self]
  rfl

lemma write_read_remote {l : RemoteLink} (hl : (BlockDevice.remote l).Ready)
    (hnum : l.rd.numBlocks = 2) (blk : Block) (flags : UInt32) :
    (runCluster (BlockDevice.ops seqKey zeroIvs) ⟨[.remote l], 2⟩
        [.writeBlock 0 blk flags, .readBlock 0]).1.map
          (fun r => r.toOption.map ClusterResult.bytes) = [some [], some [(0, blk.toList)]] := by
  have hinit : Cluster.clusterInitialize (BlockDevice.ops seqKey zeroIvs) [.remote l] =
      some ⟨[.remote l], 2⟩ := by
    simp only [Cluster.clusterInitialize, List.foldlM_cons, List.foldlM_nil,
      Cluster.addBlockDevice, BlockDevice.ops, BlockDevice.numBlocks, hnum]
    rfl
  have hrep := represents_contents (M := BlockDevice.arrays zeroIvs seqKey_committing.correct)
    hinit (List.forall_mem_singleton.mpr hl)
  have hsize : (sizes (BlockDevice.arrays zeroIvs seqKey_committing.correct).toDeviceOps
      [.remote l]).sum = 2 := congrArg UInt64.toNat hnum
  have hrun := runCluster_uncached hrep [.writeBlock 0 blk flags, .readBlock 0]
  rw [hsize] at hrun
  refine hrun.trans ?_
  simp [runArray, BlkOp.uncached, ClusterOp.onArray, ClusterResult.bytes]

/-- A block that was written to a remote device with the flag for synchronous writes reads as an
empty buffer. -/
theorem sync_write_to_remote_empties_block :
    (runCached (BlockDevice.ops seqKey zeroIvs)
        (.init ⟨[.remote (RemoteLink.connect seqKey zeroIvs sevens)], 2⟩ 2)
        [.writeBlock 0 (Buf.fill 8 blkSz) oSync, .readBlock 0]).1.map Except.toOption =
      [some [], some [(0, [])]] ∧
    (runCluster (BlockDevice.ops seqKey zeroIvs)
        ⟨[.remote (RemoteLink.connect seqKey zeroIvs sevens)], 2⟩
        [.writeBlock 0 (Buf.fill 8 blkSz) oSync, .readBlock 0]).1.map
          (fun r => r.toOption.map ClusterResult.bytes) =
      [some [], some [(0, (Buf.fill 8 blkSz).toList)]] := by
  have hA := seqKey_committing.correct
  have hready := BlockDevice.ready_connect zeroIvs hA (show sevens.sendSeq = 0 from rfl) rfl
  have hnum := RemoteLink.connect_numBlocks zeroIvs hA (show sevens.sendSeq = 0 from rfl) rfl
  exact ⟨sync_write_read_remote hready hnum _, write_read_remote hready hnum _ _⟩

end Example

end Bfs.Blk
