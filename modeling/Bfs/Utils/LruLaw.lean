import Bfs.Utils.BfsCache

/-! The law of `BfsCache` holds as long as no call unlinks the first entry of the queue while the prev
field of that entry names an entry in the middle. Such a call closes a cycle that does not meet the
end of the queue. -/
namespace Bfs.Utils
open LinkedRing

variable {K V : Type*}

section Keyed

variable [DecidableEq K] {l lb lc : List (K × V)} {k : K} {v : V}

lemma find?_keyed (hb : ∀ e ∈ lb, e.1 ≠ k) :
    (lb ++ (k, v) :: lc).find? (·.1 = k) = some (k, v) := by
  rw [List.find?_append, List.find?_eq_none.mpr (by simpa using hb)]
  simp

lemma filter_keyed (hb : ∀ e ∈ lb, e.1 ≠ k) (hc : ∀ e ∈ lc, e.1 ≠ k) :
    (lb ++ (k, v) :: lc).filter (·.1 ≠ k) = lb ++ lc := by
  rw [List.filter_append, List.filter_cons_of_neg (by simp), List.filter_eq_self.mpr (by simpa using hb),
    List.filter_eq_self.mpr (by simpa using hc)]

end Keyed

structure BfsCache.Good (c : BfsCache K V) (as : List ℕ) (l : List (K × V)) : Prop where
  ring : Ring c.links c.table c.tableEnd as
  entries : as.map c.entry = l.map some
  map_iff : ∀ k a, c.tableMap k = some a ↔ a ∈ as ∧ ∃ v, c.entry a = some (k, v)
  lt_fresh : ∀ a ∈ as, a < c.fresh
  size_eq : c.size = as.length
  size_le : c.size ≤ c.maxsize

namespace BfsCache.Good

variable {c c' : BfsCache K V} {as bs cs : List ℕ} {l lb lc : List (K × V)} {a : ℕ} {k : K} {v : V}

lemma length_eq (hg : Good c as l) : as.length = l.length := by
  have hlen := congrArg List.length hg.entries
  rwa [List.length_map, List.length_map] at hlen

lemma length_le_fresh (hg : Good c as l) : as.length ≤ c.fresh := by
  rw [← List.toFinset_card_of_nodup hg.ring.linked.nodup, ← Finset.card_range c.fresh]
  apply Finset.card_le_card
  intro a ha
  exact Finset.mem_range.mpr (hg.lt_fresh a (List.mem_toFinset.mp ha))

lemma init (maxsz : ℕ) : Good (BfsCache.init maxsz : BfsCache K V) [] [] where
  ring := ⟨⟨List.nodup_nil, List.isChain_nil⟩, rfl, rfl, by simp⟩
  entries := rfl
  map_iff := by simp [BfsCache.init]
  lt_fresh := by simp
  size_eq := rfl
  size_le := Nat.zero_le _

lemma visited_eq (hg : Good c as l) : c.visited = some as := by
  unfold BfsCache.visited
  rw [hg.ring.first_eq, hg.ring.last_eq]
  cases as with
  | nil => rfl
  | cons a as =>
    have hlast := List.getLast?_eq_getLast_of_ne_nil (l := a :: as) (by simp)
    rw [hlast]
    exact walk_linked hg.ring.linked rfl hg.length_le_fresh

lemma law (hg : Good c as l) : c.Law l where
  visits := ⟨as, hg.visited_eq, hg.ring.linked.nodup, hg.entries, hg.map_iff⟩
  size_eq := hg.size_eq.trans hg.length_eq
  size_le := hg.size_le

lemma find_eq (hg : Good c as l) (k : K) : c.find k = c.tableMap k := by
  unfold BfsCache.find
  rw [hg.ring.first_eq, hg.ring.last_eq]
  cases as with
  | nil =>
    rw [List.head?_nil, if_pos (Or.inl rfl)]
    cases hk : c.tableMap k with
    | none => rfl
    | some a => exact absurd ((hg.map_iff k a).mp hk).1 (by simp)
  | cons a as =>
    rw [if_neg]
    simp [List.getLast?_eq_getLast_of_ne_nil]

lemma mem_entry (hg : Good c as l) {e : K × V} (he : e ∈ l) : ∃ a ∈ as, c.entry a = some e := by
  have hmem : some e ∈ as.map c.entry := by
    rw [hg.entries]
    exact List.mem_map_of_mem he
  simpa using hmem

lemma key_ne_of_absent (hg : Good c as l) (hk : c.tableMap k = none) : ∀ e ∈ l, e.1 ≠ k := by
  rintro e he rfl
  obtain ⟨a, ha, hent⟩ := hg.mem_entry he
  rw [(hg.map_iff e.1 a).mpr ⟨ha, e.2, hent⟩] at hk
  exact absurd hk (by simp)

lemma locate (hg : Good c as l) (hk : c.tableMap k = some a) :
    ∃ bs cs lb lc v, as = bs ++ a :: cs ∧ l = lb ++ (k, v) :: lc ∧ c.entry a = some (k, v) ∧
      bs.map c.entry = lb.map some ∧ cs.map c.entry = lc.map some ∧
      (∀ e ∈ lb, e.1 ≠ k) ∧ ∀ e ∈ lc, e.1 ≠ k := by
  obtain ⟨hmem, v, hent⟩ := (hg.map_iff k a).mp hk
  obtain ⟨bs, cs, rfl⟩ := List.append_of_mem hmem
  have hentries := hg.entries
  rw [List.map_append, List.map_cons, hent] at hentries
  obtain ⟨lb, lr, rfl, hb, hr⟩ := List.map_eq_append_iff.mp hentries.symm
  obtain ⟨e, lc, rfl, he, hc⟩ := List.map_eq_cons_iff.mp hr
  obtain rfl : e = (k, v) := Option.some.inj he
  have hnodup := List.nodup_append.mp hg.ring.linked.nodup
  -- Another entry with the key would be the same address again.
  have hother : ∀ {xs : List ℕ} {ls : List (K × V)}, ls.map some = xs.map c.entry →
      (∀ x ∈ xs, x ∈ bs ++ a :: cs ∧ x ≠ a) → ∀ e ∈ ls, e.1 ≠ k := by
    rintro xs ls hls hxs e hmem' rfl
    have hsome : some e ∈ xs.map c.entry := hls ▸ List.mem_map_of_mem hmem'
    obtain ⟨x, hx, hxe⟩ := List.mem_map.mp hsome
    have hkx := (hg.map_iff e.1 x).mpr ⟨(hxs x hx).1, e.2, hxe⟩
    exact (hxs x hx).2 (Option.some.inj (hkx.symm.trans hk))
  refine ⟨bs, cs, lb, lc, v, rfl, rfl, hent, hb.symm, hc.symm, hother hb ?_, hother hc ?_⟩
  · intro x hx
    exact ⟨List.mem_append_left _ hx, fun heq => hnodup.2.2 x hx a (by simp) heq⟩
  · intro x hx
    exact ⟨by simp [hx], fun heq => (List.nodup_cons.mp hnodup.2.1).1 (heq ▸ hx)⟩

lemma ends (hg : Good c (bs ++ a :: cs) l) : ∃ f e, c.table = some f ∧ c.tableEnd = some e := by
  refine ⟨(bs ++ a :: cs).head (by simp), (bs ++ a :: cs).getLast (by simp), ?_, ?_⟩
  · rw [hg.ring.first_eq, List.head?_eq_some_head]
  · rw [hg.ring.last_eq, List.getLast?_eq_getLast_of_ne_nil]

lemma moveBack (hg : Good c (bs ++ a :: cs) (lb ++ (k, v) :: lc)) (hent : c.entry a = some (k, v))
    (hb : bs.map c.entry = lb.map some) (hc : cs.map c.entry = lc.map some)
    (hsafe : bs = [] → c.links.prev a ∉ cs.dropLast) (v' : V) :
    ∃ c', BfsCache.moveBack { c with entry := Function.update c.entry a (some (k, v')) } a = .ok c' ∧
      Good c' (bs ++ cs ++ [a]) (lb ++ lc ++ [(k, v')]) ∧ c'.maxsize = c.maxsize := by
  obtain ⟨f, e, hf, he⟩ := hg.ends
  have hring := hg.ring
  rw [hf, he] at hring
  have hnodup := List.nodup_append.mp hg.ring.linked.nodup
  have hax : a ∉ bs ++ cs := by
    rw [List.mem_append]
    rintro (hmem | hmem)
    · exact hnodup.2.2 a hmem a (by simp) rfl
    · exact (List.nodup_cons.mp hnodup.2.1).1 hmem
  have hother : ∀ x ∈ bs ++ cs, Function.update c.entry a (some (k, v')) x = c.entry x := by
    intro x hx
    apply Function.update_of_ne
    rintro rfl
    exact hax hx
  have hentries : (bs ++ cs ++ [a]).map (Function.update c.entry a (some (k, v'))) =
      (lb ++ lc ++ [(k, v')]).map some := by
    rw [List.map_append, List.map_congr_left hother]
    simp [hb, hc]
  have hmem : ∀ x, x ∈ bs ++ cs ++ [a] ↔ x ∈ bs ++ a :: cs := by
    intro x
    simp only [List.mem_append, List.mem_cons, List.not_mem_nil, or_false]
    tauto
  have hmap : ∀ k' x, c.tableMap k' = some x ↔ x ∈ bs ++ cs ++ [a] ∧
      ∃ w, Function.update c.entry a (some (k, v')) x = some (k', w) := by
    intro k' x
    rw [hg.map_iff, hmem]
    by_cases hx : x = a
    · subst hx
      rw [Function.update_self, hent]
      simp
    · rw [Function.update_of_ne hx]
  have hfresh : ∀ x ∈ bs ++ cs ++ [a], x < c.fresh := fun x hx => hg.lt_fresh x ((hmem x).mp hx)
  have hlen : c.size = (bs ++ cs ++ [a]).length := by
    rw [hg.size_eq]
    simp only [List.length_append, List.length_cons, List.length_nil]
    omega
  have hlen' := hg.size_eq
  simp only [List.length_append, List.length_cons] at hlen'
  simp only [BfsCache.moveBack, hf, he]
  cases cs with
  | nil =>
    obtain rfl : e = a := by simpa using hring.last_eq
    rw [if_pos (Or.inr rfl)]
    refine ⟨_, rfl, ⟨?_, hentries, hmap, hfresh, hlen, hg.size_le⟩, rfl⟩
    rw [List.append_nil]
    exact hring
  | cons b cs =>
    have hae : a ≠ e := by
      rintro rfl
      have hlast := hring.last_eq
      rw [List.getLast?_append_of_ne_nil _ (by simp), List.getLast?_cons_cons] at hlast
      exact (List.nodup_cons.mp hnodup.2.1).1 (List.mem_of_getLast? hlast.symm)
    simp only [List.length_cons] at hlen'
    rw [if_neg (by rintro (hone | heq); omega; exact hae heq)]
    have hun := hring.unlink (by simp) hsafe
    have hend : (if a ≠ f ∧ a = e then c.links.prev e else e) = e := if_neg fun hand => hae hand.2
    rw [hend] at hun
    exact ⟨_, rfl, ⟨hun.append hax, hentries, hmap, hfresh, hlen, hg.size_le⟩, rfl⟩

variable [DecidableEq K]

lemma map_iff_remove (hg : Good c (bs ++ a :: cs) l) (hent : c.entry a = some (k, v)) (k' : K) (x : ℕ) :
    Function.update c.tableMap k none k' = some x ↔
      x ∈ bs ++ cs ∧ ∃ v, c.entry x = some (k', v) := by
  have hka := (hg.map_iff k a).mpr ⟨by simp, v, hent⟩
  have hnodup := List.nodup_append.mp hg.ring.linked.nodup
  have hax : a ∉ bs ++ cs := by
    rw [List.mem_append]
    rintro (hmem | hmem)
    · exact hnodup.2.2 a hmem a (by simp) rfl
    · exact (List.nodup_cons.mp hnodup.2.1).1 hmem
  by_cases hk : k' = k
  · subst hk
    rw [Function.update_self]
    refine ⟨by simp, ?_⟩
    rintro ⟨hx, v', hv'⟩
    have hkx := (hg.map_iff k' x).mpr ⟨by simp at hx ⊢; tauto, v', hv'⟩
    obtain rfl := Option.some.inj (hka.symm.trans hkx)
    exact absurd hx hax
  · rw [Function.update_of_ne hk, hg.map_iff k' x]
    have hxa : (∃ v, c.entry x = some (k', v)) → x ≠ a := by
      rintro ⟨v', hv'⟩ rfl
      rw [hent] at hv'
      exact hk (congrArg Prod.fst (Option.some.inj hv')).symm
    refine ⟨fun ⟨hx, hv⟩ => ⟨?_, hv⟩, fun ⟨hx, hv⟩ => ⟨?_, hv⟩⟩
    · have hne := hxa hv
      simp only [List.mem_append, List.mem_cons] at hx ⊢
      tauto
    · simp only [List.mem_append, List.mem_cons] at hx ⊢
      tauto

lemma remove (hg : Good c (bs ++ a :: cs) (lb ++ (k, v) :: lc)) (hent : c.entry a = some (k, v))
    (hb : bs.map c.entry = lb.map some) (hc : cs.map c.entry = lc.map some)
    (hsafe : bs = [] → c.links.prev a ∉ cs.dropLast) :
    ∃ c', c.remove a = .ok c' ∧ Good c' (bs ++ cs) (lb ++ lc) ∧ c'.maxsize = c.maxsize ∧
      c'.size + 1 = c.size ∧ c'.tableMap = Function.update c.tableMap k none := by
  obtain ⟨f, e, hf, he⟩ := hg.ends
  have hka := (hg.map_iff k a).mpr ⟨by simp, v, hent⟩
  have hsize : c.size = (bs ++ cs).length + 1 := by
    rw [hg.size_eq]
    simp only [List.length_append, List.length_cons]
    omega
  have hle := hg.size_le
  have hentries : (bs ++ cs).map c.entry = (lb ++ lc).map some := by
    rw [List.map_append, List.map_append, hb, hc]
  have hfresh : ∀ x ∈ bs ++ cs, x < c.fresh := by
    intro x hx
    apply hg.lt_fresh x
    simp only [List.mem_append, List.mem_cons] at hx ⊢
    tauto
  simp only [BfsCache.remove, hf, he, hent, hka, reduceCtorEq, if_false]
  by_cases hone : c.size = 1
  · rw [if_pos hone]
    have hnil : bs ++ cs = [] := List.eq_nil_of_length_eq_zero (by omega)
    refine ⟨_, rfl, ⟨?_, hentries, hg.map_iff_remove hent, hfresh, ?_, ?_⟩, rfl, ?_, rfl⟩
    · rw [hnil]
      exact ⟨⟨List.nodup_nil, List.isChain_nil⟩, rfl, rfl, by simp⟩
    · simp [hone, hnil]
    · simp only
      omega
    · simp [hone]
  · rw [if_neg hone]
    have hring := hg.ring
    rw [hf, he] at hring
    have hne : bs ++ cs ≠ [] := by
      rintro hnil
      rw [hnil] at hsize
      exact hone hsize
    refine ⟨_, rfl, ⟨hring.unlink hne hsafe, hentries, hg.map_iff_remove hent, hfresh, ?_, ?_⟩, rfl,
      ?_, rfl⟩
    · simp only
      omega
    · simp only
      omega
    · simp only
      omega

lemma pushBack (hg : Good c as l) (hk : c.tableMap k = none) (hroom : c.size < c.maxsize) (v : V) :
    ∃ c', c.pushBack k v = .ok c' ∧ Good c' (as ++ [c.fresh]) (l ++ [(k, v)]) ∧
      c'.maxsize = c.maxsize := by
  have hnew : c.fresh ∉ as := fun hmem => absurd (hg.lt_fresh _ hmem) (lt_irrefl _)
  have hother : ∀ x ∈ as, Function.update c.entry c.fresh (some (k, v)) x = c.entry x := by
    intro x hx
    apply Function.update_of_ne
    rintro rfl
    exact hnew hx
  have hentries : (as ++ [c.fresh]).map (Function.update c.entry c.fresh (some (k, v))) =
      (l ++ [(k, v)]).map some := by
    rw [List.map_append, List.map_append, List.map_congr_left hother, hg.entries]
    simp
  have hmap : ∀ k' x, Function.update c.tableMap k (some c.fresh) k' = some x ↔
      x ∈ as ++ [c.fresh] ∧ ∃ v', Function.update c.entry c.fresh (some (k, v)) x = some (k', v') := by
    intro k' x
    by_cases hx : x = c.fresh
    · subst hx
      rw [Function.update_self]
      by_cases hkk : k' = k
      · subst hkk
        simp
      · rw [Function.update_of_ne hkk, hg.map_iff]
        simp [hnew, Ne.symm hkk]
    · rw [Function.update_of_ne hx]
      by_cases hkk : k' = k
      · subst hkk
        have hnone := hg.map_iff k' x
        rw [hk] at hnone
        simp only [reduceCtorEq, false_iff] at hnone
        rw [Function.update_self]
        simp only [Option.some.injEq, List.mem_append, List.mem_singleton, hx, or_false]
        exact ⟨fun heq => absurd heq.symm hx, fun hand => absurd hand hnone⟩
      · rw [Function.update_of_ne hkk, hg.map_iff]
        simp [hx]
  have hfresh : ∀ x ∈ as ++ [c.fresh], x < c.fresh + 1 := by
    intro x hx
    rw [List.mem_append, List.mem_singleton] at hx
    rcases hx with hx | rfl
    · exact Nat.lt_succ_of_lt (hg.lt_fresh x hx)
    · exact Nat.lt_succ_self _
  have hlen : c.size + 1 = (as ++ [c.fresh]).length := by
    rw [hg.size_eq, List.length_append, List.length_singleton]
  cases as with
  | nil =>
    have hf : c.table = none := hg.ring.first_eq
    have he : c.tableEnd = none := hg.ring.last_eq
    simp only [BfsCache.pushBack, hf, he]
    refine ⟨_, rfl, ⟨?_, hentries, hmap, hfresh, hlen, hroom⟩, rfl⟩
    exact ⟨⟨List.nodup_singleton _, List.isChain_singleton _⟩, rfl, rfl, by simp⟩
  | cons a as =>
    have hg₀ : Good c ([] ++ a :: as) l := hg
    obtain ⟨f, e, hf, he⟩ := hg₀.ends
    have hring := hg.ring
    rw [hf, he] at hring
    simp only [BfsCache.pushBack, hf, he]
    exact ⟨_, rfl, ⟨hring.append hnew, hentries, hmap, hfresh, hlen, hroom⟩, rfl⟩

end BfsCache.Good

def BfsCache.Stale (c : BfsCache K V) : Prop :=
  ∃ first, c.table = some first ∧ c.links.prev first ≠ first ∧
    c.tableEnd ≠ some (c.links.prev first) ∧ ∃ k, c.tableMap k = some (c.links.prev first)

def CacheOp.unlinksFirst (c : BfsCache K V) : CacheOp K V → Prop
  | .insert k _ => c.find k = c.table ∨ (c.find k = none ∧ c.maxsize ≤ c.size)
  | .check k pop => pop = true ∧ c.find k = c.table

def NeverStale [DecidableEq K] (c : BfsCache K V) : List (CacheOp K V) → Prop
  | [] => True
  | op :: ops => ¬ (op.unlinksFirst c ∧ c.Stale) ∧
      ∀ r c', op.exec c = .ok (r, c') → NeverStale c' ops

def LawHolds [DecidableEq K] (c : BfsCache K V) (l : List (K × V)) : List (CacheOp K V) → Prop
  | [] => c.Law l
  | op :: ops => c.Law l ∧ ∃ c', op.exec c = .ok ((op.lru c.maxsize l).1, c') ∧
      LawHolds c' (op.lru c.maxsize l).2 ops

namespace BfsCache.Good

variable {c c' : BfsCache K V} {as bs cs : List ℕ} {l lb lc : List (K × V)} {a : ℕ} {k : K} {v : V}

lemma stale_iff (hg : Good c (a :: cs) l) : c.Stale ↔ c.links.prev a ∈ cs.dropLast := by
  have hfirst : c.table = some a := hg.ring.first_eq
  have hacs := (List.nodup_cons.mp hg.ring.linked.nodup).1
  have hnodup := (List.nodup_cons.mp hg.ring.linked.nodup).2
  refine ⟨?_, ?_⟩
  · rintro ⟨f, hf, hself, hlast, k, hk⟩
    obtain rfl : a = f := Option.some.inj (hfirst.symm.trans hf)
    have hmem := ((hg.map_iff k _).mp hk).1
    have hcs : c.links.prev a ∈ cs := (List.mem_cons.mp hmem).resolve_left hself
    rcases List.eq_nil_or_concat' cs with rfl | ⟨ds, d, rfl⟩
    · exact absurd hcs (by simp)
    · rw [List.dropLast_concat]
      rw [hg.ring.last_eq] at hlast
      simp only [List.mem_append, List.mem_singleton] at hcs
      refine hcs.resolve_right fun heq => hlast ?_
      rw [heq, ← List.cons_append, List.getLast?_concat]
  · intro hmem
    rcases List.eq_nil_or_concat' cs with rfl | ⟨ds, d, rfl⟩
    · exact absurd hmem (by simp)
    · rw [List.dropLast_concat] at hmem
      have hin : c.links.prev a ∈ ds ++ [d] := List.mem_append_left _ hmem
      refine ⟨a, hfirst, ?_, ?_, ?_⟩
      · intro heq
        exact hacs (heq ▸ hin)
      · rw [hg.ring.last_eq, ← List.cons_append, List.getLast?_concat]
        intro heq
        obtain rfl := Option.some.inj heq
        exact (List.nodup_append.mp hnodup).2.2 _ hmem _ (by simp) rfl
      · have hsome : c.entry (c.links.prev a) ∈ l.map some := by
          rw [← hg.entries]
          exact List.mem_map_of_mem (List.mem_cons_of_mem _ hin)
        obtain ⟨e, -, he⟩ := List.mem_map.mp hsome
        exact ⟨e.1, (hg.map_iff _ _).mpr ⟨List.mem_cons_of_mem _ hin, e.2, he.symm⟩⟩

lemma safe (hg : Good c (bs ++ a :: cs) l) (hsafe : ¬ (c.table = some a ∧ c.Stale)) :
    bs = [] → c.links.prev a ∉ cs.dropLast := by
  rintro rfl hmem
  exact hsafe ⟨hg.ring.first_eq, hg.stale_iff.mpr hmem⟩

lemma stale_split (hg : Good c as l) (hst : c.Stale) :
    ∃ a ds es last, as = a :: (ds ++ c.links.prev a :: es) ∧ c.table = some a ∧
      c.tableEnd = some last ∧ last ≠ a ∧ last ∉ ds ++ [c.links.prev a] ∧ c.size ≠ 1 := by
  cases as with
  | nil =>
    obtain ⟨f, hf, -⟩ := hst
    exact absurd (hf.symm.trans hg.ring.first_eq) (by simp)
  | cons a cs =>
    have hmem := hg.stale_iff.mp hst
    have hsize := hg.size_eq
    have hlast := hg.ring.last_eq
    have hnodup := hg.ring.linked.nodup
    rcases List.eq_nil_or_concat' cs with rfl | ⟨bs, last, rfl⟩
    · exact absurd hmem (by simp)
    · rw [List.dropLast_concat] at hmem
      obtain ⟨ds, es, hbs⟩ := List.append_of_mem hmem
      have hsplit : bs ++ [last] = ds ++ c.links.prev a :: (es ++ [last]) := by
        rw [hbs]
        simp
      rw [← List.cons_append, List.getLast?_concat] at hlast
      refine ⟨a, ds, es ++ [last], last, by rw [hsplit], hg.ring.first_eq, hlast, ?_, ?_, ?_⟩
      · rintro rfl
        exact (List.nodup_cons.mp hnodup).1 (by simp)
      · intro hin
        have hinbs : last ∈ bs := by
          rw [hbs]
          simp only [List.mem_append, List.mem_cons, List.not_mem_nil, or_false] at hin ⊢
          tauto
        exact (List.nodup_append.mp (List.nodup_cons.mp hnodup).2).2.2 last hinbs last (by simp) rfl
      · rw [hsize, List.length_cons, List.length_append, List.length_singleton]
        omega

variable [DecidableEq K]

lemma checkCache (hg : Good c as l) (k : K) (pop : Bool)
    (hsafe : ¬ ((CacheOp.check k pop : CacheOp K V).unlinksFirst c ∧ c.Stale)) :
    ∃ c' as', c.checkCache k pop = .ok (((CacheOp.check k pop).lru c.maxsize l).1, c') ∧
      Good c' as' ((CacheOp.check k pop).lru c.maxsize l).2 ∧ c'.maxsize = c.maxsize := by
  cases hk : c.tableMap k with
  | none =>
    have hkeys := hg.key_ne_of_absent hk
    have hfind : l.find? (·.1 = k) = none := List.find?_eq_none.mpr (by simpa using hkeys)
    have hfilter : l.filter (·.1 ≠ k) = l := List.filter_eq_self.mpr (by simpa using hkeys)
    refine ⟨c, as, ?_, ?_, rfl⟩
    · simp only [BfsCache.checkCache, hg.find_eq, hk, CacheOp.lru, hfind, Option.map_none]
    · simp only [CacheOp.lru, hfilter, ite_self]
      exact hg
  | some a =>
    obtain ⟨bs, cs, lb, lc, v, rfl, rfl, hent, hb, hc, hlb, hlc⟩ := hg.locate hk
    simp only [BfsCache.checkCache, hg.find_eq, hk, hent, CacheOp.lru, find?_keyed hlb,
      filter_keyed hlb hlc, Option.map_some]
    cases pop with
    | false => exact ⟨c, _, rfl, hg, rfl⟩
    | true =>
      have hsafe' : ¬ (c.table = some a ∧ c.Stale) := by
        rintro ⟨htab, hst⟩
        exact hsafe ⟨⟨rfl, by rw [hg.find_eq, hk, htab]⟩, hst⟩
      obtain ⟨c', hrem, hg', hmax, -, -⟩ := hg.remove hent hb hc (hg.safe hsafe')
      exact ⟨c', _, by simp [hrem, bind, Except.bind, pure, Except.pure], hg', hmax⟩

lemma insertCache (hg : Good c as l) (hcap : 1 ≤ c.maxsize) (k : K) (v : V)
    (hsafe : ¬ ((CacheOp.insert k v).unlinksFirst c ∧ c.Stale)) :
    ∃ c' as', (c.insertCache k v).map (fun r => (some r.1, r.2)) =
        .ok (((CacheOp.insert k v).lru c.maxsize l).1, c') ∧
      Good c' as' ((CacheOp.insert k v).lru c.maxsize l).2 ∧ c'.maxsize = c.maxsize := by
  have hlen := hg.size_eq.trans hg.length_eq
  cases hk : c.tableMap k with
  | none =>
    have hkeys := hg.key_ne_of_absent hk
    have hfind : l.find? (·.1 = k) = none := List.find?_eq_none.mpr (by simpa using hkeys)
    simp only [BfsCache.insertCache, hg.find_eq, hk, CacheOp.lru, hfind]
    by_cases hroom : c.size < c.maxsize
    · rw [if_neg (by omega), if_pos (by omega)]
      obtain ⟨c', hpush, hg', hmax⟩ := hg.pushBack hk hroom v
      exact ⟨c', _, by simp [hpush, bind, Except.bind, pure, Except.pure, Except.map], hg', hmax⟩
    · -- The cache is full, and the first entry makes room.
      rw [if_pos (by omega), if_neg (by omega)]
      cases as with
      | nil =>
        have hsz := hg.size_eq
        rw [List.length_nil] at hsz
        omega
      | cons a cs =>
        obtain ⟨⟨k₀, v₀⟩, lc, rfl, he, hc⟩ := List.map_eq_cons_iff.mp hg.entries.symm
        have htab : c.table = some a := hg.ring.first_eq
        have hg₀ : Good c ([] ++ a :: cs) ([] ++ (k₀, v₀) :: lc) := hg
        obtain ⟨f, e, hf, hend⟩ := hg₀.ends
        have hsafe' : ¬ (c.table = some a ∧ c.Stale) := by
          rintro ⟨-, hst⟩
          exact hsafe ⟨Or.inr ⟨by rw [hg.find_eq, hk], by omega⟩, hst⟩
        obtain ⟨c₁, hrem, hg₁, hmax₁, hsize₁, hmap₁⟩ :=
          hg₀.remove he.symm rfl hc.symm (hg₀.safe hsafe')
        have hk₁ : c₁.tableMap k = none := by
          rw [hmap₁]
          by_cases hkk : k = k₀
          · rw [hkk, Function.update_self]
          · rw [Function.update_of_ne hkk, hk]
        obtain ⟨c', hpush, hg', hmax⟩ := hg₁.pushBack hk₁ (by have := hg.size_le; omega) v
        refine ⟨c', _, ?_, hg', hmax.trans hmax₁⟩
        simp [htab, hend, ← he, hrem, hpush, bind, Except.bind, pure, Except.pure, Except.map]
  | some a =>
    obtain ⟨bs, cs, lb, lc, v₀, rfl, rfl, hent, hb, hc, hlb, hlc⟩ := hg.locate hk
    have hsafe' : ¬ (c.table = some a ∧ c.Stale) := by
      rintro ⟨htab, hst⟩
      exact hsafe ⟨Or.inl (by rw [hg.find_eq, hk, htab]), hst⟩
    obtain ⟨c', hmove, hg', hmax⟩ := hg.moveBack hent hb hc (hg.safe hsafe') v
    simp only [BfsCache.insertCache, hg.find_eq, hk, hent, CacheOp.lru, find?_keyed hlb,
      filter_keyed hlb hlc]
    exact ⟨c', _, by simp [hmove, bind, Except.bind, pure, Except.pure, Except.map], hg', hmax⟩

lemma visited_unlink_stale (hg : Good c as l) {op : CacheOp K V} (hun : op.unlinksFirst c)
    (hst : c.Stale) {r : Option V} (hexec : op.exec c = .ok (r, c')) : c'.visited = none := by
  obtain ⟨a, ds, es, last, rfl, htab, hend, hla, hlast, hsize⟩ := hg.stale_split hst
  have hlinked := hg.ring.linked
  have hcycle : ∀ {h' : Links} {z : ℕ}, z ∉ ds ++ [c.links.prev a] →
      (∀ y ∈ ds ++ [c.links.prev a], h'.next y = (c.links.unlink a).next y) → ∀ fuel,
      walk h'.next z fuel (c.links.next a) = none :=
    fun hz hsame fuel => hlinked.walk_unlink_cycle rfl hz hsame fuel
  have hamem : a ∉ ds ++ [c.links.prev a] := by
    intro hin
    apply (List.nodup_cons.mp hlinked.nodup).1
    simp only [List.mem_append, List.mem_cons, List.not_mem_nil, or_false] at hin ⊢
    tauto
  have happend : ∀ b first, b ∉ ds ++ [c.links.prev a] → ∀ y ∈ ds ++ [c.links.prev a],
      ((c.links.unlink a).append b last first).next y = (c.links.unlink a).next y := by
    intro b first hb y hy
    apply Links.append_next_of_ne
    · rintro rfl
      exact hlast hy
    · rintro rfl
      exact hb hy
  have hremove : ∀ c₁, c.remove a = .ok c₁ → c₁.table = some (c.links.next a) ∧
      c₁.tableEnd = some last ∧ c₁.links = c.links.unlink a ∧ c₁.fresh = c.fresh := by
    intro c₁ hrem
    cases hent : c.entry a with
    | none => simp [BfsCache.remove, htab, hend, hent] at hrem
    | some e =>
      simp only [BfsCache.remove, htab, hend, hent, hsize, if_false, ne_eq, not_true, false_and] at hrem
      split_ifs at hrem
      obtain rfl := Except.ok.inj hrem
      exact ⟨rfl, rfl, rfl, rfl⟩
  cases op with
  | check k pop =>
    obtain ⟨hpop, hfind⟩ := hun
    cases hent : c.entry a with
    | none => simp [CacheOp.exec, BfsCache.checkCache, hfind, htab, hent] at hexec
    | some e =>
      simp only [CacheOp.exec, BfsCache.checkCache, hfind, htab, hent, hpop, if_true] at hexec
      cases hrem : c.remove a with
      | error err => simp [hrem, bind, Except.bind] at hexec
      | ok c₁ =>
        simp only [hrem, bind, Except.bind, pure, Except.pure, Except.ok.injEq, Prod.mk.injEq] at hexec
        obtain ⟨-, rfl⟩ := hexec
        obtain ⟨h1, h2, h3, -⟩ := hremove c₁ hrem
        simp only [BfsCache.visited, h1, h2, h3]
        exact hcycle hlast (fun _ _ => rfl) _
  | insert k v =>
    cases hfind : c.find k with
    | some b =>
      -- The key of the first entry is updated.
      obtain rfl : a = b := by
        rcases hun with heq | ⟨hnone, -⟩
        · exact Option.some.inj (htab.symm.trans (heq.symm.trans hfind))
        · exact absurd (hnone.symm.trans hfind) (by simp)
      have hsz : ¬ (c.size ≤ 1 ∨ a = last) := by
        rintro (hle | heq)
        · have hlen := hg.size_eq
          rw [List.length_cons] at hlen
          omega
        · exact hla heq.symm
      cases hent : c.entry a with
      | none => simp [CacheOp.exec, BfsCache.insertCache, hfind, hent, Except.map] at hexec
      | some e =>
        simp only [CacheOp.exec, BfsCache.insertCache, hfind, hent, BfsCache.moveBack, htab, hend, hsz,
          if_false, if_true, bind, Except.bind, pure, Except.pure, Except.map, Except.ok.injEq,
          Prod.mk.injEq] at hexec
        obtain ⟨-, rfl⟩ := hexec
        simp only [BfsCache.visited]
        exact hcycle hamem (happend a _ hamem) _
    | none =>
      -- The first entry is evicted.
      obtain ⟨-, hfull⟩ : c.find k = none ∧ c.maxsize ≤ c.size := by
        rcases hun with heq | hand
        · exact absurd (htab.symm.trans (heq.symm.trans hfind)) (by simp)
        · exact hand
      have hfresh : c.fresh ∉ ds ++ [c.links.prev a] := by
        intro hin
        apply lt_irrefl c.fresh
        apply hg.lt_fresh
        simp only [List.mem_append, List.mem_cons, List.not_mem_nil, or_false] at hin ⊢
        tauto
      cases hent : c.entry a with
      | none => simp [CacheOp.exec, BfsCache.insertCache, hfind, hfull, htab, hend, hent, Except.map] at hexec
      | some e =>
        simp only [CacheOp.exec, BfsCache.insertCache, hfind, hfull, htab, hend, hent, if_true] at hexec
        cases hrem : c.remove a with
        | error err => simp [hrem, bind, Except.bind, Except.map] at hexec
        | ok c₁ =>
          obtain ⟨h1, h2, h3, h4⟩ := hremove c₁ hrem
          simp only [hrem, BfsCache.pushBack, h1, h2, bind, Except.bind, pure, Except.pure, Except.map,
            Except.ok.injEq, Prod.mk.injEq] at hexec
          obtain ⟨-, rfl⟩ := hexec
          simp only [BfsCache.visited, h3, h4]
          exact hcycle hfresh (happend _ _ hfresh) _

lemma exec (hg : Good c as l) (hcap : 1 ≤ c.maxsize) (op : CacheOp K V)
    (hsafe : ¬ (op.unlinksFirst c ∧ c.Stale)) :
    ∃ c' as', op.exec c = .ok ((op.lru c.maxsize l).1, c') ∧ Good c' as' (op.lru c.maxsize l).2 ∧
      c'.maxsize = c.maxsize := by
  cases op with
  | insert k v => exact hg.insertCache hcap k v hsafe
  | check k pop => exact hg.checkCache k pop hsafe

lemma lawHolds_iff (hg : Good c as l) (hcap : 1 ≤ c.maxsize) (ops : List (CacheOp K V)) :
    LawHolds c l ops ↔ NeverStale c ops := by
  induction ops generalizing c as l with
  | nil => exact ⟨fun _ => trivial, fun _ => hg.law⟩
  | cons op ops ih =>
    refine ⟨?_, ?_⟩
    · rintro ⟨-, c', hexec, hrest⟩
      have hsafe : ¬ (op.unlinksFirst c ∧ c.Stale) := by
        rintro ⟨hun, hst⟩
        have hnone := hg.visited_unlink_stale hun hst hexec
        obtain ⟨as', hvis, -⟩ : ∃ as', c'.visited = some as' ∧ as'.Nodup := by
          cases ops with
          | nil => exact hrest.visits.imp fun _ h => ⟨h.1, h.2.1⟩
          | cons _ _ => exact hrest.1.visits.imp fun _ h => ⟨h.1, h.2.1⟩
        exact absurd (hvis.symm.trans hnone) (by simp)
      obtain ⟨c₁, as₁, hexec₁, hg₁, hmax⟩ := hg.exec hcap op hsafe
      refine ⟨hsafe, ?_⟩
      intro r c₂ hexec₂
      obtain rfl : c' = c₂ := congrArg Prod.snd (Except.ok.inj (hexec.symm.trans hexec₂))
      obtain rfl : c' = c₁ := congrArg Prod.snd (Except.ok.inj (hexec.symm.trans hexec₁))
      exact (ih hg₁ (hmax ▸ hcap)).mp hrest
    · rintro ⟨hsafe, hrest⟩
      obtain ⟨c₁, as₁, hexec, hg₁, hmax⟩ := hg.exec hcap op hsafe
      exact ⟨hg.law, c₁, hexec, (ih hg₁ (hmax ▸ hcap)).mpr (hrest _ _ hexec)⟩

end BfsCache.Good

/-- For every sequence of calls on a cache of any capacity: the law holds all along exactly when no
call unlinks the first entry while it is stale. -/
theorem lru_law_iff [DecidableEq K] (maxsz : ℕ) (hcap : 1 ≤ maxsz) (ops : List (CacheOp K V)) :
    LawHolds (BfsCache.init maxsz) [] ops ↔ NeverStale (BfsCache.init maxsz) ops :=
  (BfsCache.Good.init maxsz).lawHolds_iff hcap ops

theorem lru_law_after_pop :
    1 ≤ 3 ∧ LawHolds (BfsCache.init 3 : BfsCache ℕ ℕ) []
      [.insert 0 10, .insert 1 11, .check 0 true] := by
  refine ⟨by decide, (lru_law_iff 3 (by decide) _).mpr ⟨?_, ?_⟩⟩
  · rintro ⟨-, first, htab, -⟩
    exact absurd htab (by simp [BfsCache.init])
  · intro r c₁ hexec₁
    cases hexec₁
    refine ⟨?_, ?_⟩
    · rintro ⟨-, first, htab, hself, -⟩
      cases htab
      exact hself rfl
    · intro r c₂ hexec₂
      cases hexec₂
      refine ⟨?_, fun _ _ _ => trivial⟩
      rintro ⟨-, first, htab, hself, -⟩
      cases htab
      exact hself rfl

/-- A cache of three: the keys 0 and 1 are inserted, 0 is updated, 2 is inserted, and 3 evicts 1. The
walk from the front never comes to the end of the queue. -/
theorem evicting_stale_front_closes_cycle :
    ∃ c : BfsCache ℕ ℕ, runCache 3
        [.insert 0 10, .insert 1 11, .insert 0 12, .insert 2 13, .insert 3 14] = .ok c ∧
      c.visited = none ∧ ¬ c.Law [(0, 12), (2, 13), (3, 14)] ∧
      runLru 3 [.insert 0 10, .insert 1 11, .insert 0 12, .insert 2 13, .insert 3 14] =
        [(0, 12), (2, 13), (3, 14)] := by
  have hrun : ∃ c : BfsCache ℕ ℕ, runCache 3
      [.insert 0 10, .insert 1 11, .insert 0 12, .insert 2 13, .insert 3 14] = .ok c ∧
      c.visited = none := ⟨_, rfl, by decide⟩
  obtain ⟨c, hc, hvis⟩ := hrun
  refine ⟨c, hc, hvis, ?_, by decide⟩
  rintro ⟨⟨as, hwalk, -⟩, -⟩
  rw [hvis] at hwalk
  cases hwalk

end Bfs.Utils
