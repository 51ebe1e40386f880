import Bfs.Server.UserContext

/-! Connections come and go, and their contexts stay: the accesses of the dispatchers to the user
contexts over a whole run, with connection objects that are freed and allocated again. -/
namespace Bfs.Server
open ByteSeq
open Bfs.Fs (Iv ivLen)
open Bfs.Device (PacketKey decryptData seqKey)
open Bfs.Rpc

inductive ConnEvent
  | accept (conn : Conn)
  | request (conn : Conn) (ivs : ℕ → Iv) (pkt : List UInt8)
  | disconnect (conn : Conn)

/-- A context was registered, a request was processed under a context and has changed it, the
connection was closed, or the registration did not return. -/
inductive LogEntry
  | registered (conn : Conn) (usr : UserContext)
  | processed (conn : Conn) (before after : Option UserContext)
  | closed (conn : Conn)
  | crashed (conn : Conn)

structure Host (σ : Type) where
  server : State σ
  live : Conn → Bool
  up : Bool
  accepted : List Conn
  log : List LogEntry

def Host.start {σ : Type} (fs : σ) : Host σ := ⟨⟨ACLayer.init, fs⟩, fun _ => false, true, [], []⟩

section Step

variable {σ : Type} (A : PacketKey) (handle : Handler σ)

/-- The dispatchers call `handle_in_msg` without a message for a new connection and abort if it fails. -/
def Host.accept (h : Host σ) (conn : Conn) : Host σ :=
  let r := handleInMsg A handle (fun _ => Buf.fill 0 ivLen) h.server conn none
  let h := { h with accepted := h.accepted ++ [conn] }
  match r.status, r.state.acl.userContexts conn with
  | .success, some usr => { h with
      server := r.state
      live := Function.update h.live conn true
      log := h.log ++ [.registered conn usr] }
  | _, _ => { h with up := false, log := h.log ++ [.crashed conn] }

def Host.request (h : Host σ) (conn : Conn) (ivs : ℕ → Iv) (pkt : List UInt8) : Host σ :=
  let r := handleInMsg A handle ivs h.server conn (some pkt)
  { h with
    server := r.state
    up := r.status.returns
    log := h.log ++ [.processed conn (h.server.acl.userContexts conn)
      (r.state.acl.userContexts conn)] }

/-- `removeConnection` and `delete client`. -/
def Host.disconnect (h : Host σ) (conn : Conn) : Host σ :=
  { h with live := Function.update h.live conn false, log := h.log ++ [.closed conn] }

def Host.step (h : Host σ) : ConnEvent → Host σ
  | .accept conn => if h.up && !h.live conn then h.accept A handle conn else h
  | .request conn ivs pkt => if h.up && h.live conn then h.request A handle conn ivs pkt else h
  | .disconnect conn => if h.up && h.live conn then h.disconnect conn else h

def Host.run (h : Host σ) (evs : List ConnEvent) : Host σ := evs.foldl (Host.step A handle) h

end Step

section Contexts

def nextContext (conn : Conn) (usr : Option UserContext) : LogEntry → Option UserContext
  | .registered c u => if c = conn then some u else usr
  | .processed c _ u => if c = conn then u else usr
  | .closed c => if c = conn then none else usr
  | .crashed _ => usr

def lastContext (conn : Conn) (log : List LogEntry) : Option UserContext :=
  log.foldl (nextContext conn) none

@[simp] theorem lastContext_append_singleton (conn : Conn) (log : List LogEntry) (e : LogEntry) :
    lastContext conn (log ++ [e]) = nextContext conn (lastContext conn log) e := by
  simp [lastContext]

def LogEntry.newUid : LogEntry → Option UInt32
  | .registered _ usr => some usr.uid
  | _ => none

def Chained (log : List LogEntry) : Prop :=
  ∀ pre conn before after post, log = pre ++ .processed conn before after :: post →
    before.isSome ∧ before = lastContext conn pre ∧
      after.map UserContext.uid = before.map UserContext.uid

/-- Every connection has its own fresh context: registrations succeed with initial counters and new
user ids, and the requests of the connection are processed under that context. -/
structure OwnContexts (log : List LogEntry) : Prop where
  no_crash : ∀ conn, .crashed conn ∉ log
  initial : ∀ conn usr, .registered conn usr ∈ log → usr = UserContext.new usr.uid
  new_uids : (log.filterMap LogEntry.newUid).Nodup
  own : Chained log

lemma Chained.append {log : List LogEntry} (hc : Chained log) {e : LogEntry}
    (he : ∀ conn before after, e = .processed conn before after →
      before.isSome ∧ before = lastContext conn log ∧
        after.map UserContext.uid = before.map UserContext.uid) : Chained (log ++ [e]) := by
  intro pre conn before after post hsplit
  induction post using List.reverseRecOn with
  | nil =>
    obtain ⟨rfl, hlast⟩ := List.append_inj' hsplit rfl
    exact he conn before after (List.singleton_inj.mp hlast)
  | append_singleton post x _ =>
    rw [← List.cons_append, ← List.append_assoc] at hsplit
    exact hc pre conn before after post (List.append_inj' hsplit rfl).1

end Contexts

section Uids

def firstUids (k : ℕ) : List UInt32 := (List.range k).map fun i => UInt32.ofNat (firstUid + i)

lemma firstUids_succ (k : ℕ) :
    firstUids (k+1) = firstUids k ++ [UInt32.ofNat (firstUid + k)] := by
  simp [firstUids, List.range_succ]

lemma nodup_firstUids_iff (k : ℕ) : (firstUids k).Nodup ↔ k ≤ 2^32 := by
  have hnat : ∀ i : ℕ, (UInt32.ofNat (firstUid + i)).toNat = (firstUid + i) % 2^32 :=
    fun i => UInt32.toNat_ofNat'
  constructor
  · intro hnd
    by_contra hlt
    have hinj := List.inj_on_of_nodup_map hnd
    have h0 : (0 : ℕ) ∈ List.range k := List.mem_range.mpr (by omega)
    have hround : 2^32 ∈ List.range k := List.mem_range.mpr (by omega)
    have := hinj h0 hround (UInt32.toNat_inj.mp (by rw [hnat, hnat]; rfl))
    omega
  · intro hle
    refine List.Nodup.map_on ?_ List.nodup_range
    intro i hi j hj heq
    have := congrArg UInt32.toNat heq
    rw [hnat, hnat] at this
    rw [List.mem_range] at hi hj
    unfold firstUid at this
    omega

end Uids

section Invariant

variable {σ : Type} {A : PacketKey} {handle : Handler σ} {h : Host σ}

structure Host.Inv (h : Host σ) : Prop where
  next_eq : h.server.acl.nextUid = UInt32.ofNat (firstUid + h.accepted.length)
  uids_eq : h.log.filterMap LogEntry.newUid = firstUids h.accepted.length
  known : ∀ conn, (h.server.acl.userContexts conn).isSome ↔ conn ∈ h.accepted
  live_known : ∀ conn, h.live conn → conn ∈ h.accepted
  last_eq : ∀ conn, lastContext conn h.log =
    if h.live conn then h.server.acl.userContexts conn else none
  nodup : h.accepted.Nodup
  no_crash : ∀ conn, .crashed conn ∉ h.log
  initial : ∀ conn usr, .registered conn usr ∈ h.log → usr = UserContext.new usr.uid
  own : Chained h.log

lemma Host.Inv.start (fs : σ) : (Host.start fs).Inv where
  next_eq := rfl
  uids_eq := rfl
  known := by simp [Host.start, ACLayer.init]
  live_known := by simp [Host.start]
  last_eq := by simp [Host.start, lastContext]
  nodup := List.nodup_nil
  no_crash := by simp [Host.start]
  initial := by simp [Host.start]
  own := by
    intro pre conn before after post hsplit
    simp [Host.start] at hsplit

structure Host.Failed (h : Host σ) : Prop where
  down : h.up = false
  crash : ∃ conn, .crashed conn ∈ h.log
  reused : ¬h.accepted.Nodup

lemma Host.Inv.accept_new (hi : h.Inv) {conn : Conn} (hnew : conn ∉ h.accepted) :
    (h.accept A handle conn).Inv := by
  have hnone : h.server.acl.userContexts conn = none := by
    have := mt (hi.known conn).mp hnew
    simpa using this
  have hsome : (h.server.acl.addUserContext conn).userContexts conn =
      some (UserContext.new h.server.acl.nextUid) := ACLayer.setContext_self ..
  have hother : ∀ c, c ≠ conn →
      (h.server.acl.addUserContext conn).userContexts c = h.server.acl.userContexts c :=
    fun c hc => ACLayer.setContext_of_ne _ _ hc
  unfold Host.accept
  rw [handleInMsg_new hnone]
  simp only [hsome]
  refine ⟨?_, ?_, ?_, ?_, ?_, ?_, ?_, ?_, ?_⟩
  · simp only [ACLayer.addUserContext, hi.next_eq, List.length_append, List.length_singleton]
    exact (UInt32.ofNat_add _ 1).symm
  · rw [List.filterMap_append, hi.uids_eq, List.length_append, List.length_singleton,
      firstUids_succ, ← hi.next_eq]
    rfl
  · intro c
    by_cases hc : c = conn
    · subst hc
      simp [hsome]
    · simp [hother c hc, hi.known, hc]
  · intro c hlive
    by_cases hc : c = conn
    · simp [hc]
    · simp only [Function.update_of_ne hc] at hlive
      simp [hi.live_known c hlive]
  · intro c
    by_cases hc : c = conn
    · subst hc
      simp [nextContext, hsome]
    · simp [nextContext, Ne.symm hc, hother c hc, Function.update_of_ne hc, hi.last_eq]
  · rw [List.nodup_append]
    exact ⟨hi.nodup, List.nodup_singleton conn, by
      intro a ha b hb
      rw [List.mem_singleton] at hb
      rintro rfl
      exact hnew (hb ▸ ha)⟩
  · intro c
    simp [hi.no_crash c]
  · intro c usr hmem
    rw [List.mem_append, List.mem_singleton] at hmem
    obtain hmem | hmem := hmem
    · exact hi.initial c usr hmem
    · cases hmem
      rfl
  · exact hi.own.append (by intro c before after heq; cases heq)

lemma Host.Inv.accept_reused (hi : h.Inv) {conn : Conn} (hold : conn ∈ h.accepted) :
    (h.accept A handle conn).Failed := by
  obtain ⟨usr, husr⟩ := Option.isSome_iff_exists.mp ((hi.known conn).mpr hold)
  unfold Host.accept
  rw [handleInMsg_null husr]
  refine ⟨rfl, ⟨conn, by simp⟩, ?_⟩
  intro hnd
  exact (List.nodup_append.mp hnd).2.2 conn hold conn (List.mem_singleton_self conn) rfl

lemma Host.Inv.request (hi : h.Inv) {conn : Conn} (hlive : h.live conn) (ivs : ℕ → Iv)
    (pkt : List UInt8) : (h.request A handle conn ivs pkt).Inv := by
  obtain ⟨usr, husr⟩ := Option.isSome_iff_exists.mp
    ((hi.known conn).mpr (hi.live_known conn hlive))
  obtain ⟨usr', huid, hacl⟩ := handleInMsg_acl A handle husr ivs pkt
  unfold Host.request
  refine ⟨?_, ?_, ?_, hi.live_known, ?_, hi.nodup, ?_, ?_, ?_⟩
  · rw [hacl, ACLayer.setContext_nextUid, hi.next_eq]
  · rw [List.filterMap_append, hi.uids_eq]
    simp [LogEntry.newUid]
  · intro c
    rw [hacl, ← hi.known]
    by_cases hc : c = conn
    · subst hc
      simp [husr]
    · rw [ACLayer.setContext_of_ne _ _ hc]
  · intro c
    rw [hacl, lastContext_append_singleton, hi.last_eq]
    by_cases hc : c = conn
    · subst hc
      simp [nextContext, hlive, hacl]
    · simp [nextContext, Ne.symm hc, ACLayer.setContext_of_ne _ _ hc]
  · intro c
    simp [hi.no_crash c]
  · intro c u hmem
    rw [List.mem_append, List.mem_singleton] at hmem
    obtain hmem | hmem := hmem
    · exact hi.initial c u hmem
    · cases hmem
  · refine hi.own.append ?_
    intro c before after heq
    cases heq
    rw [hi.last_eq, if_pos hlive, husr, hacl, ACLayer.setContext_self]
    exact ⟨rfl, rfl, by simp [huid]⟩

lemma Host.Inv.disconnect (hi : h.Inv) (conn : Conn) : (h.disconnect conn).Inv := by
  unfold Host.disconnect
  refine ⟨hi.next_eq, ?_, hi.known, ?_, ?_, hi.nodup, ?_, ?_, ?_⟩
  · rw [List.filterMap_append, hi.uids_eq]
    simp [LogEntry.newUid]
  · intro c hlive
    by_cases hc : c = conn
    · simp [hc] at hlive
    · exact hi.live_known c (by simpa [Function.update_of_ne hc] using hlive)
  · intro c
    rw [lastContext_append_singleton, hi.last_eq]
    by_cases hc : c = conn
    · simp [nextContext, hc]
    · simp [nextContext, Ne.symm hc, Function.update_of_ne hc]
  · intro c
    simp [hi.no_crash c]
  · intro c u hmem
    rw [List.mem_append, List.mem_singleton] at hmem
    obtain hmem | hmem := hmem
    · exact hi.initial c u hmem
    · cases hmem
  · exact hi.own.append (by intro c before after heq; cases heq)

lemma Host.Inv.step (hi : h.Inv) (ev : ConnEvent) :
    (h.step A handle ev).Inv ∨ (h.step A handle ev).Failed := by
  cases ev with
  | accept conn =>
    simp only [Host.step]
    split_ifs
    · by_cases hold : conn ∈ h.accepted
      · exact .inr (hi.accept_reused hold)
      · exact .inl (hi.accept_new hold)
    · exact .inl hi
  | request conn ivs pkt =>
    simp only [Host.step]
    split_ifs with hup
    · exact .inl (hi.request (by simp at hup; exact hup.2) ivs pkt)
    · exact .inl hi
  | disconnect conn =>
    simp only [Host.step]
    split_ifs
    · exact .inl (hi.disconnect conn)
    · exact .inl hi

lemma Host.Failed.step (hf : h.Failed) (ev : ConnEvent) : (h.step A handle ev).Failed := by
  cases ev <;> simpa [Host.step, hf.down] using hf

variable (A handle) in
lemma Host.run_cases (h₀ : h.Inv ∨ h.Failed) (evs : List ConnEvent) :
    (h.run A handle evs).Inv ∨ (h.run A handle evs).Failed := by
  induction evs generalizing h with
  | nil => exact h₀
  | cons ev evs ih =>
    apply ih
    obtain hi | hf := h₀
    · exact hi.step ev
    · exact .inr (hf.step ev)

end Invariant

/-- Over every run of connections, requests and disconnections, every connection has its own fresh
context if and only if no address was accepted twice and the counter of user ids has not gone
round. -/
theorem own_contexts_iff {σ : Type} (A : PacketKey) (handle : Handler σ) (fs : σ)
    (evs : List ConnEvent) :
    OwnContexts ((Host.start fs).run A handle evs).log ↔
      ((Host.start fs).run A handle evs).accepted.Nodup ∧
        ((Host.start fs).run A handle evs).accepted.length ≤ 2^32 := by
  obtain hi | hf := Host.run_cases A handle (.inl (Host.Inv.start fs)) evs
  · constructor
    · intro hown
      exact ⟨hi.nodup, (nodup_firstUids_iff _).mp (hi.uids_eq ▸ hown.new_uids)⟩
    · rintro ⟨-, hle⟩
      exact ⟨hi.no_crash, hi.initial, hi.uids_eq ▸ (nodup_firstUids_iff _).mpr hle, hi.own⟩
  · obtain ⟨conn, hcrash⟩ := hf.crash
    exact ⟨fun hown => absurd hcrash (hown.no_crash conn), fun hnd => absurd hnd.1 hf.reused⟩

/-- A client connects and leaves, and the object of the next connection gets the same address. -/
theorem reused_address_not_registered :
    let handle : Handler Unit := fun _ _ _ fs => ⟨[], .success, fs⟩
    let evs : List ConnEvent := [.accept 64, .disconnect 64, .accept 64]
    ((Host.start ()).run seqKey handle evs).log =
        [.registered 64 (UserContext.new 1001), .closed 64, .crashed 64] ∧
      ¬OwnContexts ((Host.start ()).run seqKey handle evs).log := by
  intro handle evs
  have hlog : ((Host.start ()).run seqKey handle evs).log =
      [.registered 64 (UserContext.new 1001), .closed 64, .crashed 64] := rfl
  refine ⟨hlog, ?_⟩
  intro hown
  apply hown.no_crash 64
  rw [hlog]
  simp

end Bfs.Server
