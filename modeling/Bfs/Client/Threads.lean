import Bfs.Server.Answered

/-! Threads of one client that make calls over one connection: the steps of a call under `mux_lock`, the
second message of a listing, which is received without the lock, and the order of the replies. -/
namespace Bfs.Client
open ByteSeq Fallible LittleEndian
open Bfs.Fs (Iv)
open Bfs.Native (FsState FsErr formatted rootPath zeroBlk)
open Bfs.Device (PacketKey encryptData decryptData decryptData_encryptData seqKey seqKey_committing)
open Bfs.Rpc Bfs.Server

section Model

/-- What the thread that holds `mux_lock` is doing. An exception behind the receipt of a message keeps
the lock. -/
inductive Held
  | locked (req : Request)
  | awaiting (call : ℕ) (req : Request)
  | decoded (call : ℕ) (req : Request) (plain : List UInt8)
  | failed (call : ℕ)

/-- The threads, the connection and the server. A thread holds the lock, or waits for the entries of a
listing, or is outside of these parts of its calls. Calls are numbered as their requests are sent; the
lists of messages have the number of the call for which the server has sent them, or which has received
them. -/
structure World (σ : Type) where
  lock : Option (ℕ × Held)
  listings : ℕ → Option (ℕ × List UInt8)
  sent : List Request
  recvSeq : UInt32
  served : ℕ
  fs : σ
  up : Bool
  produced : List (ℕ × List UInt8)
  taken : ℕ
  log : List (ℕ × List UInt8)
  finished : List ℕ

def World.start {σ : Type} (fs : σ) : World σ := ⟨none, fun _ => none, [], 0, 0, fs, true, [], 0, [], []⟩

inductive Act
  | acquire (t : ℕ) (req : Request)
  | send (t : ℕ)
  | serve
  | receive (t : ℕ)
  | unlock (t : ℕ)

variable {σ : Type} (A : PacketKey) (ivs : ℕ → Iv) (handle : Handler σ) (uid : UInt32)

def World.packet (w : World σ) : Option (List UInt8) :=
  w.produced[w.taken]?.map fun m => encryptData A (ivs w.taken) (UInt32.ofNat w.taken) m.2

/-- `recv_msgp` for the reply to a call. -/
def World.receiveReply (w : World σ) (t call : ℕ) (req : Request) (pkt : List UInt8) : World σ :=
  match decryptData A w.recvSeq pkt with
  | .error _ => { w with taken := w.taken + 1, lock := some (t, .failed call) }
  | .ok plain => { w with
      taken := w.taken + 1
      recvSeq := w.recvSeq + 1
      log := w.log ++ [(call, plain)]
      lock := some (t, if req.accepts plain then .decoded call req plain else .failed call) }

/-- `recv_msgp` for the entries of a listing. -/
def World.receiveData (w : World σ) (t call : ℕ) (hdr pkt : List UInt8) : World σ :=
  match decryptData A w.recvSeq pkt with
  | .error _ => { w with taken := w.taken + 1, listings := Function.update w.listings t none }
  | .ok plain => { w with
      taken := w.taken + 1
      recvSeq := w.recvSeq + 1
      log := w.log ++ [(call, plain)]
      listings := Function.update w.listings t none
      finished := if plain.length = dataLen hdr then w.finished ++ [call] else w.finished }

def World.receive (w : World σ) (t : ℕ) : World σ :=
  match w.packet A ivs with
  | none => w
  | some pkt =>
    match w.listings t with
    | some (call, hdr) => w.receiveData A t call hdr pkt
    | none =>
      match w.lock with
      | some (t', .awaiting call req) => if t' = t then w.receiveReply A t call req pkt else w
      | _ => w

def World.serve (w : World σ) : World σ :=
  if w.up then
    match w.sent[w.served]? with
    | none => w
    | some req =>
      let h := handle uid req.op req.body w.fs
      { w with
        served := w.served + 1
        fs := h.fs
        up := h.status.returns
        produced := w.produced ++ h.replies.map fun m => (w.served, m) }
  else w

def World.unlock (w : World σ) (t : ℕ) : World σ :=
  match w.lock with
  | some (t', .decoded call req plain) =>
    if t' = t then
      match req with
      | .readdir _ => { w with
          lock := none, listings := Function.update w.listings t (some (call, plain)) }
      | _ => { w with lock := none, finished := w.finished ++ [call] }
    else w
  | _ => w

def World.send (w : World σ) (t : ℕ) : World σ :=
  match w.lock with
  | some (t', .locked req) =>
    if t' = t then { w with lock := some (t, .awaiting w.sent.length req), sent := w.sent ++ [req] }
    else w
  | _ => w

def World.acquire (w : World σ) (t : ℕ) (req : Request) : World σ :=
  if w.lock.isNone ∧ (w.listings t).isNone then { w with lock := some (t, .locked req) } else w

def World.step (w : World σ) : Act → World σ
  | .acquire t req => w.acquire t req
  | .send t => w.send t
  | .serve => w.serve handle uid
  | .receive t => w.receive A ivs t
  | .unlock t => w.unlock t

def World.run (w : World σ) (acts : List Act) : World σ :=
  acts.foldl (World.step A ivs handle uid) w

end Model

section Property

def expected : Request → ℕ
  | .readdir _ => 2
  | _ => 1

def AllOrNone {σ : Type} (req : Request) (h : Handled σ) : Prop :=
  h.replies = [] ∨ h.replies.length = expected req ∨
    h.replies.length < expected req ∧ h.status.returns = false

def Answers {σ : Type} (handle : Handler σ) : Prop :=
  ∀ uid (req : Request) fs, AllOrNone req (handle uid req.op req.body fs)

def World.Alone {σ : Type} (w : World σ) (t : ℕ) : Prop := ∀ t', t' ≠ t → w.listings t' = none

def World.AloneAlong {σ : Type} (A : PacketKey) (ivs : ℕ → Iv) (handle : Handler σ) (uid : UInt32) :
    World σ → List Act → Prop
  | _, [] => True
  | w, act::acts =>
    (∀ t, act = .receive t → w.Alone t) ∧
      World.AloneAlong A ivs handle uid (w.step A ivs handle uid act) acts

end Property

section Invariant

variable {σ : Type}

def World.OwnerPart (w : World σ) (l : List (ℕ × List UInt8)) : Prop :=
  match w.lock with
  | some (_, .awaiting call req) =>
    (w.served = call ∧ l = []) ∨
      (w.served = call + 1 ∧ (∀ m ∈ l, m.1 = call) ∧
        (l = [] ∨ l.length = expected req ∨ l.length < expected req ∧ w.up = false))
  | some (_, .decoded call req _) =>
    (∀ m ∈ l, m.1 = call) ∧
      (l.length + 1 = expected req ∨ l.length + 1 < expected req ∧ w.up = false)
  | some (_, .failed call) => ∀ m ∈ l, m.1 = call
  | _ => l = []

/-- The packets on the way: first the entries of the listing that a thread waits for, which come unless
the server has ended, and then the replies to the thread with the lock. -/
def World.Pending (w : World σ) : Prop :=
  ∃ l₁ l₂, w.produced.drop w.taken = l₁ ++ l₂ ∧ w.OwnerPart l₂ ∧
    (((∀ t, w.listings t = none) ∧ l₁ = []) ∨
      ∃ t call hdr, w.listings t = some (call, hdr) ∧
        ((∃ m, l₁ = [(call, m)]) ∨ (l₁ = [] ∧ l₂ = [] ∧ w.up = false)))

def Held.Quiet : Held → Prop
  | .locked _ => True
  | .awaiting _ _ => True
  | _ => False

def World.OwnerCall (w : World σ) : Held → Prop
  | .locked _ => w.served = w.sent.length
  | .awaiting call req =>
    call + 1 = w.sent.length ∧ w.sent[call]? = some req ∧ (w.served = call ∨ w.served = call + 1)
  | .decoded call _ _ => call < w.sent.length ∧ w.served = w.sent.length
  | .failed call => call < w.sent.length ∧ w.served = w.sent.length

structure World.Inv (w : World σ) : Prop where
  log : w.log = w.produced.take w.taken
  taken : w.taken ≤ w.produced.length
  seq : w.recvSeq = UInt32.ofNat w.taken
  free : w.lock = none → w.served = w.sent.length
  owner : ∀ t h, w.lock = some (t, h) → w.listings t = none ∧ w.OwnerCall h
  listing : ∀ t call hdr, w.listings t = some (call, hdr) →
    (∀ t', t' ≠ t → w.listings t' = none) ∧ call < w.served ∧
      ∀ t' h, w.lock = some (t', h) → h.Quiet ∧ ∀ b req, h = .awaiting b req → call < b
  pending : w.Pending
  finished : ∀ call ∈ w.finished, call < w.served ∧ ∀ m ∈ w.produced.drop w.taken, m.1 ≠ call

end Invariant

section Steps

variable {σ : Type} {w : World σ}

lemma World.Inv.acquire (h : w.Inv) (t : ℕ) (req : Request) : (w.acquire t req).Inv := by
  rw [World.acquire]
  split_ifs with hfree
  · obtain ⟨hlock, hlist⟩ := hfree
    rw [Option.isNone_iff_eq_none] at hlock hlist
    obtain ⟨l₁, l₂, hdrop, hown, hdata⟩ := h.pending
    have hl₂ : l₂ = [] := by simpa [World.OwnerPart, hlock] using hown
    exact {
      log := h.log
      taken := h.taken
      seq := h.seq
      free := by rintro ⟨⟩
      owner := by
        rintro _ _ ⟨⟩
        exact ⟨hlist, h.free hlock⟩
      listing := by
        intro t' call hdr ht
        obtain ⟨halone, hcall, -⟩ := h.listing t' call hdr ht
        refine ⟨halone, hcall, ?_⟩
        rintro _ _ ⟨⟩
        exact ⟨trivial, by rintro _ _ ⟨⟩⟩
      pending := ⟨l₁, l₂, hdrop, hl₂, hdata⟩
      finished := h.finished }
  · exact h

lemma World.Inv.send (h : w.Inv) (t : ℕ) : (w.send t).Inv := by
  rw [World.send]
  split
  case h_1 t' req hlock =>
    split_ifs with ht
    · subst ht
      obtain ⟨hlist, hserved⟩ := h.owner _ _ hlock
      have hserved : w.served = w.sent.length := hserved
      obtain ⟨l₁, l₂, hdrop, hown, hdata⟩ := h.pending
      have hl₂ : l₂ = [] := by simpa [World.OwnerPart, hlock] using hown
      exact {
        log := h.log
        taken := h.taken
        seq := h.seq
        free := by rintro ⟨⟩
        owner := by
          rintro _ _ ⟨⟩
          refine ⟨hlist, ?_, ?_, .inl hserved⟩
          · simp
          · simp
        listing := by
          intro t call hdr hcall
          obtain ⟨halone, hlt, -⟩ := h.listing t call hdr hcall
          refine ⟨halone, hlt, ?_⟩
          rintro _ _ ⟨⟩
          refine ⟨trivial, ?_⟩
          rintro _ _ ⟨⟩
          exact hserved ▸ hlt
        pending := ⟨l₁, l₂, hdrop, .inl ⟨hserved, hl₂⟩, hdata⟩
        finished := h.finished }
    · exact h
  case h_2 => exact h

lemma World.Inv.unserved (h : w.Inv) {req : Request} (hreq : w.sent[w.served]? = some req) :
    ∃ t, w.lock = some (t, .awaiting w.served req) ∧ w.served + 1 = w.sent.length := by
  have hlt : w.served < w.sent.length := (List.getElem?_eq_some_iff.mp hreq).1
  cases hlock : w.lock with
  | none => exact absurd (h.free hlock) hlt.ne
  | some o =>
    obtain ⟨t, held⟩ := o
    have hcall := (h.owner t held hlock).2
    cases held with
    | locked req' => exact absurd hcall hlt.ne
    | decoded call req' plain => exact absurd hcall.2 hlt.ne
    | failed call => exact absurd hcall.2 hlt.ne
    | awaiting call req' =>
      obtain ⟨hlast, hsent, hserved⟩ := hcall
      obtain rfl : w.served = call := by omega
      rw [hreq, Option.some.injEq] at hsent
      exact ⟨t, by rw [hsent], hlast⟩

lemma World.Inv.serve {handle : Handler σ} (hans : Answers handle) (uid : UInt32) (h : w.Inv) :
    (w.serve handle uid).Inv := by
  rw [World.serve]
  split_ifs with hup
  · split
    case h_1 => exact h
    case h_2 req hreq =>
      obtain ⟨t, hlock, hlast⟩ := h.unserved hreq
      obtain ⟨l₁, l₂, hdrop, hown, hdata⟩ := h.pending
      have hl₂ : l₂ = [] := by
        rw [World.OwnerPart, hlock] at hown
        rcases hown with ⟨-, hnil⟩ | ⟨hne, -⟩
        · exact hnil
        · omega
      subst hl₂
      have hdrop' : ∀ new, (w.produced ++ new).drop w.taken = l₁ ++ new := by
        intro new
        rw [List.drop_append_of_le_length h.taken, hdrop, List.append_nil]
      refine {
        log := by
          show w.log = (w.produced ++ _).take w.taken
          rw [List.take_append_of_le_length h.taken, ← h.log]
        taken := by
          show w.taken ≤ (w.produced ++ _).length
          rw [List.length_append]
          exact Nat.le_add_right_of_le h.taken
        seq := h.seq
        free := fun hnone => by rw [hlock] at hnone; cases hnone
        owner := ?_
        listing := ?_
        pending := ⟨l₁, _, hdrop' _, ?_, ?_⟩
        finished := ?_ }
      · intro t' held hheld
        obtain ⟨hlist, hcall⟩ := h.owner t' held hheld
        rw [hlock, Option.some.injEq, Prod.mk.injEq] at hheld
        obtain ⟨rfl, rfl⟩ := hheld
        exact ⟨hlist, hcall.1, hcall.2.1, .inr rfl⟩
      · intro t' call hdr hcall
        obtain ⟨halone, hlt, hquiet⟩ := h.listing t' call hdr hcall
        exact ⟨halone, Nat.lt_succ_of_lt hlt, hquiet⟩
      · simp only [World.OwnerPart, hlock]
        right
        refine ⟨trivial, by simp, ?_⟩
        rw [List.length_map, List.map_eq_nil_iff]
        exact hans uid req w.fs
      · rcases hdata with hnone | ⟨t', call, hdr, ht', hone | ⟨-, -, hdown⟩⟩
        · exact .inl hnone
        · exact .inr ⟨t', call, hdr, ht', .inl hone⟩
        · rw [hup] at hdown
          cases hdown
      · intro call hcall
        obtain ⟨hlt, hne⟩ := h.finished call hcall
        refine ⟨Nat.lt_succ_of_lt hlt, ?_⟩
        show ∀ m ∈ (w.produced ++ _).drop w.taken, m.1 ≠ call
        rw [List.drop_append_of_le_length h.taken]
        intro m hm
        rcases List.mem_append.mp hm with hm | hm
        · exact hne m hm
        · obtain ⟨x, -, rfl⟩ := List.mem_map.mp hm
          exact hlt.ne'
  · exact h

variable {A : PacketKey} {ivs : ℕ → Iv}

lemma World.Inv.packet (hA : Aead.Correct A) (h : w.Inv) {pkt : List UInt8}
    (hpkt : w.packet A ivs = some pkt) : ∃ call m, decryptData A w.recvSeq pkt = .ok m ∧
      w.produced.drop w.taken = (call, m)::w.produced.drop (w.taken + 1) ∧
      w.log ++ [(call, m)] = w.produced.take (w.taken + 1) ∧ w.taken < w.produced.length := by
  obtain ⟨⟨call, m⟩, hnext, rfl⟩ := Option.map_eq_some_iff.mp hpkt
  obtain ⟨hlt, hget⟩ := List.getElem?_eq_some_iff.mp hnext
  refine ⟨call, m, ?_, ?_, ?_, hlt⟩
  · rw [h.seq]
    exact decryptData_encryptData hA _ _ _
  · rw [List.drop_eq_getElem_cons hlt, hget]
  · rw [h.log, List.take_succ_eq_append_getElem hlt, hget]

lemma World.Inv.seq_succ (h : w.Inv) : w.recvSeq + 1 = UInt32.ofNat (w.taken + 1) := by
  rw [h.seq, UInt32.ofNat_add]
  rfl

lemma World.Inv.finished_of_drop (h : w.Inv) {m : ℕ × List UInt8} {rest : List (ℕ × List UInt8)}
    (hdrop : w.produced.drop w.taken = m::rest) :
    ∀ call ∈ w.finished, call < w.served ∧ ∀ m ∈ rest, m.1 ≠ call := by
  intro call hcall
  obtain ⟨hlt, hne⟩ := h.finished call hcall
  refine ⟨hlt, fun m hm => hne m ?_⟩
  rw [hdrop]
  exact List.mem_cons_of_mem _ hm

lemma World.Inv.ne_of_listing (h : w.Inv) {t call : ℕ} {hdr : List UInt8}
    (ht : w.listings t = some (call, hdr)) {l : List (ℕ × List UInt8)} (hown : w.OwnerPart l) :
    ∀ m ∈ l, m.1 ≠ call := by
  obtain ⟨-, -, hquiet⟩ := h.listing t call hdr ht
  rw [World.OwnerPart] at hown
  cases hlock : w.lock with
  | none => simp_all
  | some o =>
    obtain ⟨t', held⟩ := o
    obtain ⟨hq, hlt⟩ := hquiet t' held hlock
    rw [hlock] at hown
    cases held with
    | locked req => simp_all
    | decoded call' req plain => exact hq.elim
    | failed call' => exact hq.elim
    | awaiting call' req =>
      have hcall := hlt call' req rfl
      rcases hown with ⟨-, rfl⟩ | ⟨-, hall, -⟩
      · simp
      · intro m hm
        rw [hall m hm]
        exact hcall.ne'

lemma World.Inv.receiveData (hA : Aead.Correct A) (h : w.Inv) {t call : ℕ} {hdr pkt : List UInt8}
    (ht : w.listings t = some (call, hdr)) (hpkt : w.packet A ivs = some pkt) :
    (w.receiveData A t call hdr pkt).Inv := by
  obtain ⟨c, m, hdec, hdrop, hlog, hlt⟩ := h.packet hA hpkt
  obtain ⟨halone, hserved, hquiet⟩ := h.listing t call hdr ht
  obtain ⟨l₁, l₂, hl, hown, hdata⟩ := h.pending
  -- the first packet on the way is that of the listing
  obtain ⟨rfl, hrest⟩ : c = call ∧ w.produced.drop (w.taken + 1) = l₂ := by
    rcases hdata with ⟨hnone, -⟩ | ⟨t', call', hdr', ht', hone⟩
    · rw [hnone t] at ht
      cases ht
    · obtain rfl : t' = t := by
        by_contra hne
        rw [halone t' hne] at ht'
        cases ht'
      rw [ht, Option.some.injEq, Prod.mk.injEq] at ht'
      obtain ⟨rfl, rfl⟩ := ht'
      rcases hone with ⟨m', rfl⟩ | ⟨rfl, rfl, -⟩
      · rw [hdrop, List.singleton_append, List.cons.injEq, Prod.mk.injEq] at hl
        exact ⟨hl.1.1, hl.2⟩
      · rw [hdrop] at hl
        cases hl
  have hnone : ∀ t', Function.update w.listings t none t' = none := by
    intro t'
    by_cases hne : t' = t
    · rw [hne, Function.update_self]
    · rw [Function.update_of_ne hne, halone t' hne]
  have hfinished := h.finished_of_drop hdrop
  rw [World.receiveData, hdec]
  exact {
    log := hlog
    taken := hlt
    seq := h.seq_succ
    free := h.free
    owner := fun t' held hheld => ⟨hnone t', (h.owner t' held hheld).2⟩
    listing := by
      intro t' call' hdr' ht'
      have ht' : Function.update w.listings t none t' = _ := ht'
      rw [hnone t'] at ht'
      cases ht'
    pending := ⟨[], l₂, hrest, hown, .inl ⟨hnone, rfl⟩⟩
    finished := by
      intro call' hcall'
      have hcall' : call' ∈ if m.length = dataLen hdr then w.finished ++ [c] else w.finished := hcall'
      split_ifs at hcall' with hlen
      · rcases List.mem_append.mp hcall' with hold | hnew
        · exact hfinished call' hold
        · rw [List.mem_singleton.mp hnew]
          refine ⟨hserved, ?_⟩
          show ∀ m ∈ w.produced.drop (w.taken + 1), m.1 ≠ c
          rw [hrest]
          exact h.ne_of_listing ht hown
      · exact hfinished call' hcall' }

lemma World.Inv.receiveReply (hA : Aead.Correct A) (h : w.Inv) {t call : ℕ} {req : Request}
    {pkt : List UInt8} (hlock : w.lock = some (t, .awaiting call req)) (halone : w.Alone t)
    (hpkt : w.packet A ivs = some pkt) : (w.receiveReply A t call req pkt).Inv := by
  obtain ⟨c, m, hdec, hdrop, hlog, hlt⟩ := h.packet hA hpkt
  obtain ⟨hlist, hlast, -, -⟩ := h.owner t _ hlock
  have hnone : ∀ t', w.listings t' = none := by
    intro t'
    by_cases hne : t' = t
    · rw [hne, hlist]
    · exact halone t' hne
  obtain ⟨l₁, l₂, hl, hown, hdata⟩ := h.pending
  have hl₁ : l₁ = [] := by
    rcases hdata with ⟨-, hnil⟩ | ⟨t', call', hdr', ht', -⟩
    · exact hnil
    · rw [hnone t'] at ht'
      cases ht'
  -- the first packet on the way is a reply to the call
  obtain rfl : l₂ = (c, m)::w.produced.drop (w.taken + 1) := by
    rw [← hdrop, hl, hl₁, List.nil_append]
  rw [World.OwnerPart, hlock] at hown
  obtain ⟨hserved, hall, hlen⟩ := hown.resolve_left fun hnil => by cases hnil.2
  obtain rfl : c = call := hall _ List.mem_cons_self
  have hrest : ∀ m ∈ w.produced.drop (w.taken + 1), m.1 = c := fun m hm =>
    hall m (List.mem_cons_of_mem _ hm)
  rw [World.receiveReply, hdec]
  exact {
    log := hlog
    taken := hlt
    seq := h.seq_succ
    free := by rintro ⟨⟩
    owner := by
      rintro _ _ ⟨⟩
      refine ⟨hlist, ?_⟩
      split_ifs
      · exact ⟨hlast ▸ Nat.lt_succ_self c, hserved.trans hlast⟩
      · exact ⟨hlast ▸ Nat.lt_succ_self c, hserved.trans hlast⟩
    listing := by
      intro t' call' hdr' ht'
      have ht' : w.listings t' = some (call', hdr') := ht'
      rw [hnone t'] at ht'
      cases ht'
    pending := by
      refine ⟨[], _, rfl, ?_, .inl ⟨hnone, rfl⟩⟩
      dsimp only [World.OwnerPart]
      split_ifs
      · exact ⟨hrest, hlen.resolve_left (List.cons_ne_nil _ _)⟩
      · exact hrest
    finished := h.finished_of_drop hdrop }

lemma World.Inv.receive (hA : Aead.Correct A) (h : w.Inv) {t : ℕ} (halone : w.Alone t) :
    (w.receive A ivs t).Inv := by
  rw [World.receive]
  split
  case h_1 => exact h
  case h_2 pkt hpkt =>
    split
    case h_1 call hdr ht => exact h.receiveData hA ht hpkt
    case h_2 =>
      split
      case h_1 t' call req hlock =>
        split_ifs with ht
        · subst ht
          exact h.receiveReply hA hlock halone hpkt
        · exact h
      case h_2 => exact h

lemma World.Inv.decoded (h : w.Inv) {t call : ℕ} {req : Request} {plain : List UInt8}
    (hlock : w.lock = some (t, .decoded call req plain)) : (∀ t', w.listings t' = none) ∧
      (∀ m ∈ w.produced.drop w.taken, m.1 = call) ∧
      ((w.produced.drop w.taken).length + 1 = expected req ∨
        (w.produced.drop w.taken).length + 1 < expected req ∧ w.up = false) := by
  have hnone : ∀ t', w.listings t' = none := by
    intro t'
    by_contra hne
    obtain ⟨⟨call', hdr'⟩, ht'⟩ := Option.ne_none_iff_exists'.mp hne
    exact ((h.listing t' call' hdr' ht').2.2 t _ hlock).1
  obtain ⟨l₁, l₂, hl, hown, hdata⟩ := h.pending
  have hl₁ : l₁ = [] := by
    rcases hdata with ⟨-, hnil⟩ | ⟨t', call', hdr', ht', -⟩
    · exact hnil
    · rw [hnone t'] at ht'
      cases ht'
  rw [World.OwnerPart, hlock] at hown
  rw [hl, hl₁, List.nil_append]
  exact ⟨hnone, hown⟩

lemma World.Inv.finish (h : w.Inv) {t call : ℕ} {req : Request} {plain : List UInt8}
    (hlock : w.lock = some (t, .decoded call req plain)) (hone : expected req = 1) :
    ({ w with lock := none, finished := w.finished ++ [call] } : World σ).Inv := by
  obtain ⟨hlist, hcall, hserved⟩ := h.owner t _ hlock
  obtain ⟨hnone, -, hlen⟩ := h.decoded hlock
  have hnil : w.produced.drop w.taken = [] := by
    rw [hone] at hlen
    apply List.eq_nil_of_length_eq_zero
    omega
  exact {
    log := h.log
    taken := h.taken
    seq := h.seq
    free := fun _ => hserved
    owner := by rintro _ _ ⟨⟩
    listing := by
      intro t' call' hdr' ht'
      have ht' : w.listings t' = some (call', hdr') := ht'
      rw [hnone t'] at ht'
      cases ht'
    pending := ⟨[], [], hnil, rfl, .inl ⟨hnone, rfl⟩⟩
    finished := by
      intro call' hcall'
      refine ⟨?_, ?_⟩
      · rcases List.mem_append.mp hcall' with hold | hnew
        · exact (h.finished call' hold).1
        · rw [List.mem_singleton.mp hnew]
          show call < w.served
          omega
      · show ∀ m ∈ w.produced.drop w.taken, _
        rw [hnil]
        simp }

lemma World.Inv.header (h : w.Inv) {t call : ℕ} {fh : UInt64} {plain : List UInt8}
    (hlock : w.lock = some (t, .decoded call (.readdir fh) plain)) :
    ({ w with lock := none,
              listings := Function.update w.listings t (some (call, plain)) } : World σ).Inv := by
  obtain ⟨-, hcall, hserved⟩ := h.owner t _ hlock
  obtain ⟨hnone, hall, hlen⟩ := h.decoded hlock
  exact {
    log := h.log
    taken := h.taken
    seq := h.seq
    free := fun _ => hserved
    owner := by rintro _ _ ⟨⟩
    listing := by
      intro t' call' hdr' ht'
      have ht' : Function.update w.listings t (some (call, plain)) t' = _ := ht'
      obtain rfl : t' = t := by
        by_contra hne
        rw [Function.update_of_ne hne, hnone t'] at ht'
        cases ht'
      rw [Function.update_self, Option.some.injEq, Prod.mk.injEq] at ht'
      obtain ⟨rfl, rfl⟩ := ht'
      refine ⟨fun t'' hne => ?_, ?_, by rintro _ _ ⟨⟩⟩
      · show Function.update w.listings t' _ t'' = none
        rw [Function.update_of_ne hne, hnone t'']
      · show call < w.served
        omega
    pending := by
      refine ⟨w.produced.drop w.taken, [], (List.append_nil _).symm, rfl, .inr ⟨t, call, plain,
        Function.update_self .., ?_⟩⟩
      rcases hlen with hlen | ⟨hlen, hup⟩
      · left
        obtain ⟨⟨c, m⟩, hm⟩ := List.length_eq_one_iff.mp (Nat.succ.inj hlen)
        refine ⟨m, ?_⟩
        rw [hm]
        rw [hm] at hall
        rw [← hall (c, m) List.mem_cons_self]
      · right
        refine ⟨List.eq_nil_of_length_eq_zero ?_, rfl, hup⟩
        simp only [expected] at hlen
        omega
    finished := h.finished }

lemma World.Inv.unlock (h : w.Inv) (t : ℕ) : (w.unlock t).Inv := by
  rw [World.unlock]
  split
  case h_1 t' call req plain hlock =>
    split_ifs with ht
    · subst ht
      split
      case h_1 => exact h.header hlock
      case h_2 hne =>
        refine h.finish hlock ?_
        cases req <;> first | rfl | exact absurd rfl (hne _)
    · exact h
  case h_2 => exact h

end Steps

section NativeServer

open Bfs.Native

variable (t : Times) {σ : Type}

end NativeServer

section Runs

variable {σ : Type} {A : PacketKey} {ivs : ℕ → Iv} {handle : Handler σ} {uid : UInt32}

lemma World.Inv.step (hA : Aead.Correct A) (hans : Answers handle) {w : World σ} (h : w.Inv)
    {act : Act} (halone : ∀ t, act = .receive t → w.Alone t) :
    (w.step A ivs handle uid act).Inv := by
  cases act with
  | acquire t req => exact h.acquire t req
  | send t => exact h.send t
  | serve => exact h.serve hans uid
  | receive t => exact h.receive hA (halone t rfl)
  | unlock t => exact h.unlock t

lemma World.Inv.run (hA : Aead.Correct A) (hans : Answers handle) {w : World σ} (h : w.Inv)
    {acts : List Act} (halone : w.AloneAlong A ivs handle uid acts) :
    (w.run A ivs handle uid acts).Inv := by
  induction acts generalizing w with
  | nil => exact h
  | cons act acts ih => exact ih (h.step hA hans halone.1) halone.2

def Act.By (t : ℕ) : Act → Prop
  | .acquire t' _ => t' = t
  | .send t' => t' = t
  | .serve => True
  | .receive t' => t' = t
  | .unlock t' => t' = t

lemma World.alone_update {w w' : World σ} {t : ℕ} {x : Option (ℕ × List UInt8)} (h : w.Alone t)
    (hw : w'.listings = Function.update w.listings t x) : w'.Alone t := by
  intro t' hne
  rw [hw, Function.update_of_ne hne, h t' hne]

lemma World.Alone.step {w : World σ} {t : ℕ} (h : w.Alone t) {act : Act} (hact : act.By t) :
    (w.step A ivs handle uid act).Alone t := by
  cases act with
  | acquire t' req =>
    rw [World.step, World.acquire]
    split_ifs
    · exact h
    · exact h
  | send t' =>
    rw [World.step, World.send]
    split
    · split_ifs
      · exact h
      · exact h
    · exact h
  | serve =>
    rw [World.step, World.serve]
    split_ifs
    · split
      · exact h
      · exact h
    · exact h
  | receive t' =>
    obtain rfl : t' = t := hact
    rw [World.step, World.receive]
    split
    · exact h
    · split
      · rw [World.receiveData]
        split
        · exact World.alone_update h rfl
        · exact World.alone_update h rfl
      · split
        · split_ifs
          · rw [World.receiveReply]
            split
            · exact h
            · exact h
          · exact h
        · exact h
  | unlock t' =>
    obtain rfl : t' = t := hact
    rw [World.step, World.unlock]
    split
    · split_ifs
      · split
        · exact World.alone_update h rfl
        · exact h
      · exact h
    · exact h

end Runs

end Bfs.Client
