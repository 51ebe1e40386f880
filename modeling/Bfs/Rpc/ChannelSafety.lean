import Bfs.Rpc.Session

/-! What an adversary on the network can do to the calls of a client: as long as no packet of another
connection is delivered, the server dispatches the first requests of the client in order, and the
client accepts the replies to its own requests only. -/
namespace Bfs.Rpc
open Fallible ByteSeq LittleEndian
open Bfs.Fs (Iv ivLen)
open Bfs.Device (PacketKey encryptData decryptData eq_of_decryptData prefix_concat uint32_ofNat_inj
  uint32_ofNat_succ seqKey seqKey_committing)
open Bfs.Server

section Frames

def msgType (m : List UInt8) : Option UInt32 :=
  match takeHeader m with
  | .error _ => none
  | .ok ((mtype, _), _) => some mtype

@[simp] lemma msgType_header (t : MsgType) (op : OpType) (rest : List UInt8) :
    msgType (header t op rest) = some t.code := by
  rw [msgType, takeHeader_header]

lemma msgType_of_accepts {req : Request} {m : List UInt8} (h : req.accepts m = true) :
    msgType m = some MsgType.fromServer.code := by
  unfold Request.accepts at h
  split at h
  · cases h
  · rename_i mtype otype rest hhead
    simp only [Bool.and_eq_true, beq_iff_eq] at h
    rw [msgType, hhead, h.1.1]

/-- The first reply to a request begins with the type of a reply, and a second one does not look like
a message with a header. -/
structure Framed {σ : Type} (handle : Handler σ) : Prop where
  first : ∀ uid op rest fs m, (handle uid op rest fs).replies.head? = some m →
    msgType m = some MsgType.fromServer.code
  later : ∀ uid op rest fs, ∀ m ∈ (handle uid op rest fs).replies.tail,
    msgType m ≠ some MsgType.fromServer.code ∧ msgType m ≠ some MsgType.toServer.code

end Frames

section Sealed

def SealedAt (A : PacketKey) (msgs : List (List UInt8)) (pkt : List UInt8) : Prop :=
  ∃ i iv m, msgs[i]? = some m ∧ pkt = encryptData A iv (UInt32.ofNat i) m

lemma SealedAt.append {A : PacketKey} {msgs : List (List UInt8)} {pkt : List UInt8}
    (h : SealedAt A msgs pkt) (msgs' : List (List UInt8)) : SealedAt A (msgs ++ msgs') pkt := by
  obtain ⟨i, iv, m, hm, hpkt⟩ := h
  refine ⟨i, iv, m, ?_, hpkt⟩
  rw [List.getElem?_append_left (List.getElem?_eq_some_iff.mp hm).1, hm]

lemma SealedAt.opens {A : PacketKey} (hA : Aead.Committing A) {msgs : List (List UInt8)}
    {pkt plain : List UInt8} (h : SealedAt A msgs pkt) (hlen : msgs.length < 2^32) {k : ℕ}
    (hk : k < 2^32) (hdec : decryptData A (UInt32.ofNat k) pkt = .ok plain) :
    msgs[k]? = some plain := by
  obtain ⟨i, iv, m, hm, rfl⟩ := h
  obtain ⟨hseq, rfl⟩ := eq_of_decryptData hA hdec
  have hi := (List.getElem?_eq_some_iff.mp hm).1
  obtain rfl := uint32_ofNat_inj hk (hi.trans hlen) hseq
  exact hm

lemma sealedAt_sealReplies {A : PacketKey} {ivs : ℕ → Iv} {k : ℕ} {replies : List (List UInt8)}
    {msgs : List (List UInt8)} (hk : msgs.length = k) {pkt : List UInt8}
    (h : pkt ∈ sealReplies A ivs (UInt32.ofNat k) replies) : SealedAt A (msgs ++ replies) pkt := by
  obtain ⟨j, hj, rfl⟩ := List.mem_iff_getElem.mp h
  rw [sealReplies, List.length_mapIdx] at hj
  refine ⟨k + j, ivs j, replies[j], ?_, ?_⟩
  · rw [List.getElem?_append_right (by omega), hk, Nat.add_sub_cancel_left,
      List.getElem?_eq_getElem hj]
  · simp [sealReplies, UInt32.ofNat_add]

end Sealed

section Session

def Session.finished (q : Session) : ℕ :=
  match q.client.phase with
  | .idle => q.sent.length
  | .awaitingData _ => q.sent.length
  | _ => q.sent.length - 1

/-- What holds of the history of a connection: what the counters count, where the packets come from,
and which replies were accepted. -/
structure Session.Inv (A : PacketKey) (usr : UserContext) (pkts : List UInt8 → Prop) (q : Session) :
    Prop where
  send_eq : q.client.sendSeq = UInt32.ofNat q.sent.length
  recv_eq : q.client.phase ≠ .ended → q.client.recvSeq = UInt32.ofNat q.accepted.length
  usr_send : usr.userSendSeq = UInt32.ofNat q.produced.length
  usr_recv : ∃ v, usr.userRecvSeq = UInt32.ofNat v ∧ q.dispatched.length ≤ v ∧
    (v ≤ q.sent.length ∨ v ≤ q.produced.length)
  origin : ∀ pkt, pkts pkt → SealedAt A (q.sent.map Request.bytes) pkt ∨
    SealedAt A (q.produced.map Prod.snd) pkt
  requests : q.dispatched <+: q.sent.map Request.bytes
  replies : q.accepted <+: q.produced
  numbered : ∀ p ∈ q.produced, p.1 < q.dispatched.length
  ordered : q.produced.Pairwise fun p p' => p.1 ≤ p'.1
  types : ∀ p ∈ q.produced, msgType p.2 ≠ some MsgType.toServer.code
  later : ∀ k n m m', q.produced[k]? = some (n, m) → (n, m') ∈ q.produced.take k →
    msgType m ≠ some MsgType.fromServer.code
  heads : ∀ n < q.finished, ∃ m, (n, m) ∈ q.accepted

def Session.Bounded (q : Session) : Prop := q.sent.length < 2^32 ∧ q.produced.length < 2^32

namespace Session.Inv

variable {A : PacketKey} {usr : UserContext} {pkts : List UInt8 → Prop} {q : Session}

lemma new (A : PacketKey) (uid : UInt32) :
    Session.new.Inv A (UserContext.new uid) fun _ => False where
  send_eq := rfl
  recv_eq := fun _ => rfl
  usr_send := rfl
  usr_recv := ⟨0, rfl, le_rfl, .inl le_rfl⟩
  origin := fun _ h => h.elim
  requests := List.prefix_rfl
  replies := List.prefix_rfl
  numbered := by simp [Session.new]
  ordered := List.Pairwise.nil
  types := by simp [Session.new]
  later := by simp [Session.new]
  heads := by simp [Session.new, Session.finished, Client.new]

lemma finished_ge (q : Session) : q.sent.length - 1 ≤ q.finished := by
  unfold Session.finished
  split <;> omega

lemma finished_le (hi : q.Inv A usr pkts) : q.finished ≤ q.dispatched.length := by
  by_contra hlt
  obtain ⟨m, hm⟩ := hi.heads (q.finished - 1) (by omega)
  have := hi.numbered _ (hi.replies.subset hm)
  simp only at this
  omega

lemma sent_le (hi : q.Inv A usr pkts) : q.sent.length ≤ q.dispatched.length + 1 := by
  have := hi.finished_le
  have := finished_ge q
  omega

lemma finished_le_accepted (hi : q.Inv A usr pkts) : q.finished ≤ q.accepted.length := by
  have hsub : Finset.range q.finished ⊆ (q.accepted.map Prod.fst).toFinset := by
    intro n hn
    obtain ⟨m, hm⟩ := hi.heads n (Finset.mem_range.mp hn)
    exact List.mem_toFinset.mpr (List.mem_map_of_mem (f := Prod.fst) hm)
  calc q.finished = (Finset.range q.finished).card := (Finset.card_range _).symm
    _ ≤ (q.accepted.map Prod.fst).toFinset.card := Finset.card_le_card hsub
    _ ≤ (q.accepted.map Prod.fst).length := List.toFinset_card_le _
    _ = q.accepted.length := List.length_map _

lemma opened (hA : Aead.Committing A) (hi : q.Inv A usr pkts) (hb : q.Bounded)
    {pkt plain : List UInt8} (hpkt : pkts pkt) {k : ℕ} (hk : k < 2^32)
    (hdec : decryptData A (UInt32.ofNat k) pkt = .ok plain) :
    (∃ req, q.sent[k]? = some req ∧ plain = req.bytes) ∨ ∃ n, q.produced[k]? = some (n, plain) := by
  obtain hs | hs := hi.origin pkt hpkt
  · have hget := hs.opens hA (by rw [List.length_map]; exact hb.1) hk hdec
    rw [List.getElem?_map, Option.map_eq_some_iff] at hget
    obtain ⟨req, hreq, rfl⟩ := hget
    exact .inl ⟨req, hreq, rfl⟩
  · have hget := hs.opens hA (by rw [List.length_map]; exact hb.2) hk hdec
    rw [List.getElem?_map, Option.map_eq_some_iff] at hget
    obtain ⟨⟨n, m⟩, hreq, rfl⟩ := hget
    exact .inr ⟨n, hreq⟩

lemma call (hi : q.Inv A usr pkts) (hidle : q.client.phase = .idle) (iv : Iv) (req : Request) :
    (q.call req).Inv A usr
      fun p => pkts p ∨ p = encryptData A iv q.client.sendSeq req.bytes := by
  obtain ⟨v, hv, hle, hbound⟩ := hi.usr_recv
  have hfin : q.finished = q.sent.length := by rw [Session.finished, hidle]
  unfold Session.call
  refine ⟨?_, ?_, hi.usr_send, ⟨v, hv, hle, ?_⟩, ?_, ?_, hi.replies, hi.numbered, hi.ordered,
    hi.types, hi.later, ?_⟩
  · rw [hi.send_eq, List.length_append, List.length_singleton, uint32_ofNat_succ]
  · exact fun _ => hi.recv_eq (by rw [hidle]; exact Phase.noConfusion)
  · refine hbound.imp_left fun h => ?_
    rw [List.length_append]
    exact h.trans (Nat.le_add_right _ _)
  · intro pkt hpkt
    rw [List.map_append]
    obtain hpkt | rfl := hpkt
    · exact (hi.origin pkt hpkt).imp_left fun h => h.append _
    · refine .inl ⟨q.sent.length, iv, req.bytes, ?_, by rw [hi.send_eq]⟩
      rw [List.getElem?_append_right (by rw [List.length_map]), List.length_map, Nat.sub_self]
      rfl
  · rw [List.map_append]
    exact hi.requests.trans (List.prefix_append _ _)
  · intro n hn
    apply hi.heads n
    simp only [Session.finished, List.length_append, List.length_singleton,
      Nat.add_sub_cancel] at hn
    rwa [hfin]

lemma ended (hi : q.Inv A usr pkts) (seq : UInt32) :
    ({ q with client := ⟨q.client.sendSeq, seq, .ended⟩ } : Session).Inv A usr pkts :=
  { hi with
    recv_eq := fun h => absurd rfl h
    heads := fun n hn => hi.heads n (lt_of_lt_of_le hn (finished_ge q)) }

lemma number_of_reply (hi : q.Inv A usr pkts) {req : Request}
    (hphase : q.client.phase = .awaiting req) {n : ℕ} {m : List UInt8}
    (hget : q.produced[q.accepted.length]? = some (n, m))
    (hm : msgType m = some MsgType.fromServer.code) : n = q.sent.length - 1 := by
  have hlt := hi.numbered _ (List.mem_of_getElem? hget)
  have hle := hi.requests.length_le
  rw [List.length_map] at hle
  simp only at hlt
  -- an earlier request has its first reply already, and its other replies are no replies to a call
  by_contra hne
  obtain ⟨m', hm'⟩ := hi.heads n (by simp only [Session.finished, hphase]; omega)
  rw [List.prefix_iff_eq_take.mp hi.replies] at hm'
  exact hi.later _ n m m' hget hm' hm

lemma number_of_data (hi : q.Inv A usr pkts) {len : ℕ}
    (hphase : q.client.phase = .awaitingData len) {n : ℕ} {m : List UInt8}
    (hget : q.produced[q.accepted.length]? = some (n, m)) : n = q.sent.length - 1 := by
  have hlt := hi.numbered _ (List.mem_of_getElem? hget)
  have hle := hi.requests.length_le
  rw [List.length_map] at hle
  simp only at hlt
  obtain ⟨m', hm'⟩ := hi.heads (q.sent.length - 1)
    (by simp only [Session.finished, hphase]; omega)
  obtain ⟨j, hj, hjget⟩ := List.mem_iff_getElem.mp hm'
  obtain ⟨hk, hkget⟩ := List.getElem?_eq_some_iff.mp hget
  have hord := List.pairwise_iff_getElem.mp hi.ordered j _ (hj.trans hk) hk hj
  rw [← hi.replies.getElem hj, hjget, hkget] at hord
  simp only at hord
  omega

lemma accept (hi : q.Inv A usr pkts) (hne : q.client.phase ≠ .ended) {m : List UInt8}
    (hget : q.produced[q.accepted.length]? = some (q.sent.length - 1, m)) (phase : Phase) :
    ({ q with
      client := ⟨q.client.sendSeq, q.client.recvSeq + 1, phase⟩
      accepted := q.accepted ++ [(q.sent.length - 1, m)] } : Session).Inv A usr pkts := by
  refine { hi with recv_eq := ?_, replies := prefix_concat hi.replies hget, heads := ?_ }
  · intro _
    simp only [hi.recv_eq hne, List.length_append, List.length_singleton, uint32_ofNat_succ]
  · intro n hn
    by_cases hlast : n = q.sent.length - 1
    · exact ⟨m, by simp [hlast]⟩
    · have hle : n < q.sent.length := lt_of_lt_of_le hn (by
        unfold Session.finished
        split <;> simp)
      obtain ⟨m', hm'⟩ := hi.heads n (lt_of_lt_of_le (by omega) (finished_ge q))
      exact ⟨m', List.mem_append_left _ hm'⟩

lemma received (hA : Aead.Committing A) (hi : q.Inv A usr pkts) (hb : q.Bounded)
    {pkt : List UInt8} (hadm : (∃ seq plain, decryptData A seq pkt = .ok plain) → pkts pkt) :
    (q.received A pkt).Inv A usr pkts := by
  have hk : q.accepted.length < 2^32 := lt_of_le_of_lt hi.replies.length_le hb.2
  cases hphase : q.client.phase with
  | idle =>
    simp only [Session.received, Client.receive, hphase, Option.toList_none, List.map_nil,
      List.append_nil]
    exact hi
  | ended =>
    simp only [Session.received, Client.receive, hphase, Option.toList_none, List.map_nil,
      List.append_nil]
    exact hi
  | awaiting req =>
    have hne : q.client.phase ≠ .ended := by
      rw [hphase]
      exact Phase.noConfusion
    cases hdec : decryptData A q.client.recvSeq pkt with
    | error e =>
      simp only [Session.received, Client.receive, hphase, hdec, Option.toList_none, List.map_nil,
        List.append_nil]
      exact hi.ended _
    | ok plain =>
      have hpkt := hadm ⟨_, _, hdec⟩
      by_cases hacc : req.accepts plain = true
      · simp only [Session.received, Client.receive, hphase, hdec, if_pos hacc,
          Option.toList_some, List.map_cons, List.map_nil]
        rw [hi.recv_eq hne] at hdec
        obtain ⟨req', -, rfl⟩ | ⟨n, hget⟩ := hi.opened hA hb hpkt hk hdec
        · -- the client's own request, reflected
          have htype := msgType_of_accepts hacc
          rw [Request.bytes, msgType_header] at htype
          exact absurd htype (by decide)
        · obtain rfl := hi.number_of_reply hphase hget (msgType_of_accepts hacc)
          exact hi.accept hne hget _
      · simp only [Session.received, Client.receive, hphase, hdec, if_neg hacc,
          Option.toList_none, List.map_nil, List.append_nil]
        exact hi.ended _
  | awaitingData len =>
    have hne : q.client.phase ≠ .ended := by
      rw [hphase]
      exact Phase.noConfusion
    cases hdec : decryptData A q.client.recvSeq pkt with
    | error e =>
      simp only [Session.received, Client.receive, hphase, hdec, Option.toList_none, List.map_nil,
        List.append_nil]
      refine { hi with recv_eq := fun _ => hi.recv_eq hne, heads := ?_ }
      intro n hn
      exact hi.heads n (by simpa only [Session.finished, hphase] using hn)
    | ok plain =>
      have hpkt := hadm ⟨_, _, hdec⟩
      by_cases hlen : plain.length = len
      · simp only [Session.received, Client.receive, hphase, hdec, if_pos hlen,
          Option.toList_some, List.map_cons, List.map_nil]
        rw [hi.recv_eq hne] at hdec
        obtain ⟨req', hget, -⟩ | ⟨n, hget⟩ := hi.opened hA hb hpkt hk hdec
        · -- all requests sent have numbers below the one that is waited for
          have hlt := (List.getElem?_eq_some_iff.mp hget).1
          have hle := hi.finished_le_accepted
          simp only [Session.finished, hphase] at hle
          omega
        · obtain rfl := hi.number_of_data hphase hget
          exact hi.accept hne hget _
      · simp only [Session.received, Client.receive, hphase, hdec, if_neg hlen,
          Option.toList_none, List.map_nil, List.append_nil]
        exact hi.ended _

end Session.Inv

end Session

section Served

variable {σ : Type} {A : PacketKey} {handle : Handler σ} {usr : UserContext}
  {pkts : List UInt8 → Prop} {q : Session}

variable (A handle usr) in
lemma dispatch_of_not_request (ivs : ℕ → Iv) (s : State σ) (conn : Conn) {plain : List UInt8}
    (h : msgType plain ≠ some MsgType.toServer.code) :
    (dispatch A handle ivs s conn usr plain).dispatched = none ∧
      (dispatch A handle ivs s conn usr plain).sent = [] ∧
      (dispatch A handle ivs s conn usr plain).state.acl = s.acl.setContext conn usr := by
  unfold msgType at h
  unfold dispatch
  cases hheader : takeHeader plain with
  | error e => exact ⟨rfl, rfl, rfl⟩
  | ok r =>
    obtain ⟨⟨mtype, otype⟩, rest⟩ := r
    rw [hheader] at h
    dsimp only
    rw [if_pos fun hmtype => h (congrArg some hmtype)]
    exact ⟨rfl, rfl, rfl⟩

lemma dispatch_request {ivs : ℕ → Iv} {s : State σ} {conn : Conn} (req : Request) :
    dispatch A handle ivs s conn usr req.bytes =
      let h := handle usr.uid req.op req.body s.fs
      ⟨h.status, sealReplies A ivs usr.userSendSeq h.replies, some (req.bytes, h.replies),
        ⟨s.acl.setContext conn
          { usr with userSendSeq := usr.userSendSeq + UInt32.ofNat h.replies.length }, h.fs⟩⟩ := by
  simp [dispatch, Request.bytes]

lemma Session.Inv.dispatched (hi : q.Inv A usr pkts) {req : Request}
    (hget : q.sent[q.dispatched.length]? = some req) {replies : List (List UInt8)}
    (hfirst : ∀ m, replies.head? = some m → msgType m = some MsgType.fromServer.code)
    (hlater : ∀ m ∈ replies.tail, msgType m ≠ some MsgType.fromServer.code ∧
      msgType m ≠ some MsgType.toServer.code) {ivs : ℕ → Iv} :
    ({ q with
      dispatched := q.dispatched ++ [req.bytes]
      produced := q.produced ++ replies.map fun m => (q.dispatched.length, m) } : Session).Inv A
      { usr with
        userSendSeq := usr.userSendSeq + UInt32.ofNat replies.length
        userRecvSeq := UInt32.ofNat (q.dispatched.length + 1) }
      fun p => pkts p ∨ p ∈ sealReplies A ivs usr.userSendSeq replies := by
  have hlt := (List.getElem?_eq_some_iff.mp hget).1
  have hnew : ∀ p ∈ replies.map fun m => (q.dispatched.length, m), p.1 = q.dispatched.length := by
    intro p hp
    obtain ⟨m, -, rfl⟩ := List.mem_map.mp hp
    rfl
  refine ⟨hi.send_eq, hi.recv_eq, ?_, ?_, ?_, ?_, hi.replies.trans (List.prefix_append _ _), ?_, ?_,
    ?_, ?_, hi.heads⟩
  · simp only [hi.usr_send, List.length_append, List.length_map, UInt32.ofNat_add]
  · refine ⟨q.dispatched.length + 1, rfl, ?_, .inl hlt⟩
    rw [List.length_append, List.length_singleton]
  · intro pkt hpkt
    have hmap : (q.produced ++ replies.map fun m => (q.dispatched.length, m)).map Prod.snd =
        q.produced.map Prod.snd ++ replies := by simp [Function.comp_def]
    rw [hmap]
    obtain hpkt | hpkt := hpkt
    · exact (hi.origin pkt hpkt).imp_right fun h => h.append _
    · rw [hi.usr_send] at hpkt
      exact .inr (sealedAt_sealReplies (List.length_map _) hpkt)
  · refine prefix_concat hi.requests ?_
    rw [List.getElem?_map, hget]
    rfl
  · intro p hp
    rw [List.length_append, List.length_singleton]
    obtain hp | hp := List.mem_append.mp hp
    · exact (hi.numbered p hp).trans (Nat.lt_succ_self _)
    · rw [hnew p hp]
      exact Nat.lt_succ_self _
  · refine List.pairwise_append.mpr ⟨hi.ordered, ?_, ?_⟩
    · refine List.pairwise_of_forall_mem_list ?_
      intro p hp p' hp'
      rw [hnew p hp, hnew p' hp']
    · intro p hp p' hp'
      rw [hnew p' hp']
      exact (hi.numbered p hp).le
  · intro p hp
    obtain hp | hp := List.mem_append.mp hp
    · exact hi.types p hp
    · obtain ⟨m, hm, rfl⟩ := List.mem_map.mp hp
      cases replies with
      | nil => cases hm
      | cons m₀ replies =>
        obtain rfl | hm := List.mem_cons.mp hm
        · rw [hfirst m rfl]
          decide
        · exact (hlater m hm).2
  · intro k n m m' hk hm'
    by_cases hlow : k < q.produced.length
    · rw [List.getElem?_append_left hlow] at hk
      rw [List.take_append_of_le_length hlow.le] at hm'
      exact hi.later k n m m' hk hm'
    · rw [List.getElem?_append_right (by omega), List.getElem?_map, Option.map_eq_some_iff] at hk
      obtain ⟨m₁, hk, heq⟩ := hk
      cases heq
      -- a later reply to the request that was just dispatched
      cases hj : k - q.produced.length with
      | zero =>
        rw [show k = q.produced.length by omega, List.take_left' rfl] at hm'
        exact absurd (hi.numbered _ hm') (lt_irrefl _)
      | succ j =>
        rw [hj] at hk
        refine (hlater m ?_).1
        cases replies with
        | nil => cases hk
        | cons m₀ replies => exact List.mem_of_getElem? (by simpa using hk)

lemma Session.Inv.served (hA : Aead.Committing A) (hF : Framed handle) (hi : q.Inv A usr pkts)
    (hb : q.Bounded) {s : State σ} {conn : Conn} (husr : s.acl.userContexts conn = some usr)
    (ivs : ℕ → Iv) {pkt : List UInt8}
    (hadm : (∃ seq plain, decryptData A seq pkt = .ok plain) → pkts pkt) :
    let r := handleInMsg A handle ivs s conn (some pkt)
    ∃ usr', r.state.acl.userContexts conn = some usr' ∧
      (q.served r).Inv A usr' fun p => pkts p ∨ p ∈ r.sent := by
  intro r
  obtain ⟨v, hv, hle, hbound⟩ := hi.usr_recv
  have hv32 : v < 2^32 := by
    obtain ⟨hs, hp⟩ := hb
    omega
  cases hdec : decryptData A usr.userRecvSeq pkt with
  | error e =>
    have hr : r = ⟨decryptStatus e, [], none, s⟩ := handleInMsg_error husr hdec ivs
    rw [hr]
    exact ⟨usr, husr, { hi with origin := fun p hp => hi.origin p (by simpa using hp) }⟩
  | ok plain =>
    have hr : r = dispatch A handle ivs s conn
        { usr with userRecvSeq := usr.userRecvSeq + 1 } plain := handleInMsg_ok husr hdec ivs
    rw [hv] at hdec
    rw [hr, hv, uint32_ofNat_succ]
    obtain ⟨req, hget, rfl⟩ | ⟨n, hget⟩ := hi.opened hA hb (hadm ⟨_, _, hdec⟩) hv32 hdec
    · -- the counter is at the next request, since the client has sent no other one
      have hsent := hi.sent_le
      obtain rfl : v = q.dispatched.length := by
        have := (List.getElem?_eq_some_iff.mp hget).1
        omega
      rw [dispatch_request]
      exact ⟨_, ACLayer.setContext_self .., hi.dispatched hget (hF.first usr.uid req.op req.body s.fs)
        (hF.later usr.uid req.op req.body s.fs)⟩
    · obtain ⟨hnone, hsent, hacl⟩ := dispatch_of_not_request A handle
        { usr with userRecvSeq := UInt32.ofNat (v+1) } ivs s conn
        (hi.types _ (List.mem_of_getElem? hget))
      refine ⟨{ usr with userRecvSeq := UInt32.ofNat (v+1) }, ?_, ?_⟩
      · rw [hacl, ACLayer.setContext_self]
      · simp only [Session.served, hnone, hsent]
        refine { hi with usr_recv := ⟨v+1, rfl, by omega, .inr ?_⟩, origin := ?_ }
        · exact (List.getElem?_eq_some_iff.mp hget).1
        · exact fun p hp => hi.origin p (by simpa using hp)

end Served

section Run

variable {σ : Type} (A : PacketKey) (handle : Handler σ)

def Net.Authentic (s : Net σ) : NetAct → Prop
  | .toServer _ _ pkt => (∃ seq plain, decryptData A seq pkt = .ok plain) → ∃ c, (c, pkt) ∈ s.wire
  | .toClient _ pkt => (∃ seq plain, decryptData A seq pkt = .ok plain) → ∃ c, (c, pkt) ∈ s.wire
  | _ => True

def Net.SameConnection (s : Net σ) : NetAct → Prop
  | .toServer conn _ pkt => (∃ seq plain, decryptData A seq pkt = .ok plain) → (conn, pkt) ∈ s.wire
  | .toClient conn pkt => (∃ seq plain, decryptData A seq pkt = .ok plain) → (conn, pkt) ∈ s.wire
  | _ => True

def Net.Bounded (s : Net σ) : Prop := ∀ conn q, s.sessions conn = some q → q.Bounded

def Net.Along (P : Net σ → NetAct → Prop) : Net σ → List NetAct → Prop
  | _, [] => True
  | s, act :: acts => P s act ∧ Along P (s.step A handle act) acts

structure Net.Inv (s : Net σ) : Prop where
  session : ∀ conn q, s.sessions conn = some q → ∃ usr, s.server.acl.userContexts conn = some usr ∧
    q.Inv A usr fun p => (conn, p) ∈ s.wire
  used : ∀ conn p, (conn, p) ∈ s.wire → (s.sessions conn).isSome

variable {A handle} {s : Net σ}

lemma Session.Inv.of_pkts {usr : UserContext} {pkts pkts' : List UInt8 → Prop} {q : Session}
    (hi : q.Inv A usr pkts) (h : ∀ p, pkts' p → pkts p) : q.Inv A usr pkts' :=
  { hi with origin := fun p hp => hi.origin p (h p hp) }

lemma Net.Inv.start (fs : σ) : (Net.start fs).Inv A where
  session := by simp [Net.start]
  used := by simp [Net.start]

lemma Net.Inv.update (hi : s.Inv A) {t : Net σ} {conn : Conn} {q' : Session} {usr' : UserContext}
    (hs : t.sessions = Function.update s.sessions conn (some q'))
    (hacl : ∀ c, c ≠ conn → t.server.acl.userContexts c = s.server.acl.userContexts c)
    (hwire : ∀ c p, c ≠ conn → (c, p) ∈ t.wire → (c, p) ∈ s.wire)
    (husr : t.server.acl.userContexts conn = some usr')
    (hq : q'.Inv A usr' fun p => (conn, p) ∈ t.wire) : t.Inv A := by
  constructor
  · intro c q hc
    rw [hs] at hc
    by_cases heq : c = conn
    · subst heq
      rw [Function.update_self] at hc
      cases hc
      exact ⟨usr', husr, hq⟩
    · rw [Function.update_of_ne heq] at hc
      obtain ⟨usr, hu, hold⟩ := hi.session c q hc
      exact ⟨usr, by rw [hacl c heq, hu], hold.of_pkts fun p => hwire c p heq⟩
  · intro c p hp
    rw [hs]
    by_cases heq : c = conn
    · simp [heq]
    · rw [Function.update_of_ne heq]
      exact hi.used c p (hwire c p heq hp)

lemma Net.Inv.step (hA : Aead.Committing A) (hF : Framed handle) (hi : s.Inv A) (hb : s.Bounded)
    {act : NetAct} (hadm : s.SameConnection A act) : (s.step A handle act).Inv A := by
  cases act with
  | connect conn =>
    simp only [Net.step]
    cases hq : s.sessions conn with
    | some q => exact hi
    | none =>
      refine hi.update (t := Net.setSession _ conn Session.new) rfl
        (fun c hc => ACLayer.setContext_of_ne _ _ hc) (fun c p _ hp => hp)
        (ACLayer.setContext_self ..) ?_
      refine (Session.Inv.new A _).of_pkts fun p hp => ?_
      have := hi.used conn p hp
      rw [hq] at this
      cases this
  | call conn iv req =>
    simp only [Net.step]
    cases hq : s.sessions conn with
    | none => exact hi
    | some q =>
      obtain ⟨usr, husr, hold⟩ := hi.session conn q hq
      dsimp only
      split_ifs with hidle
      · refine hi.update (t := Net.setSession _ conn (q.call req)) rfl (fun c _ => rfl) ?_ husr
          ((hold.call hidle iv req).of_pkts ?_)
        · intro c p hc hp
          simpa [Net.setSession, hc] using hp
        · intro p hp
          simpa [Net.setSession] using hp
      · exact hi
  | toServer conn ivs pkt =>
    simp only [Net.step]
    cases hq : s.sessions conn with
    | none => exact hi
    | some q =>
      obtain ⟨usr, husr, hold⟩ := hi.session conn q hq
      dsimp only
      split_ifs
      · obtain ⟨usr', husr', hnew⟩ := hold.served hA hF (hb conn q hq) husr ivs hadm
        obtain ⟨usr₁, -, hacl⟩ := handleInMsg_acl A handle husr ivs pkt
        refine hi.update (t := Net.setSession _ conn _) rfl ?_ ?_ husr' (hnew.of_pkts ?_)
        · intro c hc
          simp only [Net.setSession, hacl, ACLayer.setContext_of_ne _ _ hc]
        · intro c p hc hp
          simpa [Net.setSession, Ne.symm hc] using hp
        · intro p hp
          simpa [Net.setSession] using hp
      · exact hi
  | toClient conn pkt =>
    simp only [Net.step]
    cases hq : s.sessions conn with
    | none => exact hi
    | some q =>
      obtain ⟨usr, husr, hold⟩ := hi.session conn q hq
      exact hi.update (t := Net.setSession _ conn _) rfl (fun c _ => rfl) (fun c p _ hp => hp) husr
        (hold.received hA (hb conn q hq) hadm)
  | hangUp conn =>
    simp only [Net.step]
    cases hq : s.sessions conn with
    | none => exact hi
    | some q =>
      obtain ⟨usr, husr, hold⟩ := hi.session conn q hq
      exact hi.update (t := Net.setSession _ conn _) rfl (fun c _ => rfl) (fun c p _ hp => hp) husr
        (hold.ended _)

lemma Net.Inv.run (hA : Aead.Committing A) (hF : Framed handle) (hi : s.Inv A) {acts : List NetAct}
    (hadm : s.Along A handle (fun s act => s.Bounded ∧ s.SameConnection A act) acts) :
    (s.run A handle acts).Inv A := by
  induction acts generalizing s with
  | nil => exact hi
  | cons act acts ih => exact ih (hi.step hA hF hadm.1.1 hadm.1.2) hadm.2

end Run

/-- As long as the adversary delivers on a connection only what was sent on it, the server dispatches
the first requests of the client in their order, each once, and the messages that the client accepts,
with the numbers of its requests, are the first replies of the server. -/
theorem session_safe {σ : Type} {A : PacketKey} (hA : Aead.Committing A) {handle : Handler σ}
    (hF : Framed handle) (fs : σ) {acts : List NetAct}
    (hadm : (Net.start fs).Along A handle (fun s act => s.Bounded ∧ s.SameConnection A act) acts)
    {conn : Conn} {q : Session}
    (hq : ((Net.start fs).run A handle acts).sessions conn = some q) :
    q.dispatched <+: q.sent.map Request.bytes ∧ q.accepted <+: q.produced := by
  obtain ⟨usr, -, hi⟩ := ((Net.Inv.start fs).run hA hF hadm).session conn q hq
  exact ⟨hi.requests, hi.replies⟩

section Example

lemma Net.Bounded.setSession {σ : Type} {s : Net σ} (hs : s.Bounded) {q : Session} (hq : q.Bounded)
    (conn : Conn) : (s.setSession conn q).Bounded := by
  intro c q' hc
  by_cases heq : c = conn
  · subst heq
    simp only [Net.setSession, Function.update_self, Option.some.injEq] at hc
    subst hc
    exact hq
  · simp only [Net.setSession, Function.update_of_ne heq] at hc
    exact hs c q' hc

def ackHandler : Handler Unit := fun _ op _ fs => ⟨[header .fromServer op (u32 0)], .success, fs⟩

lemma ackHandler_framed : Framed ackHandler where
  first := by
    intro uid op rest fs m hm
    cases hm
    exact msgType_header ..
  later := by
    intro uid op rest fs m hm
    cases hm

def zeroIv : Iv := Buf.fill 0 ivLen

def unlinkA : Request := .unlink [47, 97]
def unlinkPkt : List UInt8 := encryptData seqKey zeroIv 0 unlinkA.bytes
def unlinkReply : List UInt8 := header .fromServer .unlink (u32 0)

def unlinking : List NetAct :=
  [.connect 64, .call 64 zeroIv unlinkA, .toServer 64 (fun _ => zeroIv) unlinkPkt,
    .toClient 64 (encryptData seqKey zeroIv 0 unlinkReply)]

def unlinked : Session :=
  ⟨⟨1, 1, .idle⟩, [unlinkA], [unlinkA.bytes], [(0, unlinkReply)], [(0, unlinkReply)]⟩

theorem session_safe_unlinking :
    ((Net.start ()).run seqKey ackHandler unlinking).sessions 64 = some unlinked ∧
      unlinked.dispatched <+: unlinked.sent.map Request.bytes ∧
      unlinked.accepted <+: unlinked.produced := by
  have hend : ((Net.start ()).run seqKey ackHandler unlinking).sessions 64 = some unlinked := rfl
  have h₀ : (Net.start ()).Bounded := by simp [Net.Bounded, Net.start]
  have h₁ : ((Net.start ()).run seqKey ackHandler (unlinking.take 1)).Bounded :=
    Net.Bounded.setSession h₀ (q := Session.new) ⟨by decide, by decide⟩ 64
  have h₂ : ((Net.start ()).run seqKey ackHandler (unlinking.take 2)).Bounded :=
    Net.Bounded.setSession h₁ (q := Session.new.call unlinkA) ⟨by decide, by decide⟩ 64
  have h₃ : ((Net.start ()).run seqKey ackHandler (unlinking.take 3)).Bounded :=
    Net.Bounded.setSession h₂ (q := { unlinked with client := ⟨1, 0, .awaiting unlinkA⟩, accepted := [] })
      ⟨by decide, by decide⟩ 64
  refine ⟨hend, session_safe seqKey_committing ackHandler_framed () ?_ hend⟩
  exact ⟨⟨h₀, trivial⟩, ⟨h₁, trivial⟩, ⟨h₂, fun _ => List.mem_singleton_self _⟩,
    ⟨h₃, fun _ => List.mem_cons_of_mem _ (List.mem_singleton_self _)⟩, trivial⟩

def crossing : List NetAct :=
  [.connect 64, .connect 65, .call 64 zeroIv unlinkA, .toServer 65 (fun _ => zeroIv) unlinkPkt]

/-- The server executes for the second user what only the first one has asked for. -/
theorem request_replayed_on_other_connection :
    (Net.start ()).Along seqKey ackHandler (fun s act => s.Authentic seqKey act) crossing ∧
      ∃ q, ((Net.start ()).run seqKey ackHandler crossing).sessions 65 = some q ∧
        q.sent = [] ∧ q.dispatched = [unlinkA.bytes] ∧
        ¬q.dispatched <+: q.sent.map Request.bytes := by
  refine ⟨⟨trivial, trivial, trivial, fun _ => ⟨64, List.mem_singleton_self _⟩, trivial⟩, ?_⟩
  refine ⟨{ Session.new with
    dispatched := [unlinkA.bytes], produced := [(0, unlinkReply)] }, rfl, rfl, rfl, ?_⟩
  intro hp
  exact absurd hp.length_le (by decide)

end Example

end Bfs.Rpc
