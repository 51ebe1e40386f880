import Bfs.Device.RemoteArray

/-! A remote device and its network device with an adversary between them, who holds back, repeats,
reorders and reflects the packets of both. -/
namespace Bfs.Device
open ByteSeq LittleEndian Fallible
open Bfs.Fs (Iv ivLen Block blkSz)

structure Net where
  rd : RemoteDevice
  /-- The network device, unless it has shut down. -/
  nd : Option NetworkDevice
  /-- The packets sent by either end. -/
  wire : List (List UInt8)
  /-- The command that waits for its response. -/
  pending : Option Request
  /-- The commands of the remote device, in order. -/
  issued : List (Header × List UInt8)
  /-- The commands that the network device executed, in order. -/
  executed : List (Header × List UInt8)
  /-- What the network device answered to each command it executed. -/
  responses : List (Header × List UInt8)
  /-- The commands of the remote device that succeeded, by number, with the response accepted. -/
  answers : List (ℕ × (Header × List UInt8))

def Net.start (nd : NetworkDevice) : Net := ⟨RemoteDevice.init, some nd, [], none, [], [], [], []⟩

inductive NetAct
  | issue (iv : Iv) (req : Request)
  | toDevice (iv : Iv) (pkt : List UInt8)
  | toRemote (pkt : List UInt8)
  | noAnswer

section Step

variable (A : PacketKey)

def Net.step (s : Net) : NetAct → Net
  | .issue iv req =>
    match s.pending with
    | some _ => s
    | none => { s with
        rd := (s.rd.send A iv req).2
        wire := s.wire ++ [(s.rd.send A iv req).1]
        pending := some req
        issued := s.issued ++ [(req.header s.rd.deviceID, req.data)] }
  | .toDevice iv pkt =>
    match s.nd with
    | none => s
    | some nd =>
      match nd.serve A pkt with
      | .error _ => { s with nd := none }
      | .ok (cmd, resp, storage) => { s with
          nd := some (nd.advance storage)
          wire := s.wire ++ [marshalBfsDevicePacket A iv resp.1 nd.sendSeq resp.2]
          executed := s.executed ++ [cmd]
          responses := s.responses ++ [resp] }
  | .toRemote pkt =>
    match s.pending with
    | none => s
    | some req =>
      match s.rd.receive A req pkt, unmarshalBfsDevicePacket A s.rd.recvSeq pkt with
      | (.ok _, rd), .ok resp => { s with
          rd
          pending := none
          answers := s.answers ++ [(s.issued.length - 1, resp)] }
      | (_, rd), _ => { s with rd, pending := none }
  | .noAnswer => { s with pending := none }

def Net.run (s : Net) (acts : List NetAct) : Net := acts.foldl (Net.step A) s

def Net.Admissible (s : Net) : NetAct → Prop
  | .toDevice _ pkt => (∃ seq buf, decryptData A seq pkt = .ok buf) → pkt ∈ s.wire
  | .toRemote pkt => (∃ seq buf, decryptData A seq pkt = .ok buf) → pkt ∈ s.wire
  | _ => True

def Net.AdmissibleRun : Net → List NetAct → Prop
  | _, [] => True
  | s, act :: acts => s.Admissible A act ∧ AdmissibleRun (s.step A act) acts

end Step

@[simp] lemma Net.run_nil (A : PacketKey) (s : Net) : s.run A [] = s := rfl
@[simp] lemma Net.run_cons (A : PacketKey) (s : Net) (act : NetAct) (acts : List NetAct) :
    s.run A (act :: acts) = (s.step A act).run A acts := rfl

lemma Net.run_append (A : PacketKey) (s : Net) (acts acts' : List NetAct) :
    s.run A (acts ++ acts') = (s.run A acts).run A acts' := List.foldl_append

lemma Net.admissibleRun_append {A : PacketKey} {s : Net} {acts acts' : List NetAct}
    (h : s.AdmissibleRun A acts) (h' : (s.run A acts).AdmissibleRun A acts') :
    s.AdmissibleRun A (acts ++ acts') := by
  induction acts generalizing s with
  | nil => exact h'
  | cons act acts ih => exact ⟨h.1, ih h.2 h'⟩

def SentAt (A : PacketKey) (cs : List (Header × List UInt8)) (pkt : List UInt8) : Prop :=
  ∃ i iv c, cs[i]? = some c ∧ pkt = marshalBfsDevicePacket A iv c.1 (UInt32.ofNat i) c.2

lemma SentAt.append {A : PacketKey} {cs : List (Header × List UInt8)} {pkt : List UInt8}
    (h : SentAt A cs pkt) (c : Header × List UInt8) : SentAt A (cs ++ [c]) pkt := by
  obtain ⟨i, iv, c', hc, hpkt⟩ := h
  refine ⟨i, iv, c', ?_, hpkt⟩
  rw [List.getElem?_append_left (List.getElem?_eq_some_iff.mp hc).1, hc]

lemma sentAt_last (A : PacketKey) (cs : List (Header × List UInt8)) (c : Header × List UInt8)
    (iv : Iv) : SentAt A (cs ++ [c])
      (marshalBfsDevicePacket A iv c.1 (UInt32.ofNat cs.length) c.2) :=
  ⟨cs.length, iv, c, List.getElem?_concat_length, rfl⟩

def Net.waiting (s : Net) : ℕ := if s.pending.isSome then 1 else 0

structure Net.Inv (A : PacketKey) (s : Net) : Prop where
  wire_origin : ∀ pkt ∈ s.wire, SentAt A s.issued pkt ∨ SentAt A s.responses pkt
  issued_ack : ∀ c ∈ s.issued, c.1.ack = false
  response_ack : ∀ c ∈ s.responses, c.1.ack = true
  send_eq : s.rd.sendSeq = UInt32.ofNat s.issued.length
  device_eq : ∀ nd, s.nd = some nd → nd.recvSeq = UInt32.ofNat s.executed.length ∧
    nd.sendSeq = UInt32.ofNat s.executed.length
  served_eq : s.executed.length = s.responses.length
  executed_prefix : s.executed <+: s.issued
  recv_eq : ∃ k, s.rd.recvSeq = UInt32.ofNat k ∧ s.answers.length ≤ k ∧
    k + s.waiting ≤ s.issued.length
  answers_eq : ∀ (i n : ℕ) c, s.answers[i]? = some (n, c) →
    (∃ m ≤ n, s.responses[m]? = some c) ∧ (n = i → s.responses[n]? = some c)

namespace Net.Inv

variable {A : PacketKey} {s : Net}

lemma start (A : PacketKey) {nd : NetworkDevice} (hsend : nd.sendSeq = 0) (hrecv : nd.recvSeq = 0) :
    (Net.start nd).Inv A where
  wire_origin := by simp [Net.start]
  issued_ack := by simp [Net.start]
  response_ack := by simp [Net.start]
  send_eq := rfl
  device_eq := by
    intro nd' hnd
    cases hnd
    exact ⟨hrecv, hsend⟩
  served_eq := rfl
  executed_prefix := List.prefix_rfl
  recv_eq := ⟨0, rfl, le_rfl, le_rfl⟩
  answers_eq := by simp [Net.start]

/-- A packet from the wire that opens under number `k` is the command or the response of that number;
the acknowledgement flag tells which. -/
lemma unmarshal_wire (hA : Aead.Committing A) (hi : s.Inv A) (hlt : s.issued.length < 2^32)
    {pkt : List UInt8} (hpkt : pkt ∈ s.wire) {k : ℕ} (hk : k < 2^32) {c : Header × List UInt8}
    (hun : unmarshalBfsDevicePacket A (UInt32.ofNat k) pkt = .ok c) :
    (c.1.ack = false → s.issued[k]? = some c) ∧ (c.1.ack = true → s.responses[k]? = some c) := by
  have hresp : s.responses.length ≤ s.issued.length := hi.served_eq ▸ hi.executed_prefix.length_le
  obtain ⟨i, iv, c', hc', rfl⟩ | ⟨i, iv, c', hc', rfl⟩ := hi.wire_origin pkt hpkt
  · obtain ⟨hseq, hh, hbuf⟩ := eq_of_unmarshal hA hun
    obtain rfl : c = c' := Prod.ext hh hbuf
    have hlen := (List.getElem?_eq_some_iff.mp hc').1
    obtain rfl := uint32_ofNat_inj hk (hlen.trans hlt) hseq
    have hack := hi.issued_ack c (List.mem_of_getElem? hc')
    exact ⟨fun _ => hc', fun htrue => absurd htrue (by simp [hack])⟩
  · obtain ⟨hseq, hh, hbuf⟩ := eq_of_unmarshal hA hun
    obtain rfl : c = c' := Prod.ext hh hbuf
    have hlen := (List.getElem?_eq_some_iff.mp hc').1
    obtain rfl := uint32_ofNat_inj hk (by omega) hseq
    have hack := hi.response_ack c (List.mem_of_getElem? hc')
    exact ⟨fun hfalse => absurd hfalse (by simp [hack]), fun _ => hc'⟩

lemma issue (hi : s.Inv A) (iv : Iv) (req : Request) : (s.step A (.issue iv req)).Inv A := by
  cases hpend : s.pending with
  | some req' => simpa only [Net.step, hpend] using hi
  | none =>
    obtain ⟨k, hk, hans, hle⟩ := hi.recv_eq
    have hsend := hi.send_eq
    simp only [Net.step, hpend]
    refine ⟨?_, ?_, hi.response_ack, ?_, hi.device_eq, hi.served_eq, ?_, ?_, hi.answers_eq⟩
    · intro pkt hpkt
      rw [List.mem_append, List.mem_singleton] at hpkt
      obtain hpkt | rfl := hpkt
      · exact (hi.wire_origin pkt hpkt).imp_left fun h => h.append _
      · left
        rw [RemoteDevice.send, hsend]
        exact sentAt_last A s.issued _ iv
    · intro c hc
      rw [List.mem_append, List.mem_singleton] at hc
      obtain hc | rfl := hc
      · exact hi.issued_ack c hc
      · rfl
    · rw [List.length_append, List.length_singleton, RemoteDevice.send, ← uint32_ofNat_succ, hsend]
    · exact hi.executed_prefix.trans (List.prefix_append _ _)
    · refine ⟨k, hk, hans, ?_⟩
      simp only [Net.waiting, Option.isSome_some, if_true, List.length_append, List.length_singleton]
      omega

lemma executes_next (hA : Aead.Committing A) (hi : s.Inv A) (hlt : s.issued.length < 2^32)
    {iv : Iv} {pkt : List UInt8} (hadm : s.Admissible A (.toDevice iv pkt)) {nd : NetworkDevice}
    (hnd : s.nd = some nd) {cmd resp : Header × List UInt8} {storage : DeviceStorage}
    (hserve : nd.serve A pkt = .ok (cmd, resp, storage)) :
    s.issued[s.executed.length]? = some cmd ∧ resp.1.ack = true := by
  obtain ⟨⟨h, buf⟩, hun, hrest⟩ := bind_eq_ok.mp hserve
  obtain ⟨plain, hdec, -⟩ := bind_eq_ok.mp hun
  have hwire := hadm ⟨_, _, hdec⟩
  simp only at hrest
  split_ifs at hrest with hbad
  obtain ⟨⟨did, rbuf, s'⟩, -, hr⟩ := bind_eq_ok.mp hrest
  cases hr
  have hack : h.ack = false := by simpa using (not_or.mp hbad).2
  have hk : s.executed.length < 2^32 := lt_of_le_of_lt hi.executed_prefix.length_le hlt
  rw [(hi.device_eq nd hnd).1] at hun
  exact ⟨(hi.unmarshal_wire hA hlt hwire hk hun).1 hack, rfl⟩

lemma toDevice (hA : Aead.Committing A) (hi : s.Inv A) (hlt : s.issued.length < 2^32)
    {iv : Iv} {pkt : List UInt8} (hadm : s.Admissible A (.toDevice iv pkt)) :
    (s.step A (.toDevice iv pkt)).Inv A := by
  cases hnd : s.nd with
  | none => simpa only [Net.step, hnd] using hi
  | some nd =>
    cases hserve : nd.serve A pkt with
    | error e =>
      simp only [Net.step, hnd, hserve]
      exact { hi with device_eq := by rintro nd' ⟨⟩ }
    | ok r =>
      obtain ⟨cmd, resp, storage⟩ := r
      obtain ⟨hnext, hack⟩ := hi.executes_next hA hlt hadm hnd hserve
      obtain ⟨hrecv, hsend⟩ := hi.device_eq nd hnd
      have hserved := hi.served_eq
      simp only [Net.step, hnd, hserve]
      refine ⟨?_, hi.issued_ack, ?_, hi.send_eq, ?_, ?_, prefix_concat hi.executed_prefix hnext,
        hi.recv_eq, ?_⟩
      · intro p hp
        rw [List.mem_append, List.mem_singleton] at hp
        obtain hp | rfl := hp
        · exact (hi.wire_origin p hp).imp_right fun h => h.append _
        · right
          rw [hsend, hserved]
          exact sentAt_last A s.responses resp iv
      · intro c hc
        rw [List.mem_append, List.mem_singleton] at hc
        obtain hc | rfl := hc
        · exact hi.response_ack c hc
        · exact hack
      · intro nd' hnd'
        cases hnd'
        rw [List.length_append, List.length_singleton, ← uint32_ofNat_succ]
        exact ⟨by rw [NetworkDevice.advance_recvSeq, hrecv],
          by rw [NetworkDevice.advance_sendSeq, hsend]⟩
      · rw [List.length_append, List.length_append, hserved]
        rfl
      · intro i n c hc
        have hkeep : ∀ m : ℕ, s.responses[m]? = some c → (s.responses ++ [resp])[m]? = some c := by
          intro m hm
          rw [List.getElem?_append_left (List.getElem?_eq_some_iff.mp hm).1, hm]
        obtain ⟨⟨m, hmn, hm⟩, hin⟩ := hi.answers_eq i n c hc
        exact ⟨⟨m, hmn, hkeep m hm⟩, fun heq => hkeep n (hin heq)⟩

end Net.Inv

lemma RemoteDevice.receive_cases (A : PacketKey) (rd : RemoteDevice) (req : Request)
    (pkt : List UInt8) :
    (∃ e, rd.receive A req pkt = (.error e, rd)) ∨
    ∃ c, unmarshalBfsDevicePacket A rd.recvSeq pkt = .ok c ∧ req.Accepts rd.deviceID c.1 c.2 ∧
      ((∃ e, rd.receive A req pkt = (.error e, { rd with recvSeq := rd.recvSeq + 1 })) ∨
        ∃ reply, rd.receive A req pkt =
          (.ok reply, RemoteDevice.update { rd with recvSeq := rd.recvSeq + 1 } reply)) := by
  unfold RemoteDevice.receive
  cases hun : unmarshalBfsDevicePacket A rd.recvSeq pkt with
  | error e => exact .inl ⟨e, rfl⟩
  | ok c =>
    by_cases haccept : req.Accepts rd.deviceID c.1 c.2
    · right
      refine ⟨c, rfl, haccept, ?_⟩
      simp only [if_pos haccept]
      cases req.decode c.2 with
      | error e => exact .inl ⟨e, rfl⟩
      | ok reply => exact .inr ⟨reply, rfl⟩
    · left
      simp only [if_neg haccept]
      exact ⟨_, rfl⟩

namespace Net.Inv

variable {A : PacketKey} {s : Net}

lemma fail (hi : s.Inv A) : ({ s with pending := none } : Net).Inv A := by
  obtain ⟨k, hk, hans, hle⟩ := hi.recv_eq
  exact { hi with recv_eq := ⟨k, hk, hans, le_trans (Nat.add_le_add_left (Nat.zero_le _) k) hle⟩ }

lemma toRemote (hA : Aead.Committing A) (hi : s.Inv A) (hlt : s.issued.length < 2^32)
    {pkt : List UInt8} (hadm : s.Admissible A (.toRemote pkt)) :
    (s.step A (.toRemote pkt)).Inv A := by
  cases hpend : s.pending with
  | none => simpa only [Net.step, hpend] using hi
  | some req =>
    obtain ⟨k, hk, hans, hle⟩ := hi.recv_eq
    have hle' : k + 1 ≤ s.issued.length := by simpa [Net.waiting, hpend] using hle
    obtain ⟨e, hrecv⟩ | ⟨c, hun, haccept, hrest⟩ := s.rd.receive_cases A req pkt
    · simp only [Net.step, hpend, hrecv]
      exact hi.fail
    · have hsucc : s.rd.recvSeq + 1 = UInt32.ofNat (k+1) := by rw [hk, uint32_ofNat_succ]
      obtain ⟨e, hrecv⟩ | ⟨reply, hrecv⟩ := hrest
      · simp only [Net.step, hpend, hrecv]
        exact { hi with recv_eq := ⟨k+1, hsucc, hans.trans (Nat.le_succ k), hle'⟩ }
      · have hresp : s.responses[k]? = some c := by
          obtain ⟨plain, hdec, -⟩ := bind_eq_ok.mp hun
          have hwire := hadm ⟨_, _, hdec⟩
          rw [hk] at hun
          exact (hi.unmarshal_wire hA hlt hwire (by omega) hun).2 haccept.2.2.2.1
        simp only [Net.step, hpend, hrecv, hun]
        refine { hi with send_eq := ?_, recv_eq := ⟨k+1, ?_, ?_, hle'⟩, answers_eq := ?_ }
        · rw [RemoteDevice.update_sendSeq]
          exact hi.send_eq
        · rw [RemoteDevice.update_recvSeq]
          exact hsucc
        · rw [List.length_append, List.length_singleton]
          omega
        · intro i n c' hc'
          rw [List.getElem?_append] at hc'
          split_ifs at hc' with hi'
          · exact hi.answers_eq i n c' hc'
          · -- the new answer: its number lies between the answers so far and the commands so far
            have hi0 : i = s.answers.length := by
              have := (List.getElem?_eq_some_iff.mp hc').1
              rw [List.length_singleton] at this
              omega
            subst hi0
            rw [Nat.sub_self] at hc'
            cases hc'
            refine ⟨⟨k, by omega, hresp⟩, ?_⟩
            intro heq
            obtain rfl : k = s.issued.length - 1 := by omega
            exact hresp

lemma step (hA : Aead.Committing A) (hi : s.Inv A) (hlt : s.issued.length < 2^32) {act : NetAct}
    (hadm : s.Admissible A act) : (s.step A act).Inv A := by
  cases act with
  | issue iv req => exact hi.issue iv req
  | toDevice iv pkt => exact hi.toDevice hA hlt hadm
  | toRemote pkt => exact hi.toRemote hA hlt hadm
  | noAnswer => exact hi.fail

end Net.Inv

lemma Net.issued_length_step (A : PacketKey) (s : Net) (act : NetAct) :
    s.issued.length ≤ (s.step A act).issued.length := by
  cases act with
  | issue iv req =>
    cases hpend : s.pending with
    | some req' => simp only [Net.step, hpend, le_refl]
    | none => simp only [Net.step, hpend, List.length_append, Nat.le_add_right]
  | toDevice iv pkt =>
    simp only [Net.step]
    split
    · exact le_rfl
    · split <;> exact le_rfl
  | toRemote pkt =>
    simp only [Net.step]
    split
    · exact le_rfl
    · split <;> exact le_rfl
  | noAnswer => exact le_rfl

lemma Net.issued_length_run (A : PacketKey) (s : Net) (acts : List NetAct) :
    s.issued.length ≤ (s.run A acts).issued.length := by
  induction acts generalizing s with
  | nil => exact le_rfl
  | cons act acts ih => exact (s.issued_length_step A act).trans (ih _)

lemma Net.Inv.run {A : PacketKey} {s : Net} (hA : Aead.Committing A) (hi : s.Inv A)
    {acts : List NetAct} (hadm : s.AdmissibleRun A acts)
    (hlt : (s.run A acts).issued.length < 2^32) : (s.run A acts).Inv A := by
  induction acts generalizing s with
  | nil => exact hi
  | cons act acts ih =>
    have hlt' := lt_of_le_of_lt ((s.issued_length_step A act).trans
      (Net.issued_length_run A _ acts)) hlt
    exact ih (hi.step hA hlt' hadm.1) hadm.2 hlt

/-- Whatever the adversary does, the network device executes the first commands of the remote device
in their order, each once. Every answer that the remote device accepts for its command `n` is the
response to a command up to `n`; it is the response to command `n` if all commands before it were
answered. -/
theorem channel_safe {A : PacketKey} (hA : Aead.Committing A) {nd : NetworkDevice}
    (hsend : nd.sendSeq = 0) (hrecv : nd.recvSeq = 0) {acts : List NetAct}
    (hadm : (Net.start nd).AdmissibleRun A acts)
    (hlt : ((Net.start nd).run A acts).issued.length < 2^32) :
    ((Net.start nd).run A acts).executed <+: ((Net.start nd).run A acts).issued ∧
    ∀ (i n : ℕ) resp, ((Net.start nd).run A acts).answers[i]? = some (n, resp) →
      (∃ m ≤ n, ((Net.start nd).run A acts).responses[m]? = some resp) ∧
      (n = i → ((Net.start nd).run A acts).responses[n]? = some resp) := by
  have hi := (Net.Inv.start A hsend hrecv).run hA hadm hlt
  exact ⟨hi.executed_prefix, hi.answers_eq⟩

section Example

def zeroIv : Iv := Buf.fill 0 ivLen

def wirePacket (seq : UInt32) (c : Header × List UInt8) : List UInt8 :=
  marshalBfsDevicePacket seqKey zeroIv c.1 seq c.2

def askTopo : Header × List UInt8 := (Request.getTopo.header 0, Request.getTopo.data)
def sayTopo : Header × List UInt8 := (⟨1, 1, DeviceMsg.getTopo.code, true⟩, topoBytes 1 2)
def askBlock : Header × List UInt8 := ((Request.getBlock 0).header 1, (Request.getBlock 0).data)
def sayBlock (blk : Block) : Header × List UInt8 :=
  (⟨1, 1, DeviceMsg.getBlock.code, true⟩, u64 0 ++ blk.toList)

def twoBlocks (blk : Block) : NetworkDevice := ⟨1, ⟨2, fun _ => blk⟩, 0, 0⟩

def connected (blk : Block) : Net where
  rd := ⟨1, 2, 1, 1⟩
  nd := some ((twoBlocks blk).advance (twoBlocks blk).storage)
  wire := [wirePacket 0 askTopo, wirePacket 0 sayTopo]
  pending := none
  issued := [askTopo]
  executed := [askTopo]
  responses := [sayTopo]
  answers := [(0, sayTopo)]

def connecting : List NetAct :=
  [.issue zeroIv .getTopo, .toDevice zeroIv (wirePacket 0 askTopo), .toRemote (wirePacket 0 sayTopo)]

lemma serve_askTopo (blk : Block) : (twoBlocks blk).serve seqKey (wirePacket 0 askTopo) =
    .ok (askTopo, sayTopo, (twoBlocks blk).storage) :=
  RemoteLink.serve_marshal seqKey_committing.correct (show Request.getTopo.WellFormed from trivial)
    (twoBlocks blk) zeroIv

lemma receive_sayTopo : RemoteDevice.receive seqKey ⟨0, 0, 1, 0⟩ .getTopo (wirePacket 0 sayTopo) =
    (.ok (.topo 1 2), ⟨1, 2, 1, 1⟩) := by
  have hun : unmarshalBfsDevicePacket seqKey 0 (wirePacket 0 sayTopo) = .ok sayTopo :=
    unmarshal_marshal seqKey_committing.correct zeroIv _ 0 (by decide)
  have haccept : Request.getTopo.Accepts 0 sayTopo.1 sayTopo.2 := by decide
  have hdec : Request.getTopo.decode sayTopo.2 = .ok (.topo 1 2) := by rfl
  simp only [RemoteDevice.receive, hun, if_pos haccept, hdec]
  rfl

def dialling (blk : Block) : Net :=
  { Net.start (twoBlocks blk) with
    rd := ⟨0, 0, 1, 0⟩
    wire := [wirePacket 0 askTopo]
    pending := some .getTopo
    issued := [askTopo] }

lemma run_connecting (blk : Block) :
    (Net.start (twoBlocks blk)).run seqKey connecting = connected blk ∧
      (Net.start (twoBlocks blk)).AdmissibleRun seqKey connecting := by
  have h₁ : (Net.start (twoBlocks blk)).step seqKey (.issue zeroIv .getTopo) = dialling blk := rfl
  have h₂ : (dialling blk).step seqKey (.toDevice zeroIv (wirePacket 0 askTopo)) =
      { connected blk with rd := ⟨0, 0, 1, 0⟩, pending := some .getTopo, answers := [] } := by
    simp only [Net.step, dialling, Net.start, serve_askTopo]
    rfl
  have hun : unmarshalBfsDevicePacket seqKey 0 (wirePacket 0 sayTopo) = .ok sayTopo :=
    unmarshal_marshal seqKey_committing.correct zeroIv _ 0 (by decide)
  have h₃ : ({ connected blk with
      rd := ⟨0, 0, 1, 0⟩, pending := some .getTopo, answers := [] } : Net).step seqKey
        (.toRemote (wirePacket 0 sayTopo)) = connected blk := by
    simp only [Net.step, receive_sayTopo, hun]
    rfl
  refine ⟨?_, ?_⟩
  · simp only [connecting, Net.run_cons, Net.run_nil, h₁, h₂, h₃]
  · simp only [connecting, Net.AdmissibleRun, h₁, h₂]
    exact ⟨trivial, fun _ => by simp [dialling], fun _ => by simp [connected], trivial⟩

theorem channel_safe_connecting :
    ((Net.start (twoBlocks (Buf.fill 7 blkSz))).run seqKey connecting).executed <+:
        ((Net.start (twoBlocks (Buf.fill 7 blkSz))).run seqKey connecting).issued ∧
      ((Net.start (twoBlocks (Buf.fill 7 blkSz))).run seqKey connecting).answers =
        [(0, sayTopo)] ∧
      ((Net.start (twoBlocks (Buf.fill 7 blkSz))).run seqKey connecting).responses[0]? =
        some sayTopo := by
  obtain ⟨hrun, hadm⟩ := run_connecting (Buf.fill 7 blkSz)
  have hlt : ((Net.start (twoBlocks (Buf.fill 7 blkSz))).run seqKey connecting).issued.length <
      2^32 := by
    rw [hrun]
    exact (by decide : 1 < 2^32)
  have hanswers : ((Net.start (twoBlocks (Buf.fill 7 blkSz))).run seqKey connecting).answers =
      [(0, sayTopo)] := by rw [hrun]; rfl
  obtain ⟨hexec, hans⟩ := channel_safe seqKey_committing rfl rfl hadm hlt
  refine ⟨hexec, hanswers, (hans 0 0 sayTopo ?_).2 rfl⟩
  rw [hanswers]
  rfl

/-- The first block is asked for and the network device answers, but the request is reflected to the
remote device. The block is asked for again, and the first response is delivered. -/
def replaying (blk : Block) : List NetAct :=
  [.issue zeroIv (.getBlock 0), .toDevice zeroIv (wirePacket 1 askBlock),
    .toRemote (wirePacket 1 askBlock), .issue zeroIv (.getBlock 0),
    .toRemote (wirePacket 1 (sayBlock blk))]

lemma serve_askBlock (blk : Block) :
    ((twoBlocks blk).advance (twoBlocks blk).storage).serve seqKey (wirePacket 1 askBlock) =
      .ok (askBlock, sayBlock blk, (twoBlocks blk).storage) :=
  RemoteLink.serve_marshal seqKey_committing.correct
    (show (Request.getBlock 0).WellFormed from trivial) _ zeroIv

lemma receive_reflected : RemoteDevice.receive seqKey ⟨1, 2, 2, 1⟩ (.getBlock 0)
    (wirePacket 1 askBlock) = (.error .badResponse, ⟨1, 2, 2, 1⟩) := by
  have hun : unmarshalBfsDevicePacket seqKey 1 (wirePacket 1 askBlock) = .ok askBlock :=
    unmarshal_marshal seqKey_committing.correct zeroIv _ 1 (by decide)
  have hreject : ¬ (Request.getBlock 0).Accepts 1 askBlock.1 askBlock.2 :=
    fun haccept => Bool.false_ne_true haccept.2.2.2.1
  simp only [RemoteDevice.receive, hun, if_neg hreject]

lemma length_sayBlock (blk : Block) : (sayBlock blk).2.length = 8 + blkSz := by
  rw [sayBlock, List.length_append, length_u64, blk.length_toList]

lemma unmarshal_sayBlock (blk : Block) :
    unmarshalBfsDevicePacket seqKey 1 (wirePacket 1 (sayBlock blk)) = .ok (sayBlock blk) :=
  unmarshal_marshal seqKey_committing.correct zeroIv _ 1
    (by rw [length_sayBlock]; decide)

lemma receive_sayBlock (blk : Block) : RemoteDevice.receive seqKey ⟨1, 2, 3, 1⟩ (.getBlock 0)
    (wirePacket 1 (sayBlock blk)) = (.ok (.block blk), ⟨1, 2, 3, 2⟩) := by
  have haccept : (Request.getBlock 0).Accepts 1 (sayBlock blk).1 (sayBlock blk).2 :=
    ⟨rfl, fun _ => rfl, rfl, rfl, length_sayBlock blk⟩
  have hblock : removeBlock blk.toList = .ok (blk, []) := by
    simpa using removeBlock_append blk []
  have hdec : (Request.getBlock 0).decode (sayBlock blk).2 = .ok (.block blk) := by
    simp [Request.decode, sayBlock, removeHeader_append, hblock]
  simp only [RemoteDevice.receive, unmarshal_sayBlock, if_pos haccept, hdec]
  rfl

def asked (blk : Block) : Net :=
  { connected blk with
    rd := ⟨1, 2, 2, 1⟩
    wire := (connected blk).wire ++ [wirePacket 1 askBlock]
    pending := some (.getBlock 0)
    issued := [askTopo, askBlock] }

def served (blk : Block) : Net :=
  { asked blk with
    nd := some (((twoBlocks blk).advance (twoBlocks blk).storage).advance (twoBlocks blk).storage)
    wire := (asked blk).wire ++ [wirePacket 1 (sayBlock blk)]
    executed := [askTopo, askBlock]
    responses := [sayTopo, sayBlock blk] }

def askedAgain (blk : Block) : Net :=
  { served blk with
    rd := ⟨1, 2, 3, 1⟩
    wire := (served blk).wire ++ [wirePacket 2 askBlock]
    issued := [askTopo, askBlock, askBlock] }

lemma run_replaying (blk : Block) :
    (connected blk).run seqKey (replaying blk) =
      { askedAgain blk with
        rd := ⟨1, 2, 3, 2⟩
        pending := none
        answers := [(0, sayTopo), (2, sayBlock blk)] } ∧
      (connected blk).AdmissibleRun seqKey (replaying blk) := by
  have h₁ : (connected blk).step seqKey (.issue zeroIv (.getBlock 0)) = asked blk := rfl
  have h₂ : (asked blk).step seqKey (.toDevice zeroIv (wirePacket 1 askBlock)) = served blk := by
    simp only [Net.step, asked, connected, serve_askBlock]
    rfl
  have h₃ : (served blk).step seqKey (.toRemote (wirePacket 1 askBlock)) =
      { served blk with pending := none } := by
    simp only [Net.step, served, asked, receive_reflected]
  have h₄ : ({ served blk with pending := none } : Net).step seqKey
      (.issue zeroIv (.getBlock 0)) = askedAgain blk := rfl
  have h₅ : (askedAgain blk).step seqKey (.toRemote (wirePacket 1 (sayBlock blk))) =
      { askedAgain blk with
        rd := ⟨1, 2, 3, 2⟩
        pending := none
        answers := [(0, sayTopo), (2, sayBlock blk)] } := by
    simp only [Net.step, askedAgain, served, asked, receive_sayBlock, unmarshal_sayBlock]
    rfl
  refine ⟨?_, ?_⟩
  · simp only [replaying, Net.run_cons, Net.run_nil, h₁, h₂, h₃, h₄, h₅]
  · simp only [replaying, Net.AdmissibleRun, h₁, h₂, h₃, h₄]
    exact ⟨trivial, fun _ => by simp [asked], fun _ => by simp [served, asked], trivial,
      fun _ => by simp [askedAgain, served], trivial⟩

/-- The response to command 1 is accepted for command 2, which the network device never saw. -/
theorem earlier_response_accepted :
    (Net.start (twoBlocks (Buf.fill 7 blkSz))).AdmissibleRun seqKey
        (connecting ++ replaying (Buf.fill 7 blkSz)) ∧
      (2, sayBlock (Buf.fill 7 blkSz)) ∈ ((Net.start (twoBlocks (Buf.fill 7 blkSz))).run seqKey
        (connecting ++ replaying (Buf.fill 7 blkSz))).answers ∧
      ((Net.start (twoBlocks (Buf.fill 7 blkSz))).run seqKey
        (connecting ++ replaying (Buf.fill 7 blkSz))).responses[2]? = none := by
  obtain ⟨hconn, hadm⟩ := run_connecting (Buf.fill 7 blkSz)
  obtain ⟨hrun, hadm'⟩ := run_replaying (Buf.fill 7 blkSz)
  rw [Net.run_append, hconn, hrun]
  refine ⟨Net.admissibleRun_append hadm ?_, List.mem_cons_of_mem _ List.mem_cons_self, rfl⟩
  rw [hconn]
  exact hadm'

end Example

end Bfs.Device
