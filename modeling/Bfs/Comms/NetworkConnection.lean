import Bfs.Lib.LittleEndian
import Bfs.Lib.Stream
import Bfs.Utils.FlexBuffer

/-! Packets on a socket: a buffer is sent behind its length, with loops around `write` and `read` that
go on until everything is moved. -/
namespace Bfs.Comms
open LittleEndian Stream
open Bfs.Utils (Build FlexBuf Span AllInside allInside_append allInside_cons allInside_nil)

/-- `bfs_socket_state_t`. -/
inductive ChState
  | initialized
  | connecting
  | connected
  | closed
  | errored
  deriving DecidableEq, Repr

/-- `bfsNetworkConnection`: what its reads will find, what its writes will take, what was written. -/
structure Connection where
  input : List (Arrival UInt8)
  accepts : List Accepted
  output : List UInt8
  chState : ChState

section Rawnet

/-- The bytes of `htonl(x)` in memory. -/
def htonl (x : UInt32) : List UInt8 := (u32 x).reverse

def ntohl (bs : List UInt8) : UInt32 := ofU32 bs.reverse

@[simp] lemma length_htonl (x : UInt32) : (htonl x).length = 4 := by simp [htonl]

@[simp] lemma ntohl_htonl (x : UInt32) : ntohl (htonl x) = x := by simp [ntohl, htonl]

def loopLen (len : UInt32) : ℕ := len.toInt32.toInt.toNat

def rawnetRet (len : UInt32) : LoopEnd → Int32
  | .complete => len.toInt32
  | .closed => 0
  | .failed => -1

def rawnetSendBytes (c : Connection) (buf : List UInt8) : Int32 × Connection :=
  let len := UInt32.ofNat buf.length
  let r := writeLoop c.accepts (buf.take (loopLen len))
  (rawnetRet len r.status, { c with accepts := r.rest, output := c.output ++ r.put })

def rawnetReadBytes (c : Connection) (len : UInt32) : Int32 × List UInt8 × Connection :=
  let r := readLoop (loopLen len) c.input
  (rawnetRet len r.status, r.got, { c with input := r.rest })

end Rawnet

section Connections

def Connection.settle (c : Connection) (ret : Int32) : Int32 × Connection :=
  if ret = 0 then (0, { c with chState := .closed })
  else if ret < 0 then (0, { c with chState := .errored })
  else (ret, c)

def sendDataL (c : Connection) (buf : List UInt8) : Int32 × Connection :=
  let (ret, c) := rawnetSendBytes c buf
  c.settle ret

def sendBuffer (c : Connection) (buf : List UInt8) : Int32 × Connection :=
  let (ret, c) := rawnetSendBytes c buf
  c.settle ret

/-- `sendPacketizedBuffer`; both builds send the same bytes. -/
def sendPacketizedBuffer (c : Connection) (buf : List UInt8) : Int32 × Connection :=
  let (ret, c) := sendDataL c (htonl (UInt32.ofNat buf.length))
  if ret ≠ 4 then (ret, c) else sendBuffer c buf

structure RecvBuf where
  layout : FlexBuf
  data : List UInt8

structure Receipt where
  ret : Int32
  buf : RecvBuf
  spans : List Span
  conn : Connection

/-- `recvBuffer`. The buffer is laid out for the length with the default pads and filled with zeros,
and the bytes that come are put over them. -/
def recvBuffer (c : Connection) (b : RecvBuf) (len : UInt32) : Receipt :=
  let (layout, spans) := b.layout.resetWithAlloc len FlexBuf.defaultPad FlexBuf.defaultPad
  let (ret, got, c) := rawnetReadBytes c len
  let (ret, c) := c.settle ret
  ⟨ret, ⟨layout, got ++ List.replicate (len.toNat - got.length) 0⟩,
    spans ++ [⟨layout.hlength.toNat, loopLen len, layout.allocation.toNat⟩], c⟩

/-- `ocall_recvPacketizedDataHdrL`. The result of the loop is kept as an unsigned number, so the test
for `ret <= 0` does not see a failure, and the bytes that came are taken for the length. -/
def ocallRecvPacketizedDataHdrL (c : Connection) : UInt32 × Connection :=
  let (ret, got, c) := rawnetReadBytes c 4
  let uret : UInt32 := ret.toUInt32
  if uret ≤ 0 then (uret, c) else (ntohl (got ++ List.replicate (4 - got.length) 0), c)

def recvPacketizedBuffer (build : Build) (c : Connection) (b : RecvBuf) : Receipt :=
  match build with
  | .host =>
    let (ret, slen, c) := rawnetReadBytes c 4
    let (ret, c) := c.settle ret
    if ret ≠ 4 then ⟨ret, b, [], c⟩ else recvBuffer c b (ntohl slen)
  | .enclave =>
    let (uret, c) := ocallRecvPacketizedDataHdrL c
    if uret = 0 then ⟨0, b, [], { c with chState := .errored }⟩ else recvBuffer c b uret

def sendAll (c : Connection) : List (List UInt8) → List Int32 × Connection
  | [] => ([], c)
  | buf::bufs =>
    let sent := sendPacketizedBuffer c buf
    let rest := sendAll sent.2 bufs
    (sent.1 :: rest.1, rest.2)

def receiveAll (build : Build) (c : Connection) : List RecvBuf → List Receipt × Connection
  | [] => ([], c)
  | b::bs =>
    let r := recvPacketizedBuffer build c b
    let rest := receiveAll build r.conn bs
    (r :: rest.1, rest.2)

end Connections

section Lengths

variable {len : UInt32}

lemma toInt_toInt32 (h : len.toNat < 2^31) : len.toInt32.toInt = len.toNat := by
  have hbv : len.toBitVec.toInt = len.toNat := BitVec.toInt_eq_toNat_of_lt (by
    change 2 * len.toNat < 2^32
    omega)
  exact hbv

lemma loopLen_of_lt (h : len.toNat < 2^31) : loopLen len = len.toNat := by
  rw [loopLen, toInt_toInt32 h, Int.toNat_natCast]

lemma settle_of_pos (c : Connection) (h : len.toNat < 2^31) (hpos : 0 < len.toNat) :
    c.settle len.toInt32 = (len.toInt32, c) := by
  have hint := toInt_toInt32 h
  have hne : len.toInt32 ≠ 0 := by
    intro heq
    rw [heq] at hint
    have hzero : (0 : Int32).toInt = 0 := rfl
    omega
  have hnlt : ¬len.toInt32 < 0 := by
    rw [Int32.lt_iff_toInt_lt, hint]
    have hzero : (0 : Int32).toInt = 0 := rfl
    omega
  rw [Connection.settle, if_neg hne, if_neg hnlt]

end Lengths

section Sending

def packet (buf : List UInt8) : List UInt8 := htonl (UInt32.ofNat buf.length) ++ buf

@[simp] lemma length_packet (buf : List UInt8) : (packet buf).length = 4 + buf.length := by
  simp [packet]

def Sendable (buf : List UInt8) : Prop := buf ≠ [] ∧ buf.length < 2^31

lemma Sendable.toNat_length {buf : List UInt8} (h : Sendable buf) :
    (UInt32.ofNat buf.length).toNat = buf.length := by
  have := h.2
  rw [UInt32.toNat_ofNat', Nat.mod_eq_of_lt (by omega)]

lemma Sendable.pos {buf : List UInt8} (h : Sendable buf) : 0 < buf.length :=
  List.length_pos_of_ne_nil h.1

def WholeLength (buf : List UInt8) (ret : Int32) : Prop := ret.toInt = buf.length

structure Sent (c : Connection) (bytes : List UInt8) (c' : Connection) : Prop where
  output : c'.output = c.output ++ bytes
  accepting : Accepting c'.accepts

lemma sent_sendDataL {c : Connection} (hc : Accepting c.accepts) {buf : List UInt8}
    (hbuf : Sendable buf) :
    (sendDataL c buf).1 = (UInt32.ofNat buf.length).toInt32 ∧ Sent c buf (sendDataL c buf).2 := by
  have hlen := hbuf.toNat_length
  have hlt := hbuf.2
  have hpos := hbuf.pos
  have hloop : loopLen (UInt32.ofNat buf.length) = buf.length := by
    rw [loopLen_of_lt (by omega), hlen]
  obtain ⟨hstatus, hput, hrest⟩ := writeLoop_of_accepting hc buf
  simp only [sendDataL, rawnetSendBytes, hloop, List.take_length, hstatus, rawnetRet]
  rw [settle_of_pos _ (by omega) (by omega)]
  exact ⟨rfl, by rw [hput], hrest⟩

lemma sendable_htonl (x : UInt32) : Sendable (htonl x) := by
  constructor
  · exact List.ne_nil_of_length_pos (by simp)
  · simp

theorem sent_sendPacketizedBuffer {c : Connection} (hc : Accepting c.accepts) {buf : List UInt8}
    (hbuf : Sendable buf) :
    WholeLength buf (sendPacketizedBuffer c buf).1 ∧
      Sent c (packet buf) (sendPacketizedBuffer c buf).2 := by
  obtain ⟨hret, hsent⟩ := sent_sendDataL hc (sendable_htonl (UInt32.ofNat buf.length))
  rw [length_htonl] at hret
  have hfour : (sendDataL c (htonl (UInt32.ofNat buf.length))).1 = 4 := hret
  obtain ⟨hret', hsent'⟩ := sent_sendDataL hsent.accepting hbuf
  have hlen := hbuf.toNat_length
  have hlt := hbuf.2
  simp only [sendPacketizedBuffer, hfour, ne_eq, not_true_eq_false, if_false]
  constructor
  · change (sendDataL _ buf).1.toInt = (buf.length : ℤ)
    rw [hret', toInt_toInt32 (by omega), hlen]
  · refine ⟨?_, hsent'.accepting⟩
    change (sendDataL _ buf).2.output = _
    rw [hsent'.output, hsent.output, List.append_assoc, packet]

lemma sendAll_cons (c : Connection) (buf : List UInt8) (bufs : List (List UInt8)) :
    sendAll c (buf::bufs) =
      ((sendPacketizedBuffer c buf).1 :: (sendAll (sendPacketizedBuffer c buf).2 bufs).1,
        (sendAll (sendPacketizedBuffer c buf).2 bufs).2) := rfl

theorem sent_sendAll {c : Connection} (hc : Accepting c.accepts) {bufs : List (List UInt8)}
    (hbufs : ∀ buf ∈ bufs, Sendable buf) :
    List.Forall₂ WholeLength bufs (sendAll c bufs).1 ∧
      Sent c (bufs.flatMap packet) (sendAll c bufs).2 := by
  induction bufs generalizing c with
  | nil => exact ⟨List.Forall₂.nil, by simp [sendAll], hc⟩
  | cons buf bufs ih =>
    obtain ⟨hret, hsent⟩ := sent_sendPacketizedBuffer hc (hbufs buf List.mem_cons_self)
    obtain ⟨hrets, hsents⟩ :=
      ih hsent.accepting fun buf' hbuf' => hbufs buf' (List.mem_cons_of_mem buf hbuf')
    rw [sendAll_cons]
    refine ⟨List.Forall₂.cons hret hrets, ?_, hsents.accepting⟩
    rw [List.flatMap_cons, ← List.append_assoc, ← hsent.output, ← hsents.output]

end Sending

section Reading

variable {c : Connection} {len : UInt32}

lemma rawnetReadBytes_of_le (hlt : len.toNat < 2^31) (hle : len.toNat ≤ (ready c.input).length) :
    rawnetReadBytes c len = (len.toInt32, (ready c.input).take len.toNat,
      { c with input := (readLoop len.toNat c.input).rest }) := by
  have htook := took_readLoop hle
  simp only [rawnetReadBytes, loopLen_of_lt hlt, htook.status, htook.got, rawnetRet]

lemma rawnetReadBytes_of_lt (hlt : len.toNat < 2^31) (hle : (ready c.input).length < len.toNat) :
    rawnetReadBytes c len = (rawnetRet len (endOf (broken c.input)), ready c.input,
      { c with input := (broken c.input).tail }) := by
  simp only [rawnetReadBytes, loopLen_of_lt hlt, readLoop_of_lt hle]

lemma settle_broken (c : Connection) (len : UInt32) (input : List (Arrival UInt8)) :
    (c.settle (rawnetRet len (endOf input))).1 = 0 := by
  cases input with
  | nil => rfl
  | cons arrival input => rfl

def RecvBuf.Ready (b : RecvBuf) : Prop := b.layout.Ready

structure Received (buf : List UInt8) (r : Receipt) : Prop where
  ret : WholeLength buf r.ret
  data : r.buf.data = buf
  inside : AllInside r.spans
  again : r.buf.Ready

structure Delivered (buf rest : List UInt8) (brk : List (Arrival UInt8)) (r : Receipt) : Prop where
  received : Received buf r
  ready : Stream.ready r.conn.input = rest
  broken : Stream.broken r.conn.input = brk

lemma delivered_recvBuffer {b : RecvBuf} (hb : b.Ready) (hlt : len.toNat < 2^31)
    (hpos : 0 < len.toNat) {buf rest : List UInt8} (hready : ready c.input = buf ++ rest)
    (hlen : buf.length = len.toNat) :
    Delivered buf rest (broken c.input) (recvBuffer c b len) := by
  have hle : len.toNat ≤ (ready c.input).length := by
    rw [hready, List.length_append]
    omega
  have htook := took_readLoop hle
  have hread := rawnetReadBytes_of_le hlt hle
  rw [hready, List.take_left' hlen] at hread
  obtain ⟨hlaid, hin⟩ := FlexBuf.Ready.laidOut hb (by omega : len.toNat + 64 < 2^32)
  refine ⟨⟨?_, ?_, ?_, hlaid.ready⟩, ?_, ?_⟩
  · simp only [recvBuffer, hread, settle_of_pos _ hlt hpos]
    rw [WholeLength, toInt_toInt32 hlt, hlen]
  · simp only [recvBuffer, hread, hlen, Nat.sub_self, List.replicate_zero, List.append_nil]
  · have hexact := hlaid.exact
    simp only [FlexBuf.Exact, hlaid.length] at hexact
    simp only [recvBuffer, allInside_append, allInside_cons, allInside_nil, and_true]
    refine ⟨hin, ?_⟩
    simp only [Span.Inside, loopLen_of_lt hlt]
    omega
  · simp only [recvBuffer, hread, settle_of_pos _ hlt hpos]
    rw [htook.ready, hready, List.drop_left' hlen]
  · simp only [recvBuffer, hread, settle_of_pos _ hlt hpos]
    exact htook.broken

lemma recvBuffer_of_lt (b : RecvBuf) (hlt : len.toNat < 2^31)
    (hle : (ready c.input).length < len.toNat) : (recvBuffer c b len).ret = 0 := by
  simp only [recvBuffer, rawnetReadBytes_of_lt hlt hle, settle_broken]

lemma recvPacketizedBuffer_of_header (build : Build) (b : RecvBuf) (h4 : 4 ≤ (ready c.input).length)
    (hne : ntohl ((ready c.input).take 4) ≠ 0) :
    recvPacketizedBuffer build c b =
      recvBuffer { c with input := (readLoop 4 c.input).rest } b (ntohl ((ready c.input).take 4)) := by
  have hread : rawnetReadBytes c 4 = ((4 : UInt32).toInt32, (ready c.input).take 4,
      { c with input := (readLoop 4 c.input).rest }) := rawnetReadBytes_of_le (by decide) h4
  have hlen : ((ready c.input).take 4).length = 4 := List.length_take_of_le h4
  cases build with
  | host =>
    simp only [recvPacketizedBuffer, hread]
    rw [settle_of_pos _ (by decide) (by decide)]
    rfl
  | enclave =>
    have hpos : ¬(4 : UInt32).toInt32.toUInt32 ≤ 0 := by decide
    simp only [recvPacketizedBuffer, ocallRecvPacketizedDataHdrL, hread, if_neg hpos, hlen,
      Nat.sub_self, List.replicate_zero, List.append_nil, if_neg hne]

lemma ntohl_take_packet (buf rest : List UInt8) :
    ntohl ((packet buf ++ rest).take 4) = UInt32.ofNat buf.length := by
  rw [packet, List.append_assoc, List.take_left' (length_htonl _), ntohl_htonl]

theorem delivered_recvPacketizedBuffer (build : Build) {b : RecvBuf} (hb : b.Ready)
    {buf rest : List UInt8} (hbuf : Sendable buf) (hready : ready c.input = packet buf ++ rest) :
    Delivered buf rest (broken c.input) (recvPacketizedBuffer build c b) := by
  have hlen := hbuf.toNat_length
  have hpos := hbuf.pos
  have hlt := hbuf.2
  have h4 : 4 ≤ (ready c.input).length := by
    rw [hready, List.length_append, length_packet]
    omega
  have hhead : ntohl ((ready c.input).take 4) = UInt32.ofNat buf.length := by
    rw [hready, ntohl_take_packet]
  have hne : UInt32.ofNat buf.length ≠ 0 := by
    intro heq
    rw [heq] at hlen
    exact hpos.ne hlen
  have htook := took_readLoop h4
  have hbody : ready (readLoop 4 c.input).rest = buf ++ rest := by
    rw [htook.ready, hready, packet, List.append_assoc, List.drop_left' (length_htonl _)]
  rw [recvPacketizedBuffer_of_header build b h4 (by rwa [hhead]), hhead, ← htook.broken]
  exact delivered_recvBuffer (c := { c with input := (readLoop 4 c.input).rest }) hb (by omega)
    (by omega) hbody hlen.symm

end Reading

section Runs

lemma receiveAll_cons (build : Build) (c : Connection) (b : RecvBuf) (bs : List RecvBuf) :
    receiveAll build c (b::bs) =
      (recvPacketizedBuffer build c b :: (receiveAll build (recvPacketizedBuffer build c b).conn bs).1,
        (receiveAll build (recvPacketizedBuffer build c b).conn bs).2) := rfl

theorem received_receiveAll (build : Build) {c : Connection} {bs : List RecvBuf}
    (hbs : ∀ b ∈ bs, b.Ready) {bufs : List (List UInt8)} (hbufs : ∀ buf ∈ bufs, Sendable buf)
    (hlen : bs.length = bufs.length) {rest : List UInt8}
    (hready : ready c.input = bufs.flatMap packet ++ rest) :
    List.Forall₂ Received bufs (receiveAll build c bs).1 ∧
      ready (receiveAll build c bs).2.input = rest ∧
      broken (receiveAll build c bs).2.input = broken c.input := by
  induction bufs generalizing c bs with
  | nil =>
    obtain rfl : bs = [] := List.length_eq_zero_iff.mp hlen
    exact ⟨List.Forall₂.nil, hready, rfl⟩
  | cons buf bufs ih =>
    cases bs with
    | nil => cases hlen
    | cons b bs =>
      rw [List.flatMap_cons, List.append_assoc] at hready
      have hdel := delivered_recvPacketizedBuffer build (hbs b List.mem_cons_self)
        (hbufs buf List.mem_cons_self) hready
      obtain ⟨hall, hrest, hbroken⟩ := ih (fun b' hb' => hbs b' (List.mem_cons_of_mem b hb'))
        (fun buf' hbuf' => hbufs buf' (List.mem_cons_of_mem buf hbuf')) (Nat.succ.inj hlen) hdel.ready
      rw [receiveAll_cons]
      exact ⟨List.Forall₂.cons hdel.received hall, hrest, hbroken.trans hdel.broken⟩

def partialLength (part : List UInt8) : UInt32 := ntohl (part ++ List.replicate (4 - part.length) 0)

def Misread (build : Build) (part : List UInt8) (brk : List (Arrival UInt8)) : Prop :=
  build = .enclave ∧ part.length < 4 ∧ brk ≠ [] ∧ partialLength part ≠ 0 ∧
    (partialLength part).toNat ≤ (ready brk.tail).length

instance (build : Build) (part : List UInt8) (brk : List (Arrival UInt8)) :
    Decidable (Misread build part brk) := inferInstanceAs (Decidable (_ ∧ _ ∧ _ ∧ _ ∧ _))

lemma partialLength_le {part buf : List UInt8} (hpre : part <+: packet buf) (h4 : part.length < 4) :
    (partialLength part).toNat ≤ (UInt32.ofNat buf.length).toNat := by
  set x := UInt32.ofNat buf.length with hx
  have hpart : part = ((u32 x).drop (4 - part.length)).reverse := by
    have htake := List.prefix_iff_eq_take.mp hpre
    rw [packet, List.take_append_of_le_length (by rw [length_htonl]; omega), htonl,
      List.take_reverse, length_u32] at htake
    exact htake
  have hclear := ofBytes_clear_le (4 - part.length) (u32 x)
  have hvalue : partialLength part =
      ofU32 (List.replicate (4 - part.length) 0 ++ (u32 x).drop (4 - part.length)) := by
    rw [partialLength, ntohl, List.reverse_append, List.reverse_replicate]
    congr 2
    rw [eq_comm, List.reverse_eq_iff.symm, ← hpart]
  have hwhole : (ofU32 (u32 x)).toNat = x.toNat := by rw [ofU32_u32]
  rw [hvalue, ofU32, UInt32.toNat_ofNat']
  rw [ofU32, UInt32.toNat_ofNat', Nat.mod_eq_of_lt] at hwhole
  · rw [← hwhole]
    exact (Nat.mod_le _ _).trans hclear
  · have := x.toNat_lt
    rw [u32, ofBytes_toBytes]
    exact Nat.mod_lt _ (by norm_num)

lemma recvPacketizedBuffer_of_short_header (build : Build) {c : Connection} {b : RecvBuf} (hb : b.Ready)
    {buf part : List UInt8} (hbuf : Sendable buf) (hready : ready c.input = part)
    (hpre : part <+: packet buf) (h4 : part.length < 4) :
    (recvPacketizedBuffer build c b).ret ≤ 0 ↔ ¬Misread build part (broken c.input) := by
  have hread : rawnetReadBytes c 4 = (rawnetRet 4 (endOf (broken c.input)), part,
      { c with input := (broken c.input).tail }) := by
    rw [rawnetReadBytes_of_lt (by decide) (by rw [hready]; exact h4), hready]
  have hzero : (0 : Int32) ≤ 0 := by decide
  cases build with
  | host =>
    have hret : (recvPacketizedBuffer .host c b).ret = 0 := by
      simp only [recvPacketizedBuffer, hread, settle_broken]
      rfl
    rw [hret]
    exact iff_of_true hzero fun hmis => Build.noConfusion hmis.1
  | enclave =>
    cases hbrk : broken c.input with
    | nil =>
      have hret : (recvPacketizedBuffer .enclave c b).ret = 0 := by
        simp only [recvPacketizedBuffer, ocallRecvPacketizedDataHdrL, hread, hbrk]
        rfl
      rw [hret]
      exact iff_of_true hzero fun hmis => hmis.2.2.1 rfl
    | cons arrival more =>
      -- the failure of the read goes unnoticed
      have hhdr : ocallRecvPacketizedDataHdrL c = (partialLength part, { c with input := more }) := by
        simp only [ocallRecvPacketizedDataHdrL, hread, hbrk]
        rfl
      have hlt : (partialLength part).toNat < 2^31 := by
        have := partialLength_le hpre h4
        have := hbuf.toNat_length
        have := hbuf.2
        omega
      simp only [recvPacketizedBuffer, hhdr]
      by_cases hlen : partialLength part = 0
      · rw [if_pos hlen]
        exact iff_of_true hzero fun hmis => hmis.2.2.2.1 hlen
      · have hpos : 0 < (partialLength part).toNat :=
          Nat.pos_of_ne_zero fun h => hlen (UInt32.toNat_inj.mp h)
        rw [if_neg hlen]
        by_cases hle : (partialLength part).toNat ≤ (ready more).length
        · have hdel := delivered_recvBuffer (c := { c with input := more }) hb hlt hpos
            (List.take_append_drop _ _).symm (List.length_take_of_le hle)
          have hret := hdel.received.ret
          rw [WholeLength, List.length_take_of_le hle] at hret
          have hmis : Misread .enclave part (arrival :: more) :=
            ⟨rfl, h4, List.cons_ne_nil _ _, hlen, hle⟩
          rw [Int32.le_iff_toInt_le, hret]
          have hint : (0 : Int32).toInt = 0 := rfl
          exact iff_of_false (by omega) (not_not.mpr hmis)
        · rw [recvBuffer_of_lt b hlt (by simpa using hle)]
          exact iff_of_true hzero fun hmis => hle hmis.2.2.2.2

theorem recvPacketizedBuffer_of_cut (build : Build) {c : Connection} {b : RecvBuf} (hb : b.Ready)
    {buf part : List UInt8} (hbuf : Sendable buf) (hready : ready c.input = part)
    (hpre : part <+: packet buf) (hcut : part ≠ packet buf) :
    (recvPacketizedBuffer build c b).ret ≤ 0 ↔ ¬Misread build part (broken c.input) := by
  by_cases h4 : part.length < 4
  · exact recvPacketizedBuffer_of_short_header build hb hbuf hready hpre h4
  · have hlen := hbuf.toNat_length
    have hpos := hbuf.pos
    have hlt := hbuf.2
    have hle : 4 ≤ (ready c.input).length := by
      rw [hready]
      omega
    have hshort : part.length < (packet buf).length :=
      lt_of_le_of_ne hpre.length_le fun heq => hcut (hpre.eq_of_length heq)
    rw [length_packet] at hshort
    have hhead : ntohl ((ready c.input).take 4) = UInt32.ofNat buf.length := by
      obtain ⟨rest, hrest⟩ := hpre
      have hsplit : (part ++ rest).take 4 = part.take 4 := List.take_append_of_le_length (by omega)
      rw [hready, ← hsplit, hrest, ← List.append_nil (packet buf), ntohl_take_packet]
    have hne : UInt32.ofNat buf.length ≠ 0 := by
      intro heq
      rw [heq] at hlen
      exact hpos.ne hlen
    have htook := took_readLoop hle
    have hret : (recvPacketizedBuffer build c b).ret = 0 := by
      rw [recvPacketizedBuffer_of_header build b hle (by rwa [hhead]), hhead]
      apply recvBuffer_of_lt
      · omega
      · simp only [htook.ready, hready, List.length_drop, hlen]
        omega
    rw [hret]
    exact iff_of_true (by decide) fun hmis => h4 hmis.2.1

/-- The stream has the packets of `front` and then ends or fails inside of the packet of `buf`. -/
structure BreaksIn (c : Connection) (front : List (List UInt8)) (buf part : List UInt8) : Prop where
  ready : Stream.ready c.input = front.flatMap packet ++ part
  pre : part <+: packet buf
  cut : part ≠ packet buf

/-- Sends put the packets on the wire, receives give them back in order, and the receive of a packet
that the stream cuts off returns nothing positive exactly if its header is not misread. -/
theorem packets_framed_iff (build : Build) {bufs : List (List UInt8)}
    (hbufs : ∀ buf ∈ bufs, Sendable buf) :
    (∀ s : Connection, Accepting s.accepts →
      List.Forall₂ WholeLength bufs (sendAll s bufs).1 ∧
        (sendAll s bufs).2.output = s.output ++ bufs.flatMap packet) ∧
    (∀ c bs, (∀ b ∈ bs, b.Ready) → bs.length = bufs.length →
      bufs.flatMap packet <+: ready c.input → List.Forall₂ Received bufs (receiveAll build c bs).1) ∧
    (∀ c bs b front buf back part, (∀ b' ∈ b::bs, b'.Ready) → bs.length = front.length →
      bufs = front ++ buf::back → BreaksIn c front buf part →
      List.Forall₂ Received front (receiveAll build c bs).1 ∧
        ((recvPacketizedBuffer build (receiveAll build c bs).2 b).ret ≤ 0 ↔
          ¬Misread build part (broken c.input))) := by
  refine ⟨?_, ?_, ?_⟩
  · intro s hs
    obtain ⟨hrets, hsent⟩ := sent_sendAll hs hbufs
    exact ⟨hrets, hsent.output⟩
  · intro c bs hbs hlen hpre
    obtain ⟨rest, hrest⟩ := hpre
    exact (received_receiveAll build hbs hbufs hlen hrest.symm).1
  · intro c bs b front buf back part hbs hlen hsplit hbreak
    have hfront : ∀ buf' ∈ front, Sendable buf' := by
      intro buf' hbuf'
      apply hbufs
      rw [hsplit]
      exact List.mem_append_left _ hbuf'
    have hbuf : Sendable buf := hbufs buf (by rw [hsplit]; simp)
    obtain ⟨hall, hready, hbroken⟩ := received_receiveAll build
      (fun b' hb' => hbs b' (List.mem_cons_of_mem b hb')) hfront hlen hbreak.ready
    refine ⟨hall, ?_⟩
    rw [← hbroken]
    exact recvPacketizedBuffer_of_cut build (hbs b List.mem_cons_self) hbuf hready hbreak.pre hbreak.cut

def RecvBuf.new : RecvBuf := ⟨FlexBuf.new, []⟩

lemma RecvBuf.ready_new : RecvBuf.new.Ready := FlexBuf.ready_new

def oneByte : Connection := ⟨[.chunk 0 [0, 0], .chunk 1 [7]], [], [], .connected⟩

theorem one_byte_framed :
    (∀ buf ∈ [[7]], Sendable buf) ∧
      List.Forall₂ Received [[7]] (receiveAll .enclave oneByte [RecvBuf.new]).1 := by
  have hbufs : ∀ buf ∈ [[7]], Sendable buf := by
    intro buf hbuf
    rw [List.mem_singleton.mp hbuf]
    exact ⟨List.cons_ne_nil _ _, by decide⟩
  refine ⟨hbufs, ?_⟩
  apply (packets_framed_iff .enclave hbufs).2.1
  · intro b hb
    rw [List.mem_singleton.mp hb]
    exact RecvBuf.ready_new
  · rfl
  · exact ⟨[], by decide⟩

def interrupted : Connection :=
  ⟨[.chunk 0 [0, 1], .failed, .chunk 0 (List.replicate 256 7)], [], [], .connected⟩

/-- The enclave takes a packet for received whose header it did not read to the end. -/
theorem interrupted_header_misread :
    Sendable (List.replicate 256 7) ∧ BreaksIn interrupted [] (List.replicate 256 7) [0, 0, 1] ∧
      ¬(recvPacketizedBuffer .enclave interrupted RecvBuf.new).ret ≤ 0 ∧
      (recvPacketizedBuffer .enclave interrupted RecvBuf.new).buf.data ≠ List.replicate 256 7 := by
  refine ⟨⟨?_, ?_⟩, ⟨rfl, ?_, ?_⟩, ?_, ?_⟩ <;> decide +kernel

end Runs

end Bfs.Comms
