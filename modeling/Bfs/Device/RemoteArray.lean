import Bfs.Device.RemoteLink

/-! A remote device compared with an array of blocks: which requests succeed, what they return and
what they store. -/
namespace Bfs.Device
open ByteSeq LittleEndian Fallible
open Bfs.Fs (Iv Mac Block blkSz macLen)

namespace Request

variable {req : Request} {s : DeviceStorage}

@[simp] lemma apply_numBlocks (req : Request) (s : DeviceStorage) :
    (req.apply s).numBlocks = s.numBlocks := by
  cases req with
  | putBlock blkid buf =>
    simp only [apply]
    split_ifs <;> rfl
  | putBlocks blks => exact s.writeAll_numBlocks blks
  | getTopo => rfl
  | getBlock blkid => rfl
  | getBlocks ids => rfl

lemma outcome_of_inRange (did : UInt32) (hwf : req.WellFormed) (hin : req.InRange s.numBlocks) :
    ∃ buf, req.outcome did s = .ok (req.value did s, buf, req.apply s) := by
  cases req with
  | getTopo => exact ⟨_, rfl⟩
  | getBlock blkid =>
    have hlt := hin blkid (by simp [ids])
    refine ⟨u64 blkid ++ (s.blocks blkid).toList, ?_⟩
    simp only [outcome, value, apply, DeviceStorage.getBlock_of_lt hlt, Option.getD_some]
  | putBlock blkid buf =>
    have hlen : buf.length = blkSz := hwf
    have hlt := hin blkid (by simp [ids])
    refine ⟨u64 blkid, ?_⟩
    simp only [outcome, value, apply, dif_pos hlen, DeviceStorage.putBlock_of_lt hlt,
      Option.getD_some]
  | getBlocks ids =>
    have hids : ∀ blkid ∈ ids, blkid < s.numBlocks := hin
    refine ⟨u64 (UInt64.ofNat ids.length) ++
      blockBytes (ids.map fun blkid => (blkid, s.blocks blkid)), ?_⟩
    simp only [outcome, value, apply, if_pos hids]
  | putBlocks blks =>
    refine ⟨u64 (UInt64.ofNat blks.length) ++ (blks.map Prod.fst).flatMap u64, ?_⟩
    simp only [outcome, value, apply, DeviceStorage.putAll_of_lt hin]

lemma outcome_of_not_inRange (did : UInt32) (hwf : req.WellFormed) (hin : ¬ req.InRange s.numBlocks)
    (hmsg : req.msg ≠ .getBlocks) : ∃ r, req.outcome did s = .ok r := by
  cases req with
  | getTopo => exact ⟨_, rfl⟩
  | getBlock blkid => exact ⟨_, rfl⟩
  | putBlock blkid buf =>
    have hlen : buf.length = blkSz := hwf
    simp only [outcome, dif_pos hlen]
    exact ⟨_, rfl⟩
  | getBlocks ids => exact absurd rfl hmsg
  | putBlocks blks => exact ⟨_, rfl⟩

lemma outcome_getBlocks_of_not_inRange (did : UInt32) (hin : ¬ req.InRange s.numBlocks)
    (hmsg : req.msg = .getBlocks) : req.outcome did s = .error .nullAccess := by
  cases req with
  | getBlocks ids =>
    have hids : ¬ ∀ blkid ∈ ids, blkid < s.numBlocks := hin
    simp only [outcome, if_neg hids]
  | getTopo => cases hmsg
  | getBlock blkid => cases hmsg
  | putBlock blkid buf => cases hmsg
  | putBlocks blks => cases hmsg

end Request

namespace RemoteLink

section Run

variable (A : PacketKey) (ivs : UInt32 → Iv × Iv)

/-- A request succeeds only in range, then with the value of the array and the effect of the request
on it; a request that fails leaves the storage as it was. -/
def Faithful (l : RemoteLink) (req : Request) : Prop :=
  match l.call A ivs req with
  | (.ok reply, l') => req.InRange l.nd.storage.numBlocks ∧
      reply = req.value l.nd.deviceID l.nd.storage ∧ l'.nd.storage = req.apply l.nd.storage
  | (.error _, l') => l'.nd.storage = l.nd.storage

def RunFaithful : RemoteLink → List Request → Prop
  | _, [] => True
  | l, req :: reqs => l.Faithful A ivs req ∧ RunFaithful (l.call A ivs req).2 reqs

end Run

variable {A : PacketKey} {ivs : UInt32 → Iv × Iv} {l : RemoteLink} {req : Request}

lemma runFaithful_down (hdown : l.up = false) (reqs : List Request) :
    RunFaithful A ivs l reqs := by
  induction reqs generalizing l with
  | nil => trivial
  | cons req reqs ih =>
    refine ⟨?_, ?_⟩
    · simp only [Faithful, call_down hdown]
    · rw [call_down hdown]
      exact ih hdown

lemma Ready.call_of_inRange (ivs : UInt32 → Iv × Iv) (hA : Aead.Correct A) (hr : l.Ready)
    (hwf : req.WellFormed) (hin : req.InRange l.nd.storage.numBlocks) :
    l.call A ivs req = (.ok (req.value l.nd.deviceID l.nd.storage),
      l.answered (req.value l.nd.deviceID l.nd.storage) (req.apply l.nd.storage)) ∧
    (l.answered (req.value l.nd.deviceID l.nd.storage) (req.apply l.nd.storage)).Ready := by
  obtain ⟨buf, hout⟩ := Request.outcome_of_inRange l.nd.deviceID hwf hin
  exact ⟨hr.call_ok ivs hA hwf hout, hr.answered hout⟩

lemma faithful_of_inRange (ivs : UInt32 → Iv × Iv) (hA : Aead.Correct A) (hr : l.Ready)
    (hwf : req.WellFormed) (hin : req.InRange l.nd.storage.numBlocks) :
    l.Faithful A ivs req ∧ (l.call A ivs req).2.Ready ∧
      (l.call A ivs req).2.nd.storage.numBlocks = l.nd.storage.numBlocks := by
  obtain ⟨hcall, hready⟩ := hr.call_of_inRange ivs hA hwf hin
  refine ⟨?_, ?_, ?_⟩
  · simp only [Faithful, hcall]
    exact ⟨hin, trivial, rfl⟩
  · rw [hcall]
    exact hready
  · rw [hcall]
    exact req.apply_numBlocks l.nd.storage

lemma not_faithful (ivs : UInt32 → Iv × Iv) (hA : Aead.Correct A) (hr : l.Ready) (hwf : req.WellFormed)
    (hin : ¬ req.InRange l.nd.storage.numBlocks) (hmsg : req.msg ≠ .getBlocks) :
    ¬ l.Faithful A ivs req := by
  obtain ⟨⟨reply, buf, s⟩, hout⟩ :=
    Request.outcome_of_not_inRange l.nd.deviceID hwf hin hmsg
  simp only [Faithful, hr.call_ok ivs hA hwf hout]
  exact fun hf => hin hf.1

lemma faithful_getBlocks (ivs : UInt32 → Iv × Iv) (hA : Aead.Correct A) (hr : l.Ready) (hwf : req.WellFormed)
    (hin : ¬ req.InRange l.nd.storage.numBlocks) (hmsg : req.msg = .getBlocks) :
    l.Faithful A ivs req ∧ (l.call A ivs req).2.up = false := by
  have hout := Request.outcome_getBlocks_of_not_inRange l.nd.deviceID hin hmsg
  have hcall := call_eq ivs hA hr.up hr.toSynced hwf (.inr hr.did_eq)
  simp only [hout] at hcall
  simp only [Faithful, hcall, and_self]

lemma Ready.call_getBlock_of_not_lt (ivs : UInt32 → Iv × Iv) (hA : Aead.Correct A) (hr : l.Ready)
    {blkid : UInt64} (hlt : ¬ blkid < l.nd.storage.numBlocks) :
    l.call A ivs (.getBlock blkid) =
      (.ok (.block (Buf.fill 0 blkSz)), l.answered (.block (Buf.fill 0 blkSz)) l.nd.storage) := by
  apply hr.call_ok ivs hA
  · trivial
  · simp only [Request.outcome, DeviceStorage.getBlock_of_not_lt hlt, Option.getD_none]
    rfl

lemma Ready.call_putBlocks (ivs : UInt32 → Iv × Iv) (hA : Aead.Correct A) (hr : l.Ready)
    {blks : List (UInt64 × Block)} (hwf : (Request.putBlocks blks).WellFormed) :
    l.call A ivs (.putBlocks blks) = (.ok .done, l.answered .done (l.nd.storage.putAll blks)) :=
  hr.call_ok ivs hA hwf rfl

lemma runFaithful_iff (hA : Aead.Correct A) (hr : l.Ready) {reqs : List Request}
    (hwf : ∀ req ∈ reqs, req.WellFormed) :
    RunFaithful A ivs l reqs ↔
      ∀ req, reqs.find? (fun req => ¬ req.InRange l.nd.storage.numBlocks) = some req →
        req.msg = .getBlocks := by
  induction reqs generalizing l with
  | nil => simp [RunFaithful]
  | cons req reqs ih =>
    have hreq := hwf req List.mem_cons_self
    by_cases hin : req.InRange l.nd.storage.numBlocks
    · obtain ⟨hf, hready, hnum⟩ := faithful_of_inRange ivs hA hr hreq hin
      have hrest := ih hready fun r hmem => hwf r (List.mem_cons_of_mem _ hmem)
      rw [hnum] at hrest
      rw [List.find?_cons_of_neg (by simpa using hin), ← hrest]
      exact ⟨fun h => h.2, fun h => ⟨hf, h⟩⟩
    · rw [List.find?_cons_of_pos (by simpa using hin)]
      by_cases hmsg : req.msg = .getBlocks
      · obtain ⟨hf, hdown⟩ := faithful_getBlocks ivs hA hr hreq hin hmsg
        refine ⟨?_, fun _ => ⟨hf, runFaithful_down hdown reqs⟩⟩
        rintro - r hr
        cases hr
        exact hmsg
      · have hnot := not_faithful ivs hA hr hreq hin hmsg
        exact ⟨fun h => absurd h.1 hnot, fun h => absurd (h req rfl) hmsg⟩

end RemoteLink

/-- From the connection on, a remote device behaves as an array of blocks exactly if the first request
that names a block out of range, if any, gets several blocks. Such a request ends the network
device; every other one is answered as if it had succeeded. -/
theorem remote_array_iff {A : PacketKey} (hA : Aead.Correct A) (ivs : UInt32 → Iv × Iv)
    {nd : NetworkDevice} (hsend : nd.sendSeq = 0) (hrecv : nd.recvSeq = 0) {reqs : List Request}
    (hwf : ∀ req ∈ reqs, req.WellFormed) :
    RemoteLink.RunFaithful A ivs (RemoteLink.connect A ivs nd) reqs ↔
      ∀ req, reqs.find? (fun req => ¬ req.InRange nd.storage.numBlocks) = some req →
        req.msg = .getBlocks := by
  obtain ⟨hready, hstorage⟩ := RemoteLink.connect_ready ivs hA hsend hrecv
  rw [RemoteLink.runFaithful_iff hA hready hwf, hstorage]

section Example

def zeroIvs : UInt32 → Iv × Iv := fun _ => (Buf.fill 0 _, Buf.fill 0 _)

def sevens : NetworkDevice := ⟨1, ⟨2, fun _ => Buf.fill 7 blkSz⟩, 0, 0⟩

lemma sevens_ready : (RemoteLink.connect seqKey zeroIvs sevens).Ready :=
  (RemoteLink.connect_ready zeroIvs seqKey_committing.correct rfl rfl).1

theorem remote_array_of_put :
    RemoteLink.RunFaithful seqKey zeroIvs (RemoteLink.connect seqKey zeroIvs sevens)
      [.putBlock 1 (Buf.fill 8 blkSz).toList, .getBlock 1, .getBlocks [0, 1]] := by
  apply (remote_array_iff seqKey_committing.correct zeroIvs rfl rfl ?_).mpr
  · intro req hfind
    simp [Request.InRange, Request.ids, sevens] at hfind
  · intro req hmem
    simp only [List.mem_cons, List.not_mem_nil, or_false] at hmem
    obtain rfl | rfl | rfl := hmem
    · exact (Buf.fill 8 blkSz).length_toList
    · trivial
    · exact ⟨by decide, by decide⟩

/-- Getting block 2 of a device of two blocks succeeds with zeros, and putting blocks 0 and 2
succeeds and stores block 0. -/
theorem out_of_range_succeeds :
    (∃ l, (RemoteLink.connect seqKey zeroIvs sevens).call seqKey zeroIvs (.getBlock 2) =
      (.ok (.block (Buf.fill 0 blkSz)), l)) ∧
    (∃ l, (RemoteLink.connect seqKey zeroIvs sevens).call seqKey zeroIvs
        (.putBlocks [(0, Buf.fill 8 blkSz), (2, Buf.fill 9 blkSz)]) = (.ok .done, l) ∧
      l.nd.storage.blocks 0 = Buf.fill 8 blkSz) ∧
    ¬ (Request.getBlock 2).InRange sevens.storage.numBlocks := by
  have hA := seqKey_committing.correct
  have hstorage : (RemoteLink.connect seqKey zeroIvs sevens).nd.storage = sevens.storage :=
    (RemoteLink.connect_ready zeroIvs hA rfl rfl).2
  have hlt : ¬ (2 : UInt64) < sevens.storage.numBlocks := by decide
  refine ⟨⟨_, sevens_ready.call_getBlock_of_not_lt zeroIvs hA (by rwa [hstorage])⟩, ?_,
    by simp [Request.InRange, Request.ids, sevens]⟩
  refine ⟨_, sevens_ready.call_putBlocks zeroIvs hA ⟨by simp, (by decide : 8 + (8 + blkSz)*2 < 2^32)⟩, ?_⟩
  rw [RemoteLink.answered, hstorage]
  simp [DeviceStorage.putAll, sevens]

end Example

end Bfs.Device
