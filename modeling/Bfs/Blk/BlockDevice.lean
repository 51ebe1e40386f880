import Bfs.Device.RemoteArray

/-! The interface `bfsDevice`, what it means that devices store their blocks as arrays, and that local
devices and connected remote devices do. -/
namespace Bfs.Blk
open ByteSeq Bfs.Device
open Bfs.Fs (Iv Block blkSz)

/-- `bfsDevice`. `putBlock` returns the buffer of the `PBfsBlock` that it was given. -/
structure DeviceOps (D : Type*) where
  numBlocks : D → UInt64
  getBlock : D → UInt64 → Except DevErr Block × D
  putBlock : D → UInt64 → List UInt8 → Except DevErr (List UInt8) × D
  getBlocks : D → List UInt64 → Except DevErr (List (UInt64 × Block)) × D
  putBlocks : D → List (UInt64 × Block) → Except DevErr Unit × D

def assignAll (f : UInt64 → Block) (blks : List (UInt64 × Block)) : UInt64 → Block :=
  blks.foldl (fun f b => Function.update f b.1 b.2) f

@[simp] lemma assignAll_nil (f : UInt64 → Block) : assignAll f [] = f := rfl
@[simp] lemma assignAll_cons (f : UInt64 → Block) (b : UInt64 × Block)
    (blks : List (UInt64 × Block)) :
    assignAll f (b :: blks) = assignAll (Function.update f b.1 b.2) blks := rfl

/-- Devices that store blocks as an array: requests in range do not fail, as long as the device takes
that many blocks at once. -/
structure ArrayDevice (D : Type*) extends DeviceOps D where
  Ready : D → Prop
  contents : D → UInt64 → Block
  Fits : ℕ → Prop
  getBlock_eq : ∀ d pbid, Ready d → pbid < numBlocks d → ∃ d', getBlock d pbid =
    (.ok (contents d pbid), d') ∧ Ready d' ∧ numBlocks d' = numBlocks d ∧ contents d' = contents d
  putBlock_eq : ∀ d pbid (blk : Block), Ready d → pbid < numBlocks d → ∃ buf d',
    putBlock d pbid blk.toList = (.ok buf, d') ∧ Ready d' ∧ numBlocks d' = numBlocks d ∧
      contents d' = Function.update (contents d) pbid blk
  getBlocks_eq : ∀ d pbids, Ready d → (∀ pbid ∈ pbids, pbid < numBlocks d) →
    pbids.Pairwise (· < ·) → Fits pbids.length → ∃ d', getBlocks d pbids =
      (.ok (pbids.map fun pbid => (pbid, contents d pbid)), d') ∧ Ready d' ∧
        numBlocks d' = numBlocks d ∧ contents d' = contents d
  putBlocks_eq : ∀ d (blks : List (UInt64 × Block)), Ready d →
    (∀ pbid ∈ blks.map Prod.fst, pbid < numBlocks d) → (blks.map Prod.fst).Pairwise (· < ·) →
    Fits blks.length → ∃ d', putBlocks d blks = (.ok (), d') ∧ Ready d' ∧
      numBlocks d' = numBlocks d ∧ contents d' = assignAll (contents d) blks

section Devices

inductive BlockDevice
  | disk (d : LocalDevice)
  | remote (l : RemoteLink)

namespace BlockDevice

variable (A : PacketKey) (ivs : UInt32 → Iv × Iv)

def numBlocks : BlockDevice → UInt64
  | .disk d => d.storage.numBlocks
  | .remote l => l.rd.numBlocks

def storage : BlockDevice → DeviceStorage
  | .disk d => d.storage
  | .remote l => l.nd.storage

def getBlock (dev : BlockDevice) (pbid : UInt64) : Except DevErr Block × BlockDevice :=
  match dev with
  | .disk d => (d.getBlock pbid, dev)
  | .remote l =>
    match l.call A ivs (.getBlock pbid) with
    | (.ok (.block blk), l) => (.ok blk, .remote l)
    | (.ok _, l) => (.error .badResponse, .remote l)
    | (.error e, l) => (.error e, .remote l)

/-- A local device reads the buffer. A remote device sends it and receives the response into it, of
which nothing is left once the block identifier is taken off. -/
def putBlock (dev : BlockDevice) (pbid : UInt64) (buf : List UInt8) :
    Except DevErr (List UInt8) × BlockDevice :=
  match dev with
  | .disk d =>
    if h : buf.length = blkSz then
      match d.putBlock pbid ⟨buf, h⟩ with
      | .ok d => (.ok buf, .disk d)
      | .error e => (.error e, dev)
    else (.error .shortBuffer, dev)
  | .remote l =>
    match l.call A ivs (.putBlock pbid buf) with
    | (.ok _, l) => (.ok [], .remote l)
    | (.error e, l) => (.error e, .remote l)

def getBlocks (dev : BlockDevice) (pbids : List UInt64) :
    Except DevErr (List (UInt64 × Block)) × BlockDevice :=
  match dev with
  | .disk d => (d.getBlocks pbids, dev)
  | .remote l =>
    match l.call A ivs (.getBlocks pbids) with
    | (.ok (.blocks blks), l) => (.ok blks, .remote l)
    | (.ok _, l) => (.error .badResponse, .remote l)
    | (.error e, l) => (.error e, .remote l)

def putBlocks (dev : BlockDevice) (blks : List (UInt64 × Block)) :
    Except DevErr Unit × BlockDevice :=
  match dev with
  | .disk d => ((d.putBlocks blks).1, .disk (d.putBlocks blks).2)
  | .remote l =>
    match l.call A ivs (.putBlocks blks) with
    | (.ok _, l) => (.ok (), .remote l)
    | (.error e, l) => (.error e, .remote l)

def ops : DeviceOps BlockDevice where
  numBlocks := numBlocks
  getBlock := getBlock A ivs
  putBlock := putBlock A ivs
  getBlocks := getBlocks A ivs
  putBlocks := putBlocks A ivs

def Ready : BlockDevice → Prop
  | .disk _ => True
  | .remote l => l.Ready ∧ l.rd.numBlocks = l.nd.storage.numBlocks

variable {A} {ivs}

lemma ready_connect (ivs : UInt32 → Iv × Iv) (hA : Aead.Correct A) {nd : NetworkDevice}
    (hsend : nd.sendSeq = 0) (hrecv : nd.recvSeq = 0) :
    (remote (RemoteLink.connect A ivs nd)).Ready := by
  obtain ⟨hready, hstorage⟩ := RemoteLink.connect_ready ivs hA hsend hrecv
  refine ⟨hready, ?_⟩
  rw [hstorage]
  exact RemoteLink.connect_numBlocks ivs hA hsend hrecv

lemma getBlock_spec (hA : Aead.Correct A) {dev : BlockDevice} (hr : dev.Ready) {pbid : UInt64}
    (hlt : pbid < dev.numBlocks) :
    ∃ dev', getBlock A ivs dev pbid = (.ok (dev.storage.blocks pbid), dev') ∧ dev'.Ready ∧
      dev'.numBlocks = dev.numBlocks ∧ dev'.storage.blocks = dev.storage.blocks := by
  cases dev with
  | disk d =>
    refine ⟨.disk d, ?_, hr, rfl, rfl⟩
    simp only [getBlock, LocalDevice.getBlock, DeviceStorage.getBlock_of_lt hlt, storage]
  | remote l =>
    obtain ⟨hready, hnum⟩ := hr
    have hin : (Request.getBlock pbid).InRange l.nd.storage.numBlocks := by
      simpa [Request.InRange, Request.ids, numBlocks, ← hnum] using hlt
    obtain ⟨hcall, hready'⟩ := hready.call_of_inRange ivs hA
      (show (Request.getBlock pbid).WellFormed from trivial) hin
    refine ⟨.remote _, ?_, ⟨hready', hnum⟩, rfl, rfl⟩
    simp only [getBlock, hcall, Request.value, storage]

lemma putBlock_remote (ivs : UInt32 → Iv × Iv) (hA : Aead.Correct A) {l : RemoteLink}
    (hr : (remote l).Ready) {pbid : UInt64} (hlt : pbid < l.rd.numBlocks) (blk : Block) :
    ∃ l', putBlock A ivs (remote l) pbid blk.toList = (.ok [], remote l') ∧ (remote l').Ready ∧
      l'.rd.numBlocks = l.rd.numBlocks ∧
      l'.nd.storage.blocks = Function.update l.nd.storage.blocks pbid blk := by
  obtain ⟨hready, hnum⟩ := hr
  have hin : (Request.putBlock pbid blk.toList).InRange l.nd.storage.numBlocks := by
    simpa [Request.InRange, Request.ids, ← hnum] using hlt
  obtain ⟨hcall, hready'⟩ := hready.call_of_inRange ivs hA
    (show (Request.putBlock pbid blk.toList).WellFormed from blk.length_toList) hin
  refine ⟨_, ?_, ⟨hready', ?_⟩, rfl, ?_⟩
  · simp only [putBlock, hcall]
  · exact hnum.trans (Request.apply_numBlocks _ _).symm
  · simp only [RemoteLink.answered, NetworkDevice.advance_storage, Request.apply,
      dif_pos blk.length_toList, DeviceStorage.write_blocks]

lemma putBlock_spec (hA : Aead.Correct A) {dev : BlockDevice} (hr : dev.Ready) {pbid : UInt64}
    (hlt : pbid < dev.numBlocks) (blk : Block) :
    ∃ buf dev', putBlock A ivs dev pbid blk.toList = (.ok buf, dev') ∧ dev'.Ready ∧
      dev'.numBlocks = dev.numBlocks ∧
      dev'.storage.blocks = Function.update dev.storage.blocks pbid blk := by
  cases dev with
  | disk d =>
    refine ⟨blk.toList, .disk { d with storage := d.storage.write pbid blk }, ?_, hr, rfl, rfl⟩
    simp only [putBlock, dif_pos blk.length_toList, LocalDevice.putBlock,
      DeviceStorage.putBlock_of_lt hlt]
  | remote l =>
    obtain ⟨l', hput, hspec⟩ := putBlock_remote ivs hA hr hlt blk
    exact ⟨[], .remote l', hput, hspec⟩

lemma getBlocks_spec (hA : Aead.Correct A) {dev : BlockDevice} (hr : dev.Ready)
    {pbids : List UInt64} (hlt : ∀ pbid ∈ pbids, pbid < dev.numBlocks)
    (hsorted : pbids.Pairwise (· < ·)) (hfit : 8 + (8 + blkSz)*pbids.length < 2^32) :
    ∃ dev', getBlocks A ivs dev pbids =
        (.ok (pbids.map fun pbid => (pbid, dev.storage.blocks pbid)), dev') ∧ dev'.Ready ∧
      dev'.numBlocks = dev.numBlocks ∧ dev'.storage.blocks = dev.storage.blocks := by
  cases dev with
  | disk d =>
    refine ⟨.disk d, ?_, hr, rfl, rfl⟩
    simp only [getBlocks, LocalDevice.getBlocks_of_lt hlt, storage]
  | remote l =>
    obtain ⟨hready, hnum⟩ := hr
    have hin : (Request.getBlocks pbids).InRange l.nd.storage.numBlocks := by
      rw [← hnum]
      exact hlt
    obtain ⟨hcall, hready'⟩ := hready.call_of_inRange ivs hA
      (show (Request.getBlocks pbids).WellFormed from ⟨hsorted, hfit⟩) hin
    refine ⟨.remote _, ?_, ⟨hready', hnum⟩, rfl, rfl⟩
    simp only [getBlocks, hcall, Request.value, storage]

lemma writeAll_blocks (s : DeviceStorage) (blks : List (UInt64 × Block)) :
    (s.writeAll blks).blocks = assignAll s.blocks blks := by
  induction blks generalizing s with
  | nil => rfl
  | cons b blks ih => rw [DeviceStorage.writeAll_cons, ih, DeviceStorage.write_blocks, assignAll_cons]

lemma putBlocks_spec (hA : Aead.Correct A) {dev : BlockDevice} (hr : dev.Ready)
    {blks : List (UInt64 × Block)} (hlt : ∀ pbid ∈ blks.map Prod.fst, pbid < dev.numBlocks)
    (hsorted : (blks.map Prod.fst).Pairwise (· < ·))
    (hfit : 8 + (8 + blkSz)*blks.length < 2^32) :
    ∃ dev', putBlocks A ivs dev blks = (.ok (), dev') ∧ dev'.Ready ∧
      dev'.numBlocks = dev.numBlocks ∧
      dev'.storage.blocks = assignAll dev.storage.blocks blks := by
  cases dev with
  | disk d =>
    refine ⟨.disk { d with storage := d.storage.writeAll blks }, ?_, hr, ?_, ?_⟩
    · simp only [putBlocks, LocalDevice.putBlocks_of_lt hlt]
    · exact d.storage.writeAll_numBlocks blks
    · exact writeAll_blocks d.storage blks
  | remote l =>
    obtain ⟨hready, hnum⟩ := hr
    have hin : (Request.putBlocks blks).InRange l.nd.storage.numBlocks := by
      rw [← hnum]
      exact hlt
    obtain ⟨hcall, hready'⟩ := hready.call_of_inRange ivs hA
      (show (Request.putBlocks blks).WellFormed from ⟨hsorted, hfit⟩) hin
    refine ⟨.remote _, ?_, ⟨hready', ?_⟩, rfl, writeAll_blocks l.nd.storage blks⟩
    · simp only [putBlocks, hcall]
    · exact hnum.trans (Request.apply_numBlocks _ _).symm

def arrays (ivs : UInt32 → Iv × Iv) (hA : Aead.Correct A) : ArrayDevice BlockDevice where
  toDeviceOps := ops A ivs
  Ready := Ready
  contents := fun dev => dev.storage.blocks
  Fits := fun n => 8 + (8 + blkSz)*n < 2^32
  getBlock_eq := fun _ _ hr hlt => getBlock_spec hA hr hlt
  putBlock_eq := fun _ _ blk hr hlt => putBlock_spec hA hr hlt blk
  getBlocks_eq := fun _ _ hr hlt hsorted hfit => getBlocks_spec hA hr hlt hsorted hfit
  putBlocks_eq := fun _ _ hr hlt hsorted hfit => putBlocks_spec hA hr hlt hsorted hfit

end BlockDevice

end Devices

end Bfs.Blk
