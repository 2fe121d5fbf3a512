import Glomop.Ptm.Beacon

/-!
# Reading a beacon at a front end

`PTMBeaconHandler` takes the PTM's address off the packet and hands the rest to
`DistillerInfoHandler`.  Reader and writer share no description of the format; an address with port
0 is refused (`zeroPortBeacon_refused`).
-/

namespace Glomop.Cache

open Lib Prog IStream UInt32
open List hiding get

/-- The part of the handler's state that `getNext` uses.
`cachenet.h` `class DistillerInfoHandler`. -/
structure DistillerInfo where
  numberOfDistillers : UInt32
  idx : UInt32

/-- The first half of the beacon handler: the PTM's address, or `none` where the handler returns
`gm_False` without more ado.
`cachenet.cc` `PTMBeaconHandler::Handle`. -/
def beaconAddress : ReadM (Option RemoteID) := do
  delimit bar
  let rid ← inputRemoteID RemoteID.empty
  skip
  binary true
  let _dummyRandomID ← inputUInt32 0
  binary false
  skip
  let s ← get
  if s.isGood = false ∨ rid.port = 0 then return none else return some rid

/-- The count in front of the records, or `none` where the handler returns `gm_False`.
`cachenet.cc` `DistillerInfoHandler::Handle`. -/
def distillerInfo : ReadM (Option DistillerInfo) := do
  binary true
  let numberOfDistillers ← inputUInt32 0
  delimit bar
  let s ← get
  if s.isGood = false then return none else return some ⟨numberOfDistillers, 0⟩

/-- The next record, into the caller's variable `record`.
`cachenet.cc`. -/
def getNext (info : DistillerInfo) (record : BasicDistiller) :
    ReadM (Bool × DistillerInfo × BasicDistiller) := do
  if info.idx ≥ info.numberOfDistillers then return (false, info, record)
  else
    let info := { info with idx := info.idx + 1 }
    let record ← inputDistiller record
    skip
    let s ← get
    return (s.isGood, info, record)

/-- Call `getNext` until it returns `gm_False`, and collect the records.  A handler announces
at most `numberOfDistillers` of them, so one call more is always enough.

Source: the loop of `cache.cc` `DistillerCache::Update`. -/
def collect : ℕ → DistillerInfo → BasicDistiller → ReadM (List BasicDistiller)
  | 0, _, _ => return []
  | calls + 1, info, record => do
    let (more, info, record) ← getNext info record
    if more then
      let records ← collect calls info record
      return record :: records
    else return []

/-- A front end reading a beacon: the PTM's address and the records, or `none` where the packet
is refused. -/
def readBeacon : ReadM (Option (RemoteID × List BasicDistiller)) := do
  match ← beaconAddress with
  | none => return none
  | some rid =>
    match ← distillerInfo with
    | none => return none
    | some info =>
      let records ← collect (info.numberOfDistillers.toNat + 1) info BasicDistiller.empty
      return some (rid, records)

/-! ## Reading what the PTM writes -/

variable {d : UInt8} {rid : RemoteID}

section RoundTrip

open Ptm

variable {s : IStream} {w : UInt32} {r : Bytes} {st : Errors}

lemma returns_beaconAddress (hp : rid.port ≠ 0) (hip : slash ∉ rid.ipAddress.chars)
    {randomID : UInt32}
    (h : s.Shows d w false (rid.text ++ bar :: (htonl randomID ++ bar :: r)) st) :
    Returns beaconAddress s (some rid) (·.Shows bar w false r st) := by
  unfold beaconAddress
  refine .bind (returns_delimit h bar) fun s1 h1 => ?_
  refine .bind (returns_inputRemoteID hip separates_bar h1) fun s2 h2 => ?_
  refine .bind (returns_skip h2) fun s3 h3 => ?_
  refine .bind (returns_binary h3 true) fun s4 h4 => ?_
  refine .bind (returns_inputUInt32_binary h4) fun s5 h5 => ?_
  refine .bind (returns_binary h5 false) fun s6 h6 => ?_
  refine .bind (returns_skip h6) fun s7 h7 => ?_
  refine .bind (returns_get h7) fun s8 h8 => ?_
  rw [if_neg (by simp [h7.good, hp])]
  exact .pure _ h8

lemma returns_distillerInfo {b : Bool} {n : UInt32} (h : s.Shows d w b (htonl n ++ r) st) :
    Returns distillerInfo s (some ⟨n, 0⟩) (·.Shows bar w true r st) := by
  unfold distillerInfo
  refine .bind (returns_binary h true) fun s1 h1 => ?_
  refine .bind (returns_inputUInt32_binary h1) fun s2 h2 => ?_
  refine .bind (returns_delimit h2 bar) fun s3 h3 => ?_
  refine .bind (returns_get h3) fun s4 h4 => ?_
  rw [if_neg (by simp [h3.good])]
  exact .pure _ h4

lemma returns_getNext {info : DistillerInfo} {record old : BasicDistiller}
    (hi : info.idx < info.numberOfDistillers) (hc : record.Clean)
    (h : s.Shows bar w true (record.text ++ bar :: r) st) :
    Returns (getNext info old) s (true, { info with idx := info.idx + 1 }, record)
      (·.Shows bar w true r st) := by
  unfold getNext
  rw [if_neg (UInt32.not_le.mpr hi)]
  refine .bind (returns_inputDistiller hc separates_bar h) fun s1 h1 => ?_
  refine .bind (returns_skip h1) fun s2 h2 => ?_
  refine .bind (returns_get h2) fun s3 h3 => ?_
  rw [h2.good]
  exact .pure _ h3

/-- **All records are read off**, in order, and then the loop stops. -/
theorem returns_collect (records : List BasicDistiller) (hcl : ∀ r ∈ records, r.Clean)
    (info : DistillerInfo) {calls : ℕ} (old : BasicDistiller)
    (hc : info.idx.toNat + records.length = info.numberOfDistillers.toNat)
    (hca : records.length < calls) (h : s.Shows bar w true (recordsText records ++ r) st) :
    Returns (collect calls info old) s records (·.Shows bar w true r st) := by
  induction records generalizing s info calls old with
  | nil =>
    obtain ⟨calls, rfl⟩ : ∃ n, calls = n + 1 := ⟨calls - 1, by simp at hca; omega⟩
    have hi : info.numberOfDistillers ≤ info.idx := le_iff_toNat_le.mpr (by simp at hc; omega)
    have hd : Returns (getNext info old) s (false, info, old) (·.Shows bar w true r st) := by
      unfold getNext
      rw [if_pos hi]
      exact .pure _ h
    exact .bind hd fun _ h1 => .pure [] h1
  | cons record records ih =>
    obtain ⟨calls, rfl⟩ : ∃ n, calls = n + 1 := ⟨calls - 1, by omega⟩
    rw [length_cons] at hc hca
    have hlt : info.idx.toNat < info.numberOfDistillers.toNat := by omega
    have hn : (info.idx + 1).toNat = info.idx.toNat + 1 := by
      have h1 : (1 : UInt32).toNat = 1 := rfl
      have hm := info.numberOfDistillers.toNat_lt
      rw [UInt32.toNat_add, h1]
      omega
    have ht : recordsText (record :: records) ++ r =
        record.text ++ bar :: (recordsText records ++ r) := by
      simp [recordsText]
    rw [ht] at h
    refine Returns.bind (returns_getNext (lt_iff_toNat_lt.mpr hlt)
      (hcl record mem_cons_self) h) fun s1 h₁ => ?_
    have hre := ih (fun r hr => hcl r (.tail _ hr))
      { info with idx := info.idx + 1 } record (by simp only [hn]; omega)
      (by omega : records.length < calls) h₁
    exact Returns.bind hre fun s2 h2 => Returns.pure _ h2

lemma length_le_recordsText (records : List BasicDistiller) :
    records.length ≤ (recordsText records).length := by
  induction records with
  | nil => simp
  | cons record records ih =>
    simp only [recordsText, flatMap_cons, length_append, length_cons, length_nil] at ih ⊢
    omega

lemma returns_readBeacon (hp : rid.port ≠ 0) (hip : slash ∉ rid.ipAddress.chars) (randomID : UInt32)
    {records : List BasicDistiller} (hcl : ∀ r ∈ records, r.Clean) (hlen : records.length < 2 ^ 32)
    (h : s.Shows d w false (beaconText rid randomID records ++ r) st) :
    Returns readBeacon s (some (rid, records)) (·.Shows bar w true r st) := by
  have ht : beaconText rid randomID records ++ r = rid.text ++ bar :: (htonl randomID ++
      bar :: (htonl (ofNat records.length) ++ (recordsText records ++ r))) := by
    simp [beaconText, distillerListText]
  rw [ht] at h
  have hc : (ofNat records.length).toNat = records.length := by
    rw [toNat_ofNat', Nat.mod_eq_of_lt hlen]
  unfold readBeacon
  refine .bind (returns_beaconAddress hp hip h) fun s1 h1 => ?_
  refine .bind (returns_distillerInfo h1) fun s2 h2 => ?_
  refine Returns.bind (returns_collect records hcl _ BasicDistiller.empty
    (by simpa using hc.symm) (by simp only [hc]; omega) h2) fun s3 h3 => ?_
  exact .pure _ h3

lemma readBeacon_of_sendBeacon (hpo : rid.port ≠ 0) (hip : slash ∉ rid.ipAddress.chars)
    {randomID : UInt32} {list : List DistillerRecord} (hc : ∀ r ∈ awake list, r.Clean)
    {p : Packet} (hp : sendBeacon rid randomID list = some p) (past : UInt8) (st : Errors) :
    ∃ s', readBeacon (ofPacket p past st) = some (some (rid, awake list), s') ∧
      s'.isGood = true ∧ s'.status = st := by
  have hd := sendBeacon_data hp
  have hs : (ofPacket p past st).Shows 0 p.getLength false
      (beaconText rid randomID (awake list) ++ [0]) st :=
    ⟨rfl, rfl, rfl, rfl, hd, rfl⟩
  have hlen : (awake list).length < 2 ^ 32 := by
    have h1 := p.length_le
    have h2 := length_le_recordsText (awake list)
    simp only [hd, beaconText, distillerListText, length_append, length_cons] at h1
    simp only [maxPacketLength] at h1
    omega
  obtain ⟨s', hrun, hs'⟩ := returns_readBeacon hpo hip randomID hc hlen hs
  exact ⟨s', hrun, hs'.good, hs'.status_eq⟩

/-- **Beacon round trip.**  For every address with a port, random id and list of clean records, the
packet is built as long as it is shorter than `2 ^ 31` bytes, and a front end that reads it gets the
address and exactly the awake records, in order, without a stream error. -/
theorem beacon_roundTrip (ptmAddress : RemoteID) (ptmRandomID : UInt32)
    (list : List DistillerRecord) (hport : ptmAddress.port ≠ 0)
    (hip : slash ∉ ptmAddress.ipAddress.chars)
    (hclean : ∀ r ∈ list, slash ∉ r.rid.ipAddress.chars ∧ bar ∉ r.type.chars) :
    ((beaconText ptmAddress ptmRandomID (awake list)).length < 2 ^ 31 →
      ∃ p, sendBeacon ptmAddress ptmRandomID list = some p) ∧
    ∀ p, sendBeacon ptmAddress ptmRandomID list = some p → ∀ past st,
      ∃ s', readBeacon (IStream.ofPacket p past st) = some (some (ptmAddress, awake list), s') ∧
        s'.isGood = true ∧ s'.status = st := by
  refine ⟨fun hlen => sendBeacon_isSome _ _ _ hlen, fun p hp past st => ?_⟩
  refine readBeacon_of_sendBeacon hport hip (fun r hr => ?_) hp past st
  obtain ⟨record, hre, rfl⟩ := mem_map.mp hr
  obtain ⟨h1, h2⟩ := hclean record (mem_of_mem_filter hre)
  exact ⟨h1, h2⟩

/-- An awake distiller with a load, used in concrete runs. -/
def sampleRecord : DistillerRecord where
  rid := ⟨⟨[49, 46, 50], by decide, by decide⟩, 7⟩
  type := ⟨[103, 105, 102], by decide, by decide⟩
  load := ⟨12, 10⟩
  privateConnection := 0
  sleepStatus := distWakeUp
  history := [Load.zero]
  currentPos := 0
  loadOverHistory := Load.zero
  launchRecord := none
  mustRestartOnDeath := 0
  currentPos_lt := by decide

/-- The round trip at a beacon with one record, whose random id is made of delimiters. -/
theorem beacon_roundTrip_sample :
    ∃ p, sendBeacon ⟨⟨[49], by decide, by decide⟩, 80⟩ 0x7C2F007C [sampleRecord] = some p ∧
      ∃ s', readBeacon (IStream.ofPacket p 0 .success) =
          some (some (⟨⟨[49], by decide, by decide⟩, 80⟩, awake [sampleRecord]), s') ∧
        s'.isGood = true ∧ s'.status = .success := by
  have h := beacon_roundTrip ⟨⟨[49], by decide, by decide⟩, 80⟩ 0x7C2F007C [sampleRecord]
    (by decide) (by decide) (by decide)
  obtain ⟨p, hp⟩ := h.1 (by decide +kernel)
  exact ⟨p, hp, h.2 p hp 0 .success⟩

/-- A beacon from a PTM whose address has port 0 is refused by the front end. -/
theorem zeroPortBeacon_refused :
    ((sendBeacon ⟨⟨[49], by decide, by decide⟩, 0⟩ 1 []).bind fun p =>
      (readBeacon (IStream.ofPacket p 0 .success)).map Prod.fst) = some none := by
  decide +kernel

end RoundTrip

end Glomop.Cache
