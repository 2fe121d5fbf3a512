import Glomop.Ptm.State

/-!
# The packets a PTM builds

A beacon tells every front end where the PTM is and which distillers are awake:

    ip/port|RRRR|CCCC record|record|...|NUL

The random id `RRRR` and the number of records `CCCC` are four raw bytes.  The count is patched in
once the records have been written, into a buffer that may have moved in between.
Source: `ptmnet.cc`.
-/

namespace Glomop.Ptm

open Lib OStream IStream Prog DistillerRecord
open List hiding get

/-- The loop over the records: those that are not awake are passed over.
`ConstructDistillerList`. -/
def outputAwake : List DistillerRecord → UInt32 → WriteM UInt32
  | [], numberOfDistillers => return numberOfDistillers
  | record :: list, numberOfDistillers =>
    if record.sleepStatus ≠ distWakeUp then outputAwake list numberOfDistillers
    else do
      outputDistiller record.toBasicDistiller
      outputChar bar
      outputAwake list (numberOfDistillers + 1)

def constructDistillerList (list : List DistillerRecord) : WriteM Unit := do
  let s ← get
  let distillersPos := s.written.length
  binary true
  outputUInt32 0
  binary false
  let numberOfDistillers ← outputAwake list 0
  poke distillersPos (htonl numberOfDistillers)

/-- The packet that `SendBeacon_` writes. -/
def sendBeacon (ptmAddress : RemoteID) (ptmRandomID : UInt32) (list : List DistillerRecord) :
    Option Packet := do
  let (_, stream) ← (do
    outputRemoteID ptmAddress
    outputChar bar
    binary true
    outputUInt32 ptmRandomID
    binary false
    outputChar bar
    constructDistillerList list : WriteM Unit) OStream.new
  return stream.toPacket PTMPacketType.pktPTMBeacon.toWord NoRequestReply

/-- The packet that `AskForDistillerReply` writes.  `PrivateConnection::AskForDistillerReply`. -/
def replyPacket (replyID : UInt32) (status : AskForDistillerStatus) (list : List DistillerRecord) :
    Option Packet := do
  let (_, stream) ← (do
    outputUInt32 status.toWord
    outputChar bar
    constructDistillerList list : WriteM Unit) OStream.new
  return stream.toPacket PTMPacketType.pktAskForDistillerReply.toWord replyID

/-! ## What the packets contain -/

/-- The distillers that a list of records announces: the awake ones. -/
def awake (list : List DistillerRecord) : List BasicDistiller :=
  (list.filter DistillerRecord.isAwake).map DistillerRecord.toBasicDistiller

/-- The records of a distiller list, each followed by a `|`. -/
def recordsText (list : List BasicDistiller) : Bytes :=
  list.flatMap fun record => record.text ++ [bar]

def distillerListText (list : List BasicDistiller) : Bytes :=
  htonl (UInt32.ofNat list.length) ++ recordsText list

def beaconText (ptmAddress : RemoteID) (ptmRandomID : UInt32) (list : List BasicDistiller) :
    Bytes :=
  ptmAddress.text ++ bar :: (htonl ptmRandomID ++ bar :: distillerListText list)

lemma awake_cons (record : DistillerRecord) (list : List DistillerRecord) :
    awake (record :: list) =
      if record.isAwake then record.toBasicDistiller :: awake list else awake list := by
  by_cases h : record.isAwake <;> simp [awake, h]

/-- The loop writes the awake records, and returns their number. -/
lemma exists_emits_outputAwake (list : List DistillerRecord) (n : UInt32) :
    ∃ x, Emits false false x (recordsText (awake list)) ∧
      outputAwake list n = x >>= fun _ => pure (n + UInt32.ofNat (awake list).length) := by
  induction list generalizing n with
  | nil => exact ⟨pure (), Emits.pure false, by simp [outputAwake, awake]⟩
  | cons record list ih =>
    by_cases hw : record.sleepStatus = distWakeUp
    · obtain ⟨x, hx, ho⟩ := ih (n + 1)
      have he := (emits_outputDistiller false record.toBasicDistiller).seq
        ((Emits.outputChar false bar).seq hx)
      rw [awake_cons, if_pos (by simpa [isAwake] using hw), outputAwake,
        if_neg (by simpa using hw), ho]
      refine ⟨_, by simpa [recordsText] using he, ?_⟩
      rw [length_cons, UInt32.ofNat_add, add_comm (UInt32.ofNat _), ← add_assoc]
      simp
    · rw [awake_cons, if_neg (by simpa [isAwake] using hw), outputAwake, if_pos hw]
      exact ih n

private lemma emits_countPlace : Emits false false
    (do binary true; outputUInt32 0; binary false) (htonl 0) := by
  have h := (Emits.binary false true).seq <| (Emits.outputUInt32 true 0).seq <|
    Emits.binary true false
  simpa using h

/-- **The distiller list**: the number of awake records, then these records. -/
theorem emits_constructDistillerList (list : List DistillerRecord) :
    Emits false false (constructDistillerList list) (distillerListText (awake list)) := by
  obtain ⟨x, hx, ho⟩ := exists_emits_outputAwake list 0
  have h := (emits_countPlace.seq hx).patch (htonl 0) (htonl (.ofNat (awake list).length)) rfl
  simpa [constructDistillerList, ho, distillerListText] using h

/-- The writing half of `SendBeacon_` appends the beacon. -/
private lemma emits_beacon (ptmAddress : RemoteID) (ptmRandomID : UInt32)
    (list : List DistillerRecord) : Emits false false
      (do outputRemoteID ptmAddress
          outputChar bar
          binary true
          outputUInt32 ptmRandomID
          binary false
          outputChar bar
          constructDistillerList list)
      (beaconText ptmAddress ptmRandomID (awake list)) := by
  have h := (emits_outputRemoteID false ptmAddress).seq <| (Emits.outputChar false bar).seq <|
    (Emits.binary false true).seq <| (Emits.outputUInt32 true ptmRandomID).seq <|
    (Emits.binary true false).seq <| (Emits.outputChar false bar).seq <|
    emits_constructDistillerList list
  simpa [beaconText] using h

/-- **What a beacon packet contains**: address, random id and the awake records, then a NUL. -/
theorem sendBeacon_data {ptmAddress : RemoteID} {ptmRandomID : UInt32} {list : List DistillerRecord}
    {p : Packet} (h : sendBeacon ptmAddress ptmRandomID list = some p) :
    p.data = beaconText ptmAddress ptmRandomID (awake list) ++ [0] := by
  unfold sendBeacon at h
  obtain ⟨⟨_, s'⟩, hrun, hp⟩ := Option.bind_eq_some_iff.mp h
  obtain ⟨hw, -⟩ := (emits_beacon ptmAddress ptmRandomID list).sound _ _ rfl hrun
  cases hp
  change s'.written ++ [0] = _
  rw [hw]
  rfl

/-- **The beacon is built** unless it is longer than any packet can be. -/
theorem sendBeacon_isSome (ptmAddress : RemoteID) (ptmRandomID : UInt32)
    (list : List DistillerRecord)
    (hlen : (beaconText ptmAddress ptmRandomID (awake list)).length < 2 ^ 31) :
    ∃ p, sendBeacon ptmAddress ptmRandomID list = some p := by
  obtain ⟨s', h⟩ := (emits_beacon ptmAddress ptmRandomID list).total OStream.new rfl (by
    change 0 + _ < _
    omega)
  exact ⟨_, by
    unfold sendBeacon
    rw [h]
    rfl⟩

end Glomop.Ptm
