import Glomop.Cache.Handlers
import Glomop.Ptm.Aborts

/-!
# Packets that end a process

`survives_iff` says which packets end the receiving process.
-/

namespace Glomop.Cache

open Lib Prog IStream Option PTMPacketType Ptm

/-- A socket on which a packet arrives, with the state of its process. -/
inductive Receiver
  | ptmConnection (ipNumber : CString MAXIP → UInt32) (rounds c : ℕ) (s : Ptm.State)
  | ptmBus (ipNumber : CString MAXIP → UInt32) (rounds : ℕ) (s : Ptm.State)
  /-- The connection of a front end to its PTM; `connect` and `garbage` as in
  `evPTMPacketReceived`. -/
  | fePTMConnection (connect : Option Errors) (garbage : UInt32) (s : CacheManager)
  | feBus (connect : Option Errors) (s : CacheManager)
  | feDistillerConnection (s : CacheManager)

variable {α : Type} {stream : IStream}

namespace Receiver

/-- What `EvSelect` comes to, if it returns or aborts. -/
def result (p : Packet) (past : UInt8) : Receiver → Option Ptm.SelectResult
  | ptmConnection ipNumber rounds c s =>
    (Ptm.dispatch ipNumber rounds (.packet c p past) s).map Prod.fst
  | ptmBus ipNumber rounds s => (Ptm.dispatch ipNumber rounds (.bus p past) s).map Prod.fst
  | fePTMConnection connect garbage s =>
    (evSelect (evPTMPacketReceived connect garbage p past) evPTMConnectionBroken s).map Prod.fst
  | feBus connect s =>
    (evSelect (evBusPacketReceived connect p past) (fail .errSocketEOF) s).map Prod.fst
  | feDistillerConnection s =>
    (evSelect (evDistillerPacketReceived p past) evDistillerConnectionBroken s).map Prod.fst

def status : Receiver → Errors
  | ptmConnection _ _ _ s => s.status
  | fePTMConnection _ _ s | feDistillerConnection s => s.status
  | ptmBus .. | feBus .. => .success

def takeApart (p : Packet) : Receiver → ReadM Unit
  | ptmConnection _ _ c s =>
    match s.connections.cell c with
    | none => pure ()
    | some connection => Ptm.takeApart connection.record.isSome p
  | ptmBus .. =>
    match PTMPacketType.ofWord p.type with
    | some .pktPTMBeacon => discard Ptm.beaconIdentity
    | _ => pure ()
  | fePTMConnection _ garbage _ =>
    match PTMPacketType.ofWord p.type with
    | some .pktPTMBeacon => discard beaconAddress
    | some .pktAskForDistillerReply => discard (inputReplyStatus garbage)
    | _ => pure ()
  | feBus .. =>
    match PTMPacketType.ofWord p.type with
    | some .pktPTMBeacon => discard beaconAddress
    | _ => pure ()
  | feDistillerConnection _ =>
    match PTMPacketType.ofWord p.type with
    | some .pktDistillerOutput => discard Rpc.inputReply
    | _ => pure ()

/-- **The process survives a packet**: `EvSelect` does not abort it, and if the packet has no body,
the handler does not look into it. -/
def Survives (r : Receiver) (p : Packet) (past : UInt8) : Prop :=
  r.result p past ≠ some .aborted ∧
    (p.data = [] → Halts (r.takeApart p) (IStream.ofPacket p past r.status))

/-- Whether the handler of a packet of this type begins with reading text. -/
def readsText : Receiver → PTMPacketType → Bool
  | ptmConnection _ _ c s, type =>
    (s.connections.cell c).any fun connection => Ptm.readsText connection.record.isSome type
  | ptmBus .., .pktPTMBeacon | feBus .., .pktPTMBeacon => true
  | fePTMConnection .., .pktPTMBeacon | fePTMConnection .., .pktAskForDistillerReply => true
  | _, _ => false

/-- Whether the socket has a handler for beacons that can be refused without a status. -/
def hearsBeacons : Receiver → Bool
  | ptmBus .. | fePTMConnection .. | feBus .. => true
  | _ => false

variable {p : Packet} {past : UInt8}

/-! ## Aborts -/

lemma map_fst_eq_some {σ : Type} {x : Option (α × σ)} {a : α} :
    x.map Prod.fst = some a ↔ ∃ s', x = some (a, s') := by
  simp only [map_eq_some_iff, Prod.exists]
  exact exists_comm.trans (by simp)

/-- **Which packets abort the process.** -/
theorem result_aborted_iff (r : Receiver) :
    r.result p past = some .aborted ↔
      r.hearsBeacons = true ∧ ofWord p.type = some .pktPTMBeacon ∧
        r.status = .success ∧ Announces p.data 0 := by
  cases r with
  | ptmConnection ipNumber rounds c s =>
    refine iff_of_false (fun h => ?_) (by simp [hearsBeacons])
    obtain ⟨s', hr, hc⟩ := Ptm.handleSelect_aborted_iff.mp (map_fst_eq_some.mp h)
    exact Ptm.evPacketReceived_explained hr hc
  | ptmBus ipNumber rounds s =>
    refine (map_fst_eq_some.trans Ptm.handleSelect_aborted_iff).trans ?_
    rw [Ptm.evBusPacketReceived_refused_iff]
    simp [hearsBeacons, status]
  | fePTMConnection connect garbage s =>
    refine (map_fst_eq_some.trans Ptm.handleSelect_aborted_iff).trans ?_
    rw [evPTMPacketReceived_refused_iff]
    simp [hearsBeacons, status]
  | feBus connect s =>
    refine (map_fst_eq_some.trans Ptm.handleSelect_aborted_iff).trans ?_
    rw [evBusPacketReceived_refused_iff]
    simp [hearsBeacons, status]
  | feDistillerConnection s =>
    refine iff_of_false (fun h => ?_) (by simp [hearsBeacons])
    obtain ⟨s', hr, hc⟩ := Ptm.handleSelect_aborted_iff.mp (map_fst_eq_some.mp h)
    exact evDistillerPacketReceived_explained s' hr hc

/-! ## Empty bodies -/

lemma halts_iff {σ : Type} {x : Prog σ α} {s : σ} : Halts x s ↔ x s ≠ none := by
  rw [ne_none_iff_exists']
  exact ⟨fun ⟨a, s', h⟩ => ⟨(a, s'), h⟩, fun ⟨⟨a, s'⟩, h⟩ => ⟨a, s', h⟩⟩

lemma beaconIdentity_null (h : stream.Null) : beaconIdentity stream = none := by
  rw [beaconIdentity, bind_run rfl]
  exact bind_none ((h.delimit _).inputRemoteID _) _

lemma beaconAddress_null (h : stream.Null) : beaconAddress stream = none := by
  rw [beaconAddress, bind_run rfl]
  exact bind_none ((h.delimit _).inputRemoteID _) _

lemma inputReplyStatus_null (h : stream.Null) (garbage : UInt32) :
    inputReplyStatus garbage stream = none := by
  rw [inputReplyStatus, bind_run rfl]
  exact bind_none ((h.delimit _).inputNumber _ _ _) _

lemma inputReply_of_empty (h : p.data = []) (past : UInt8) (status : Errors) :
    Rpc.inputReply (ofPacket p past status) ≠ none := by
  obtain ⟨type, id, data, hl⟩ := p
  subst h
  exact nofun

lemma exists_of_some {a : α} {P : α → Prop} : (∃ b, some a = some b ∧ P b) ↔ P a := by
  simp

lemma takeApart_of_none (r : Receiver) (ht : ofWord p.type = none) : r.takeApart p = pure () := by
  cases r with
  | ptmConnection ipNumber rounds c s =>
    cases hc : s.connections.cell c <;> simp only [takeApart, Ptm.takeApart, hc, ht]
  | _ => simp only [takeApart, ht]

/-- **Which packets cannot be taken apart without a body.** -/
theorem takeApart_eq_none_iff (r : Receiver) (h : p.data = []) :
    r.takeApart p (ofPacket p past r.status) = none ↔
      ∃ type, ofWord p.type = some type ∧ r.readsText type = true := by
  have hn := null_ofPacket h past r.status
  have hr := inputReply_of_empty h past r.status
  cases ht : ofWord p.type with
  | none =>
    rw [r.takeApart_of_none ht]
    exact iff_of_false nofun nofun
  | some type =>
    rw [exists_of_some]
    cases r with
    | ptmConnection ipNumber rounds c s =>
      simp only [takeApart, readsText, status]
      cases hc : s.connections.cell c with
      | none => exact iff_of_false nofun nofun
      | some connection =>
        refine (Ptm.takeApart_eq_none_iff h).trans ?_
        rw [ht, exists_of_some]
        rfl
    | ptmBus ipNumber rounds s =>
      simp only [takeApart, ht]
      cases type with
      | pktPTMBeacon =>
        exact iff_of_true (discard_eq_none_iff.mpr (beaconIdentity_null hn)) rfl
      | _ => exact iff_of_false nofun nofun
    | fePTMConnection connect garbage s =>
      simp only [takeApart, ht]
      cases type with
      | pktPTMBeacon =>
        exact iff_of_true (discard_eq_none_iff.mpr (beaconAddress_null hn)) rfl
      | pktAskForDistillerReply =>
        exact iff_of_true (discard_eq_none_iff.mpr (inputReplyStatus_null hn garbage)) rfl
      | _ => exact iff_of_false nofun nofun
    | feBus connect s =>
      simp only [takeApart, ht]
      cases type with
      | pktPTMBeacon =>
        exact iff_of_true (discard_eq_none_iff.mpr (beaconAddress_null hn)) rfl
      | _ => exact iff_of_false nofun nofun
    | feDistillerConnection s =>
      simp only [takeApart, ht]
      cases type with
      | pktDistillerOutput =>
        exact iff_of_false (fun hno => hr (discard_eq_none_iff.mp hno)) nofun
      | _ => exact iff_of_false nofun nofun

lemma onPacket_eq_none {s : CacheManager} {x : ReadM α}
    (h : x (ofPacket p past s.status) = none) : onPacket p past x s = none := by
  have hs : onStream (ofPacket p past s.status) x s = none := by
    change (x (ofPacket p past s.status)).map _ = none
    rw [h]
    rfl
  rw [onPacket, get_bind_run, hs]

/-- **A packet that cannot be taken apart ends the process**: `EvSelect` does not return. -/
theorem result_eq_none (r : Receiver)
    (h : r.takeApart p (ofPacket p past r.status) = none) : r.result p past = none := by
  cases ht : ofWord p.type with
  | none =>
    rw [r.takeApart_of_none ht] at h
    cases h
  | some type =>
    cases r with
    | ptmConnection ipNumber rounds c s =>
      simp only [takeApart, status] at h
      cases hc : s.connections.cell c with
      | none =>
        rw [hc] at h
        cases h
      | some connection =>
        rw [hc] at h
        exact map_eq_none_iff.mpr (bind_none (evPacketReceived_eq_none hc h) _)
    | ptmBus ipNumber rounds s =>
      refine map_eq_none_iff.mpr (bind_none ?_ _)
      rw [Ptm.evBusPacketReceived, Ptm.setStatus, bind_run rfl, ht]
      simp only [takeApart, ht] at h
      cases type with
      | pktPTMBeacon =>
        exact bind_none (runStream_eq_none (discard_eq_none_iff.mp h)) _
      | _ => cases h
    | fePTMConnection connect garbage s =>
      refine map_eq_none_iff.mpr (bind_none ?_ _)
      rw [evPTMPacketReceived, ht]
      simp only [takeApart, ht] at h
      cases type with
      | pktPTMBeacon | pktAskForDistillerReply =>
        exact bind_none (onPacket_eq_none (discard_eq_none_iff.mp h)) _
      | _ => cases h
    | feBus connect s =>
      refine map_eq_none_iff.mpr (bind_none ?_ _)
      rw [evBusPacketReceived, setStatus, bind_run rfl, ht]
      simp only [takeApart, ht] at h
      cases type with
      | pktPTMBeacon => exact bind_none (onPacket_eq_none (discard_eq_none_iff.mp h)) _
      | _ => cases h
    | feDistillerConnection s =>
      refine map_eq_none_iff.mpr (bind_none ?_ _)
      rw [evDistillerPacketReceived, ht]
      simp only [takeApart, ht] at h
      cases type with
      | pktDistillerOutput =>
        exact bind_none (onPacket_eq_none (discard_eq_none_iff.mp h)) _
      | _ => cases h

/-- **Which packets end a process.**  The process survives a packet, unless the packet has no body
and its handler begins with reading text, or the packet is a beacon that announces port 0 and the
handler starts with a clean status. -/
theorem survives_iff (r : Receiver) (p : Packet) (past : UInt8) :
    r.Survives p past ↔
      ¬ (p.data = [] ∧ ∃ type, PTMPacketType.ofWord p.type = some type ∧ r.readsText type = true) ∧
      ¬ (r.hearsBeacons = true ∧ PTMPacketType.ofWord p.type = some .pktPTMBeacon ∧
        r.status = .success ∧ Announces p.data 0) := by
  have hb : (p.data = [] → Halts (r.takeApart p) (IStream.ofPacket p past r.status)) ↔
      ¬ (p.data = [] ∧ ∃ type, ofWord p.type = some type ∧ r.readsText type = true) := by
    rw [not_and]
    refine forall_congr' fun h => ?_
    rw [halts_iff, ne_eq, takeApart_eq_none_iff r h]
  rw [Survives, ne_eq, result_aborted_iff, hb, and_comm]

/-- The beacon `1/0|RRRR`. -/
def zeroPortBeacon : Packet where
  type := PTMPacketType.pktPTMBeacon.toWord
  requestReplyID := NoRequestReply
  data := [49, 47, 48, 124, 0, 0, 0, 1]
  length_le := by decide

def emptyRegistration : Packet where
  type := PTMPacketType.pktRegisterDistiller.toWord
  requestReplyID := NoRequestReply
  data := []
  length_le := by decide

def newPTM : Ptm.State := .start ⟨⟨[49], noNul_1, fits_1⟩, 80⟩ 7

/-- A front end that has just started, and has no PTM yet. -/
def newFrontEnd : CacheManager where
  manager := ⟨false, some 0, [0], 1, false, false, 0, true⟩
  cache := ⟨Keyed.empty, nofun⟩
  negativeCache := .new
  evs := .new
  status := .success
  delivered := []

/-- One datagram on the bus aborts the PTM and every front end that hears it; a registration without
a body, sent over a new connection, ends the PTM as well. -/
theorem zeroPortBeacon_kills : ¬ (ptmBus (fun _ => 0) 0 newPTM).Survives zeroPortBeacon 0 ∧
    ¬ (feBus none newFrontEnd).Survives zeroPortBeacon 0 ∧
    ¬ (fePTMConnection none 0 newFrontEnd).Survives zeroPortBeacon 0 ∧
    ¬ (ptmConnection (fun _ => 0) 0 0 newPTM.acceptConnection).Survives emptyRegistration 0 := by
  refine ⟨fun h => h.1 ?_, fun h => h.1 ?_, fun h => h.1 ?_, fun h => ?_⟩
  · decide +kernel
  · decide +kernel
  · decide +kernel
  · refine halts_iff.mp (h.2 rfl) ?_
    exact (takeApart_eq_none_iff _ rfl).mpr ⟨.pktRegisterDistiller, rfl, rfl⟩

end Receiver

end Glomop.Cache
