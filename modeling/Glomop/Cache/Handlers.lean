import Glomop.Cache.Asking
import Glomop.Cache.Beacon
import Glomop.Cache.DistillerCache
import Glomop.Database.BeaconHead
import Glomop.Dist.Rpc
import Glomop.Ptm.Rounds

/-!
# The packet handlers of a front end

A front end gets packets over its connection to the PTM, over the shared bus and over its
connections to distillers.  The generic handler of select errors aborts the process if a handler has
failed and the thread's status is `success`: only for a beacon that announces port 0
(`evPTMPacketReceived_refused_iff` and its two companions).  Source: `cachenet.cc`.
-/

namespace Glomop.Cache

open Lib Share Prog IStream PTMPacketType

inductive Reply
  | askForDistiller (status : UInt32)
  | distillerRequest (reply : Rpc.DistillerReply)

/-- A front end, and the thread that handles a packet.
`cacheman.h`. -/
structure CacheManager where
  manager : Manager
  cache : DistillerCache
  negativeCache : NegativeCache
  evs : RequestReplyEventSystem
  /-- The status of the thread's `Error` object. -/
  status : Errors
  delivered : List (RequestReply × Reply)

abbrev HandlerM := Prog CacheManager

def setStatus (status : Errors) : HandlerM Unit := modify fun s => { s with status := status }

/-- `Return(gm_False, errorCode)`. -/
def fail (errorCode : Errors) : HandlerM Bool := do
  setStatus errorCode
  return false

def onStream {α : Type} (stream : IStream) (x : ReadM α) : HandlerM (α × IStream) := fun s =>
  (x { stream with status := s.status }).map fun (a, stream) =>
    ((a, stream), { s with status := stream.status })

def onPacket {α : Type} (p : Packet) (past : UInt8) (x : ReadM α) : HandlerM (α × IStream) := do
  let s ← get
  onStream (IStream.ofPacket p past s.status) x

def flushNCache : HandlerM Unit := do
  let s ← get
  let negativeCache ← Prog.ofOption s.negativeCache.flush
  set { s with negativeCache := negativeCache }

/-- `connect` is the error with which connecting to the PTM fails, if it does.  All but
`errOutOfMemory` are put aside.
`cacheman.cc`. -/
def evPTMLocationReceived (connect : Option Errors) : HandlerM Bool := do
  let s ← get
  set { s with manager := (s.manager.evPTMLocationReceived connect).2 }
  if s.manager.ptmConnection then return true
  else if connect = some .errOutOfMemory then fail .errOutOfMemory
  else
    setStatus (if connect.isSome then .success else s.status)
    flushNCache
    return true

/-- A record that cannot be entered is reported as `errDuplicateIndexEntry`.
`cacheman.h` `CacheManager::UpdateCache__`, `cache.cc` `DistillerCache::Update`. -/
def updateCache (complete : Bool) (records : List BasicDistiller) : HandlerM Bool := do
  let s ← get
  let (updated, cache) ← Prog.ofOption (s.cache.update complete records (s.status = .success))
  set { s with
    cache := cache
    status :=
      if updated = false ∧ s.status = Errors.success then .errDuplicateIndexEntry else s.status }
  return updated

/-- `DistillerInfoHandler::Handle`. -/
def distillerInfoHandle (stream : IStream) (completeUpdate : Bool) : HandlerM Bool := do
  match ← onStream stream distillerInfo with
  | (none, _) => return false
  | (some info, stream) =>
    let (records, _) ← onStream stream
      (collect (info.numberOfDistillers.toNat + 1) info BasicDistiller.empty)
    updateCache completeUpdate records

/-- `PTMBeaconHandler::Handle`. -/
def beaconHandle (p : Packet) (past : UInt8) (connect : Option Errors) : HandlerM Bool := do
  match ← onPacket p past beaconAddress with
  | (none, _) => return false
  | (some _, stream) =>
    if ← evPTMLocationReceived connect then distillerInfoHandle stream true else return false

/-- The objects that wait for replies take what they are sent.
`reqrep.cc` `RequestReplyEventSystem::SendReplyReceivedEvent`, `cacheman.cc`
`CacheManager::AskForDistiller::EvReplyReceived`, `cachenet.cc`
`DistillerRequest::EvReplyReceived`. -/
def sendReplyReceivedEvent (requestReplyID : UInt32) (reply : Reply) : HandlerM Bool := do
  let s ← get
  match ← Prog.ofOption (s.evs.sendReplyReceivedEvent requestReplyID) with
  | none => return true
  | some request =>
    set { s with delivered := (request, reply) :: s.delivered }
    return true

/-- The status word of an answer, into a variable whose old value is `garbage`. -/
def inputReplyStatus (garbage : UInt32) : ReadM UInt32 := do
  delimit bar
  let replyStatus ← inputUInt32 garbage
  skip
  return replyStatus

/-- The stream is not looked at between the status word and the records, and not at all if there are
no records.  `AskForDistillerReplyHandler::Handle`. -/
def askForDistillerReplyHandle (p : Packet) (past : UInt8) (garbage : UInt32) : HandlerM Bool := do
  let (replyStatus, stream) ← onPacket p past (inputReplyStatus garbage)
  if replyStatus = AskForDistillerStatus.ptmOk.toWord then
    if ← distillerInfoHandle stream false then
      sendReplyReceivedEvent p.requestReplyID (.askForDistiller replyStatus)
    else return false
  else sendReplyReceivedEvent p.requestReplyID (.askForDistiller replyStatus)

/-- `FE_PTMConnection::EvPacketReceived`. -/
def evPTMPacketReceived (connect : Option Errors) (garbage : UInt32) (p : Packet) (past : UInt8) :
    HandlerM Bool :=
  match PTMPacketType.ofWord p.type with
  | some .pktAskForDistillerReply => askForDistillerReplyHandle p past garbage
  | some .pktPTMBeacon => beaconHandle p past connect
  | some .pktFlushNCache => do
    flushNCache
    return true
  | _ => fail .errInvalidPacketType

/-- A packet read from the bus is handled with a clean status.
`packet.cc` `MulticastSocket::Read`, `cachenet.cc` `SharedBus::EvPacketReceived`. -/
def evBusPacketReceived (connect : Option Errors) (p : Packet) (past : UInt8) : HandlerM Bool := do
  setStatus .success
  match PTMPacketType.ofWord p.type with
  | some .pktPTMBeacon => beaconHandle p past connect
  | some .pktWillStartPTM =>
    modify fun s => { s with manager := s.manager.evWillStartPTM }
    return true
  | _ => fail .errInvalidPacketType

/-- `DistillerConnection::EvPacketReceived`. -/
def evDistillerPacketReceived (p : Packet) (past : UInt8) : HandlerM Bool :=
  match PTMPacketType.ofWord p.type with
  | some .pktDistillerOutput => do
    match ← onPacket p past Rpc.inputReply with
    | (none, _) => return false
    | (some reply, _) => sendReplyReceivedEvent p.requestReplyID (.distillerRequest reply)
  | _ => fail .errInvalidPacketType

/-- `FE_PTMConnection::EvConnectionBroken`. -/
def evPTMConnectionBroken : HandlerM Bool := do
  modify fun s => { s with manager := s.manager.closePTMConnection }
  return true

/-- The pending requests are told in `Glomop.Cache.Distilling`.
`DistillerConnection::EvConnectionBroken`. -/
def evDistillerConnectionBroken : HandlerM Bool := return true

/-- `Ptm.handleSelect` in the front end. -/
abbrev evSelect (received broken : HandlerM Bool) : HandlerM Ptm.SelectResult :=
  Ptm.handleSelect CacheManager.status (setStatus .success) received broken

/-! ## Failing without a status -/

variable {s s' : CacheManager} {p : Packet} {past : UInt8}

variable {connect : Option Errors} {stream : IStream}

lemma onStream_eq_some {α : Type} {stream' : IStream} {x : ReadM α} {a : α} :
    onStream stream x s = some ((a, stream'), s') ↔
      x { stream with status := s.status } = some (a, stream') ∧
        s' = { s with status := stream'.status } := by
  simp only [onStream, Option.map_eq_some_iff, Prod.exists, Prod.mk.injEq]
  constructor
  · rintro ⟨_, _, hx, ⟨rfl, rfl⟩, rfl⟩
    exact ⟨hx, rfl⟩
  · rintro ⟨hx, rfl⟩
    exact ⟨a, stream', hx, ⟨rfl, rfl⟩, rfl⟩

lemma onPacket_eq_some {α : Type} {x : ReadM α} {a : α} :
    onPacket p past x s = some ((a, stream), s') ↔
      x (IStream.ofPacket p past s.status) = some (a, stream) ∧
        s' = { s with status := stream.status } := by
  rw [onPacket, get_bind_run, onStream_eq_some]
  rfl

lemma ne_success_of_isFailure {status : Errors} (h : IsFailure status) : status ≠ .success := by
  rcases h with rfl | rfl <;> decide

lemma fail_status {errorCode : Errors} {b : Bool} (h : fail errorCode s = some (b, s')) :
    s'.status = errorCode := by
  simp only [fail, setStatus, run_iff] at h
  obtain ⟨_, rfl⟩ := h
  rfl

lemma yields_sendReplyReceivedEvent (id : UInt32) (reply : Reply) :
    Yields (sendReplyReceivedEvent id reply) true := by
  refine .bind fun _ => .bind fun request => ?_
  cases request with
  | none => exact .pure true
  | some request => exact .bind fun _ => .pure true

lemma updateCache_false {complete : Bool} {records : List BasicDistiller}
    (h : updateCache complete records s = some (false, s')) : s'.status ≠ .success := by
  rw [updateCache, get_bind_run] at h
  obtain ⟨⟨updated, cache⟩, _, hu, h⟩ := bind_eq_some.mp h
  obtain ⟨_, _, hse, h⟩ := bind_eq_some.mp h
  obtain rfl := set_eq_some.mp hse
  cases h
  show (if false = false ∧ s.status = Errors.success then _ else _) ≠ _
  split_ifs with hc
  · decide
  · exact fun hs => hc ⟨rfl, hs⟩

lemma refusing_distillerInfo : Ptm.Refusing distillerInfo :=
  .bind (reads_binary _) fun _ => .bind (reads_inputUInt32 _) fun _ =>
    .bind (reads_delimit _) fun _ => .check fun _ => .accept _

lemma distillerInfoHandle_false {s0 : IStream} {complete : Bool} (hg : s0.isGood = true)
    (hr : Reads s0 { stream with status := s.status })
    (h : distillerInfoHandle stream complete s = some (false, s')) : s'.status ≠ .success := by
  obtain ⟨⟨info, stream'⟩, s1, hi, h⟩ := bind_eq_some.mp h
  obtain ⟨hre, rfl⟩ := onStream_eq_some.mp hi
  cases info with
  | none =>
    cases h
    exact ne_success_of_isFailure (refusing_distillerInfo hg hr hre)
  | some info =>
    obtain ⟨_, _, -, h⟩ := bind_eq_some.mp h
    exact updateCache_false h

lemma evPTMLocationReceived_false (h : evPTMLocationReceived connect s = some (false, s')) :
    s'.status = .errOutOfMemory := by
  rw [evPTMLocationReceived, get_bind_run] at h
  obtain ⟨_, s1, -, h⟩ := bind_eq_some.mp h
  rcases ite_eq_some.mp h with ⟨-, h⟩ | ⟨-, h⟩
  · exact nomatch (pure_eq_some.mp h).1
  rcases ite_eq_some.mp h with ⟨-, h⟩ | ⟨-, h⟩
  · exact fail_status h
  · exact nomatch Yields.bind (fun _ => .bind fun _ => .pure true) h

lemma beaconAddress_eq : beaconAddress = beaconHead >>= fun a => do
    skip
    let s ← get
    if s.isGood = false ∨ a.1.port = 0 then return none else return some a.1 := by
  simp only [beaconAddress, beaconHead, bind_assoc, pure_bind]

lemma beaconAddress_refused_iff {status : Errors} :
    (∃ stream, beaconAddress (IStream.ofPacket p past status) = some (none, stream) ∧
      stream.status = .success) ↔ status = .success ∧ Announces p.data 0 := by
  rw [beaconAddress_eq]
  refine refused_cleanly_iff (fun a s1 => ?_) ⟨rfl, rfl, rfl, rfl, rfl, rfl⟩
  obtain ⟨s2, hsk, hg, hs⟩ : ∃ s2, skip s1 = some ((), s2) ∧ s2.isGood = s1.isGood ∧
      s2.status = s1.status := by
    refine ⟨_, rfl, ?_⟩
    dsimp only
    split_ifs <;> exact ⟨rfl, rfl⟩
  rw [bind_run hsk, get_bind_run, hg, ← hs]
  split_ifs with hr
  · simp [hr]
  · simp [hr]

lemma beaconAddress_good {rid : RemoteID} {stream' : IStream}
    (h : beaconAddress stream = some (some rid, stream')) : stream'.isGood = true := by
  rw [beaconAddress_eq] at h
  obtain ⟨a, s1, -, h⟩ := bind_eq_some.mp h
  obtain ⟨_, s2, -, h⟩ := bind_eq_some.mp h
  rw [get_bind_run] at h
  rcases ite_eq_some.mp h with ⟨-, h⟩ | ⟨hr, h⟩
  · exact nomatch (pure_eq_some.mp h).1
  · cases h
    simpa using fun hb => hr (.inl hb)

/-- **A beacon fails without a status** if it announces port 0 and the status is clean. -/
theorem beaconHandle_refused_iff {connect : Option Errors} :
    (∃ s', beaconHandle p past connect s = some (false, s') ∧ s'.status = .success) ↔
      s.status = .success ∧ Announces p.data 0 := by
  rw [← @beaconAddress_refused_iff p past s.status]
  constructor
  · rintro ⟨s', h, hs⟩
    obtain ⟨⟨address, stream⟩, s1, hr, h⟩ := bind_eq_some.mp h
    obtain ⟨ha, rfl⟩ := onPacket_eq_some.mp hr
    cases address with
    | none =>
      cases h
      exact ⟨stream, ha, hs⟩
    | some address =>
      exfalso
      obtain ⟨located, s2, hl, h⟩ := bind_eq_some.mp h
      cases located with
      | false =>
        cases h
        rw [evPTMLocationReceived_false hl] at hs
        exact nomatch hs
      | true =>
        have hg : isGood { stream with status := s2.status } = true :=
          show stream.isGood = true from beaconAddress_good ha
        exact distillerInfoHandle_false hg (refl_of Reads _) h hs
  · rintro ⟨stream, hr, hs⟩
    refine ⟨{ s with status := stream.status }, ?_, hs⟩
    rw [beaconHandle, bind_run (onPacket_eq_some.mpr ⟨hr, rfl⟩)]
    rfl

lemma reads_inputReplyStatus (garbage : UInt32) : Within Reads (inputReplyStatus garbage) :=
  .bind (reads_delimit _) fun _ => .bind (reads_inputUInt32 _) fun _ => .bind reads_skip fun _ =>
    .pure _

lemma askForDistillerReplyHandle_false {garbage : UInt32}
    (h : askForDistillerReplyHandle p past garbage s = some (false, s')) :
    s'.status ≠ .success := by
  obtain ⟨⟨replyStatus, stream⟩, s1, hr, h⟩ := bind_eq_some.mp h
  obtain ⟨hs, rfl⟩ := onPacket_eq_some.mp hr
  rcases ite_eq_some.mp h with ⟨-, h⟩ | ⟨-, h⟩
  · obtain ⟨updated, s2, hi, h⟩ := bind_eq_some.mp h
    cases updated with
    | true => exact nomatch yields_sendReplyReceivedEvent _ _ h
    | false =>
      cases h
      exact distillerInfoHandle_false rfl (reads_inputReplyStatus garbage hs) hi
  · exact nomatch yields_sendReplyReceivedEvent _ _ h

/-! ### Results of distillers -/

section

variable {α β : Type}

lemma refusing_bind {x : ReadM (Option α)} {f : Option α → ReadM (Option β)}
    (hx : Ptm.Refusing x) (hre : Within Reads x) (hn : f none = pure none)
    (hs : ∀ a, Ptm.Refusing (f (some a))) : Ptm.Refusing (x >>= f) := by
  intro s0 s s' hg hb h
  obtain ⟨found, s1, hr, h⟩ := bind_eq_some.mp h
  cases found with
  | none =>
    rw [hn] at h
    cases h
    exact hx hg hb hr
  | some a => exact hs a hg (trans_of Reads hb (hre hr)) h

lemma reads_extract (length : UInt32) : Within Reads (extract length) := by
  intro s a s' h
  rw [extract, get_bind_run] at h
  rcases ite_eq_some.mp h with ⟨hg, h⟩ | ⟨-, h⟩
  · rcases ite_eq_some.mp h with ⟨-, h⟩ | ⟨-, h⟩
    · obtain ⟨_, _, hr, h⟩ := bind_eq_some.mp h
      cases h
      exact .failed hg (.inl rfl) hr
    · rcases ite_eq_some.mp h with ⟨-, h⟩ | ⟨-, h⟩
      · obtain ⟨_, _, hs, h⟩ := bind_eq_some.mp h
        obtain rfl := set_eq_some.mp hs
        cases h
        exact ⟨size_advance s _, .inl ⟨rfl, rfl⟩⟩
      · exact (fault_eq_some.mp h).elim
  · cases h
    exact refl_of Reads _

lemma extract_none {length : UInt32} {s s' : IStream}
    (h : extract length s = some (none, s')) : s'.isGood = false := by
  rw [extract, get_bind_run] at h
  rcases ite_eq_some.mp h with ⟨-, h⟩ | ⟨hb, h⟩
  · rcases ite_eq_some.mp h with ⟨-, h⟩ | ⟨-, h⟩
    · obtain ⟨_, _, hs, h⟩ := bind_eq_some.mp h
      obtain rfl := modify_eq_some.mp hs
      cases h
      rfl
    · rcases ite_eq_some.mp h with ⟨-, h⟩ | ⟨-, h⟩
      · obtain ⟨_, _, -, h⟩ := bind_eq_some.mp h
        exact nomatch (pure_eq_some.mp h).1
      · exact (fault_eq_some.mp h).elim
  · cases h
    simpa using hb

lemma reads_inputBlock (length : UInt32) : Within Reads (Rpc.inputBlock length) := by
  unfold Rpc.inputBlock
  split_ifs
  · refine .bind (reads_extract length) fun block => .bind .get fun s => ?_
    split_ifs
    all_goals exact .pure _
  · exact .pure _

lemma refusing_inputBlock (length : UInt32) : Ptm.Refusing (Rpc.inputBlock length) := by
  intro s0 s s' hg hb h
  have hr := reads_inputBlock length h
  rcases ite_eq_some.mp h with ⟨-, h⟩ | ⟨-, h⟩
  · obtain ⟨block, s1, hbl, h⟩ := bind_eq_some.mp h
    rw [get_bind_run] at h
    have hba : s'.isGood = false := by
      rcases ite_eq_some.mp h with ⟨hba, h⟩ | ⟨-, h⟩
      · cases h
        exact hba
      · cases h
        exact extract_none hbl
    exact (trans_of Reads hb hr).isFailure hg hba
  · exact nomatch (pure_eq_some.mp h).1

lemma reads_inputData (data metadata : Bytes) : Within Reads (Rpc.inputData data metadata) := by
  refine .bind (reads_inputString _) fun mimeType => .bind .get fun s => ?_
  split_ifs
  · exact .pure _
  · exact .pure _
  · exact .fault

lemma refusing_inputData (data metadata : Bytes) : Ptm.Refusing (Rpc.inputData data metadata) := by
  refine .bind (reads_inputString _) fun mimeType => .check fun _ => ?_
  split_ifs
  · exact .accept _
  · intro s0 s s' _ _ h
    exact (fault_eq_some.mp h).elim

lemma refusing_inputReply : Ptm.Refusing Rpc.inputReply := by
  refine .bind (reads_binary _) fun _ => .bind (reads_inputUInt32 _) fun status =>
    .bind (reads_inputUInt32 _) fun length => .bind (reads_binary _) fun _ => .check fun _ => ?_
  refine refusing_bind (refusing_inputBlock length) (reads_inputBlock length) rfl fun data => ?_
  refine .bind (reads_binary _) fun _ => .bind (reads_inputUInt32 _) fun length =>
    .bind (reads_binary _) fun _ => ?_
  refine refusing_bind (refusing_inputBlock length) (reads_inputBlock length) rfl fun metadata => ?_
  exact refusing_bind (refusing_inputData data metadata) (reads_inputData data metadata) rfl
    fun output => .accept _

end

/-! ### The sockets -/

lemma refused_iff_of_explained {x : HandlerM Bool} {P : Prop}
    (hx : ∀ s', x s = some (false, s') → s'.status ≠ .success) (hP : ¬ P) :
    (∃ s', x s = some (false, s') ∧ s'.status = .success) ↔ P :=
  iff_of_false (fun ⟨s', h, hs⟩ => hx s' h hs) hP

lemma fail_explained {errorCode : Errors} (hne : errorCode ≠ .success) (s' : CacheManager)
    (h : fail errorCode s = some (false, s')) : s'.status ≠ .success := by
  rw [fail_status h]
  exact hne

/-- **The PTM's connection.** -/
theorem evPTMPacketReceived_refused_iff {garbage : UInt32} :
    (∃ s', evPTMPacketReceived connect garbage p past s = some (false, s') ∧ s'.status = .success) ↔
    ofWord p.type = some .pktPTMBeacon ∧ s.status = .success ∧ Announces p.data 0 := by
  unfold evPTMPacketReceived
  cases ht : ofWord p.type with
  | none => exact refused_iff_of_explained (fail_explained (by decide)) (by simp)
  | some type =>
    cases type with
    | pktPTMBeacon => simpa using beaconHandle_refused_iff
    | pktAskForDistillerReply =>
      exact refused_iff_of_explained (fun _ => askForDistillerReplyHandle_false) (by simp)
    | pktFlushNCache =>
      refine refused_iff_of_explained (fun s' h => ?_) (by simp)
      exact nomatch Yields.bind (fun _ => .pure true) h
    | _ => exact refused_iff_of_explained (fail_explained (by decide)) (by simp)

/-- **The bus.** -/
theorem evBusPacketReceived_refused_iff :
    (∃ s', evBusPacketReceived connect p past s = some (false, s') ∧ s'.status = .success) ↔
      ofWord p.type = some .pktPTMBeacon ∧ Announces p.data 0 := by
  unfold evBusPacketReceived
  rw [setStatus, bind_run rfl]
  cases ht : ofWord p.type with
  | none => exact refused_iff_of_explained (fail_explained (by decide)) (by simp)
  | some type =>
    cases type with
    | pktPTMBeacon => simpa using beaconHandle_refused_iff (s := { s with status := .success })
    | pktWillStartPTM =>
      refine refused_iff_of_explained (fun s' h => ?_) (by simp)
      exact nomatch Yields.bind (fun _ => .pure true) h
    | _ => exact refused_iff_of_explained (fail_explained (by decide)) (by simp)

/-- **A connection to a distiller.** -/
theorem evDistillerPacketReceived_explained (s' : CacheManager)
    (h : evDistillerPacketReceived p past s = some (false, s')) : s'.status ≠ .success := by
  unfold evDistillerPacketReceived at h
  cases ht : ofWord p.type with
  | none =>
    rw [ht] at h
    exact fail_explained (by decide) s' h
  | some type =>
    rw [ht] at h
    cases type with
    | pktDistillerOutput =>
      obtain ⟨⟨reply, stream⟩, s1, hre, h⟩ := bind_eq_some.mp h
      obtain ⟨hr, rfl⟩ := onPacket_eq_some.mp hre
      cases reply with
      | none =>
        cases h
        exact ne_success_of_isFailure (refusing_inputReply rfl (refl_of Reads _) hr)
      | some reply => exact nomatch yields_sendReplyReceivedEvent _ _ h
    | _ => exact fail_explained (by decide) s' h

end Glomop.Cache
