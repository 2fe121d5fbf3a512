import Glomop.Ptm.Election
import Glomop.Ptm.Registry

/-!
# The PTM as a machine

A handler first takes its packet apart, which only touches the stream and the thread's status, and
then acts on what it found; the two halves are separate definitions.  `step` is one round of the
event loop: an event arrives, together with how the system calls of the round will end and what the
clock shows, and its handler runs to completion.  Source: `ptmnet.cc`.
-/

namespace Glomop.Ptm

open Lib

/-! ## Taking packets apart -/

section Parsing

open IStream

/-- `Return(gm_False, errorCode)` in the parsing half of a handler. -/
def refuse {α : Type} (errorCode : Errors) : ReadM (Option α) := do
  modify fun s => { s with status := errorCode }
  return none

structure Registration where
  distAddress : RemoteID
  distillerType : DistillerType
  sleepStatus : UInt32
  restartFlag : UInt32

/-- The packet is used up: everything was read without an error. -/
def finish {α : Type} (a : α) : ReadM (Option α) := do
  let s ← get
  if s.isGood = false then return none
  else if s.isDone = false then refuse .errFormattingError
  else return some a

/-- `RegisterDistillerHandler::Handle`. -/
def parseRegister : ReadM (Option Registration) := do
  delimit bar
  let distAddress ← inputRemoteID RemoteID.empty
  skip
  let s ← get
  if s.isGood = false then return none
  else if distAddress.port = 0 then refuse .errFormattingError
  else
    delimit bar
    let distillerType ← inputType (CString.empty MAXDISTILLER_TYPE_STRING)
    skip
    let s ← get
    if s.isGood = false then return none
    else
      delimit bar
      let sleepStatus ← inputUInt32 0
      skip
      let s ← get
      if s.isGood = false then return none
      else
        delimit 0
        let restartFlag ← inputUInt32 0
        skip
        finish ⟨distAddress, distillerType, sleepStatus, restartFlag⟩

/-- The type is read up to a NUL here, not up to a `|`.  `ReregisterDistillerHandler::Handle`. -/
def parseReregister : ReadM (Option DistillerType) := do
  delimit 0
  let distillerType ← inputType (CString.empty MAXDISTILLER_TYPE_STRING)
  skip
  finish distillerType

/-- `AskForDistillerHandler::Handle`. -/
def parseAskForDistiller : ReadM (Option DistillerType) := do
  delimit 0
  setW (UInt32.ofNat MAXDISTILLER_TYPE_STRING)
  let type ← inputString (CString.empty MAXDISTILLER_TYPE_STRING)
  skip
  finish type

/-- `DistillerLoadHandler::Handle`. -/
def parseLoad : ReadM (Option Load) := do
  delimit 0
  let load ← inputLoad Load.zero
  skip
  finish load

end Parsing

/-! ## Acting on packets -/

namespace State

def acceptConnection (s : State) : State :=
  { s with
    connections := s.connections.alloc ⟨none⟩
    listOfConnections := s.listOfConnections ++ [s.connections.next] }

def ask (s : State) (a : Asker) : State := { s with asked := a :: s.asked }

end State

/-- `Return(gm_False, errorCode)`. -/
def fail (errorCode : Errors) : M Bool := do
  setStatus errorCode
  return false

/-- `RegisterDistillerHandler::Handle`. -/
def registerDistiller (rounds : ℕ) (c : ℕ) (id : UInt32) (r : Registration) : M Bool := do
  let d ← newDistillerRecord c r.distAddress r.distillerType r.sleepStatus r.restartFlag
  if ← register d then
    if ← sendReplyReceivedEvent id d then
      let _ ← derefConnection c
      modify (·.setRecord c (some d))
      return true
    else return false
  else
    let s ← get
    if s.status = .errDuplicateIndexEntry then
      deleteDistillerRecord d
      -- remove the connection as well
      let _ ← evConnectionBroken (wakeSleepingDistiller rounds) c
      setStatus .success
      return true
    else return false

/-- `DeregisterDistillerHandler::Handle`. -/
def deregisterDistiller (c d : ℕ) : M Bool := do
  deregister d
  deleteDistillerRecord d
  modify (·.setRecord c none)
  return true

/-- `ReregisterDistillerHandler::Handle`. -/
def reregisterDistiller (rounds : ℕ) (c d : ℕ) (distillerType : DistillerType) : M Bool := do
  deregister d
  let record ← derefDistiller d
  modify (·.setDistiller d { record with type := distillerType })
  if ← register d then
    modify (·.setRecord c (some d))
    return true
  else
    let s ← get
    if s.status = .errDuplicateIndexEntry then
      deleteDistillerRecord d
      let _ ← evConnectionBroken (wakeSleepingDistiller rounds) c
      setStatus .success
      return true
    else return false

def evAskForDistiller (rounds : ℕ) (type : DistillerType) (a : Asker) : M Bool := do
  modify (·.ask a)
  let s ← get
  let list ← Prog.ofOption (s.distillers.select
    (fun r => canSatisfy r.type type && r.sleepStatus = distWakeUp) s.distillerDB)
  if list = [] then
    match ← wakeSleepingDistiller rounds type with
    | none => tryToLaunch type (some a)
    | some d => askForDistillerReply a .ptmOk [d]
  -- each match was put at the head of the list
  else askForDistillerReply a .ptmOk list.reverse

/-- `ptm.cc` `PTM::Beacon`, over a private connection. -/
def beacon (c : ℕ) : M Unit := do
  let s ← get
  let list ← Prog.ofOption (s.distillers.gather s.distillerDB)
  let _packet ← Prog.ofOption (sendBeacon s.myAddress s.myRandomID list)
  if ← write c then return () else setStatus .success

/-- `ptm.cc` `PTM::Beacon`, over the bus. -/
def busBeacon : M Unit := do
  let s ← get
  let list ← Prog.ofOption (s.distillers.gather s.distillerDB)
  let _packet ← Prog.ofOption (sendBeacon s.myAddress s.myRandomID list)
  match ← nextOutcome with
  | .ok => return ()
  | _ => setStatus .success

/-! ## Packets over a connection -/

def onDistiller (c : ℕ) (act : ℕ → M Bool) : M Bool := do
  let connection ← derefConnection c
  match connection.record with
  | none => fail .errOutOfContextPacket
  | some d => act d

def onFrontEnd (c : ℕ) (act : M Bool) : M Bool := do
  let connection ← derefConnection c
  match connection.record with
  | some _ => fail .errOutOfContextPacket
  | none => act

/-- Go on with what was read off a packet, or return `gm_False` with the status the parsing left. -/
def parsing {α : Type} (p : Packet) (past : UInt8) (x : ReadM (Option α)) (act : α → M Bool) :
    M Bool := do
  match ← runStream p past x with
  | none => return false
  | some a => act a

/-- `PrivateConnection::EvPacketReceived` and its handlers. -/
def evPacketReceived (rounds : ℕ) (c : ℕ) (p : Packet) (past : UInt8) : M Bool :=
  match PTMPacketType.ofWord p.type with
  | some .pktRegisterDistiller =>
    onFrontEnd c <| parsing p past parseRegister (registerDistiller rounds c p.requestReplyID)
  | some .pktDeregisterDistiller =>
    onDistiller c fun d =>
      if p.getLength > 0 then fail .errFormattingError else deregisterDistiller c d
  | some .pktReregisterDistiller =>
    onDistiller c fun d => parsing p past parseReregister (reregisterDistiller rounds c d)
  | some .pktAskForDistiller =>
    onFrontEnd c <|
      if p.getLength ≤ 0 then fail .errFormattingError
      else parsing p past parseAskForDistiller fun type => do
        let s ← get
        evAskForDistiller rounds type ⟨c, p.requestReplyID, s.asked.length⟩
  | some .pktAskForUnicastBeacon => do
    beacon c
    return true
  | some .pktDistillerLoad =>
    onDistiller c fun d => parsing p past parseLoad fun load => do
      updateDistiller rounds d load
      return true
  | _ => fail .errInvalidPacketType

/-! ## The event loop -/

/-- How a call of `EvSelect` ends. -/
inductive SelectResult
  | returned (value : Bool)
  | aborted
deriving DecidableEq

/-- `received` is the reading of a packet and its handling, `broken` is `EvConnectionBroken`; the
status is read by `status`, and `clear` sets it to `success`.
`packet.cc` `gm_PacketHandler::EvSelect`, `gm_PacketHandler::HandleSelectError`. -/
def handleSelect {σ : Type} (status : σ → Errors) (clear : Prog σ Unit)
    (received broken : Prog σ Bool) : Prog σ SelectResult := do
  if ← received then return .returned true
  else
    let s ← get
    match (status s).selectError with
    | .ignored =>
      clear
      return .returned true
    | .connectionBroken =>
      clear
      return .returned (← broken)
    | .aborted => return .aborted
    | .fatal => return .returned false

/-- `handleSelect` in the PTM. -/
abbrev evSelect (received broken : M Bool) : M SelectResult :=
  handleSelect State.status (setStatus .success) received broken

/-- The `dist.*` entries of an options file; the option database admits no key twice. -/
structure Options where
  entries : List DistEntry
  nodup : (entries.map DistEntry.type).Nodup

inductive Event
  | accept
  /-- A packet arrives on a connection; `past` is the byte behind it in memory. -/
  | packet (c : ℕ) (p : Packet) (past : UInt8)
  | readError (c : ℕ) (status : Errors)
  | bus (p : Packet) (past : UInt8)
  | launchTimer (p : ℕ)
  | beaconTimer
  | reload (options : Options) (rexecUpdated : Bool)

/-- The loop of `PTM::OptionsUpdate`, with the connections that a `pktFlushNCache` is written to.
`ptm.cc` `PTM::OptionsUpdate`. -/
def flushFrontEnds : List ℕ → M (List ℕ)
  | [] => return []
  | c :: connections => do
    let connection ← derefConnection c
    match connection.record with
    | some _ => flushFrontEnds connections
    | none =>
      if ← write c then return c :: (← flushFrontEnds connections)
      else
        setStatus .success
        return c :: (← flushFrontEnds connections)

/-- `ptm.cc` `PTM::OptionsUpdate`, `distlaunch.cc`. -/
def optionsUpdate (options : Options) (rexecUpdated : Bool) : M Bool := do
  if ← update options.entries then
    if rexecUpdated then
      let s ← get
      let _ ← flushFrontEnds s.listOfConnections
      return true
    else return false
  else return false

def evConnectionReceived : M Bool := do
  modify (·.acceptConnection)
  let s ← get
  return s.status = .success

section

variable (ipNumber : CString MAXIP → UInt32)

/-- A packet read from the bus is handled with a clean status.
`packet.cc` `MulticastSocket::Read`, `ptmnet.cc` `SharedBus::EvPacketReceived`. -/
def evBusPacketReceived (p : Packet) (past : UInt8) : M Bool := do
  setStatus .success
  match PTMPacketType.ofWord p.type with
  | some .pktPTMBeacon => beaconHandle ipNumber p past
  | _ => fail .errInvalidPacketType

def dispatch (rounds : ℕ) : Event → M SelectResult
  | .accept => return .returned (← evConnectionReceived)
  | .packet c p past =>
    evSelect (evPacketReceived rounds c p past)
      (evConnectionBroken (wakeSleepingDistiller rounds) c)
  | .readError c status =>
    evSelect (fail status) (evConnectionBroken (wakeSleepingDistiller rounds) c)
  | .bus p past => evSelect (evBusPacketReceived ipNumber p past) (fail .errSocketEOF)
  | .launchTimer p => return .returned (← evTimer p)
  | .beaconTimer => do
    busBeacon
    return .returned true
  | .reload options rexecUpdated => return .returned (← optionsUpdate options rexecUpdated)

/-- An event, and what the surroundings do while it is handled. -/
structure Input where
  event : Event
  outcomes : List Outcome
  now : ℤ

/-- One round of the event loop that does not end in `abort()`. -/
def step (s : State) (i : Input) (s' : State) : Prop :=
  ∃ rounds value,
    dispatch ipNumber rounds i.event { s with outcomes := i.outcomes, now := i.now } =
      some (.returned value, s')

def Initial (s : State) : Prop :=
  ∃ myAddress myRandomID now, ∃ options : Options,
    create options.entries { State.start myAddress myRandomID with now := now } = some (true, s)

end

end Glomop.Ptm
