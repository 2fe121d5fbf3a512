import Glomop.Ptm.LaunchDatabase

/-!
# Registered distillers

A distiller registers over its connection and is a `DistillerRecord` from then on, bound to the
launch record that serves its type.  The functions of this module call each other in a circle, which
is opened at `wake`, an argument of the others, and closed by `wakeSleepingDistiller`, whose first
argument bounds the number of rounds.  Running out of rounds counts as a fault.  Source: `ptmdb.cc`.
-/

namespace Glomop.Ptm

open Lib

namespace State

def newDistiller (s : State) (r : DistillerRecord) : State :=
  { s with distillers := s.distillers.alloc r }

def setDistiller (s : State) (d : ℕ) (r : DistillerRecord) : State :=
  { s with distillers := s.distillers.set d r }

/-- `delete` a distiller record. -/
def deleteDistiller (s : State) (d : ℕ) : State :=
  { s with distillers := s.distillers.free d }

def addDistiller (s : State) (d : ℕ) : State := { s with distillerDB := d :: s.distillerDB }

def removeDistiller (s : State) (d : ℕ) : State :=
  { s with distillerDB := s.distillerDB.erase d }

def setRecord (s : State) (c : ℕ) (record : Option ℕ) : State :=
  { s with connections := s.connections.set c ⟨record⟩ }

def closeConnection (s : State) (c : ℕ) : State :=
  { s with
    connections := s.connections.free c
    listOfConnections := s.listOfConnections.erase c }

end State

/-! ## Counters of the launch record -/

def evRegisterDistiller (l : ℕ) : M Unit := do
  let record ← derefLaunch l
  modify (·.setLaunch l
    { record with numberOfActiveDistillers := record.numberOfActiveDistillers + 1 })

def evDeregisterDistiller (l : ℕ) (load : Load) : M Unit := do
  let record ← derefLaunch l
  modify (·.setLaunch l
    { record with
      numberOfActiveDistillers := record.numberOfActiveDistillers - 1
      totalLoad := record.totalLoad.sub load })

/-! ## Making and deleting records -/

/-- A record as the constructor leaves it, for a launch record that was found or not. -/
def freshRecord (privateConnection : ℕ) (rid : RemoteID) (type : DistillerType)
    (status mustRestartOnDeath : UInt32) (launchRecord : Option (ℕ × LaunchRecord)) :
    DistillerRecord where
  rid := rid
  type := type
  load := ⟨0, (launchRecord.map (·.2.autoLaunchLimit * 2)).getD 0⟩
  privateConnection := privateConnection
  sleepStatus := status
  -- a history size of zero is replaced by the default
  history := List.replicate
    (match launchRecord with
      | some (_, r) => if r.loadHistorySize = 0 then DefaultLoadHistorySize else r.loadHistorySize
      | none => DefaultLoadHistorySize) Load.zero
  currentPos := 0
  loadOverHistory := Load.zero
  launchRecord := launchRecord.map (·.1)
  mustRestartOnDeath := mustRestartOnDeath
  currentPos_lt := by
    rw [List.length_replicate]
    split
    · split_ifs
      · decide
      · omega
    · decide

/-- `DistillerRecord::DistillerRecord`. -/
def newDistillerRecord (privateConnection : ℕ) (rid : RemoteID) (type : DistillerType)
    (status mustRestartOnDeath : UInt32) : M ℕ := do
  let s ← get
  let d := s.distillers.next
  match ← findMatchingLaunch type with
  | none =>
    modify
      (·.newDistiller (freshRecord privateConnection rid type status mustRestartOnDeath none))
    return d
  | some l =>
    let record ← derefLaunch l
    modify (·.newDistiller
      (freshRecord privateConnection rid type status mustRestartOnDeath (some (l, record))))
    if status = distWakeUp then
      evRegisterDistiller l
      return d
    else return d

/-- `DistillerRecord::~DistillerRecord`. -/
def deleteDistillerRecord (d : ℕ) : M Unit := do
  let record ← derefDistiller d
  match record.launchRecord with
  | some l =>
    if record.sleepStatus = distWakeUp then
      evDeregisterDistiller l record.load
      modify (·.deleteDistiller d)
    else modify (·.deleteDistiller d)
  | none => modify (·.deleteDistiller d)

/-- Enter a distiller in the database, unless its address is already there.
`ptm.cc` `PTM::Register`, `database.cc` `Database::Add`. -/
def register (d : ℕ) : M Bool := do
  let record ← derefDistiller d
  let s ← get
  match ← Prog.ofOption (s.distillers.findFirst (fun r => r.rid = record.rid) s.distillerDB) with
  | some _ =>
    setStatus .errDuplicateIndexEntry
    return false
  | none =>
    modify (·.addDistiller d)
    return true

def deregister (d : ℕ) : M Unit := do
  let _ ← derefDistiller d
  modify (·.removeDistiller d)

/-! ## Waking and dying -/

def DistillerRecord.awaken (r : DistillerRecord) : DistillerRecord :=
  { r with sleepStatus := distWakeUp }

section

-- what is called to wake a sleeping distiller of a type
variable (wake : DistillerType → M (Option ℕ))

/-- Try to wake a distiller of a launch record's type; failing that, launch one.
`distlaunch.cc` `LaunchRecord::Relaunch`; `LaunchRecord::TryToAutoLaunch` ends in the same
lines. -/
def relaunch (l : ℕ) : M Unit := do
  let record ← derefLaunch l
  match ← wake record.type with
  | some d =>
    -- the log entry names the distiller's address
    let _ ← derefDistiller d
    let record ← derefLaunch l
    let s ← get
    modify (·.setLaunch l { record with lastLaunch := s.now })
  | none =>
    let record ← derefLaunch l
    let _ ← tryToLaunch record.type none
    return ()

def evUnnaturalDeath (d : ℕ) : M Unit := do
  let record ← derefDistiller d
  match record.launchRecord with
  | some l => if record.mustRestartOnDeath = 1 then relaunch wake l else return ()
  | none => return ()

/-- The connection of a distiller is gone, and the distiller with it.
`ptmnet.cc` `PrivateConnection::EvConnectionBroken`, the first branch. -/
def dropDistiller (c d : ℕ) : M Unit := do
  deregister d
  evUnnaturalDeath wake d
  deleteDistillerRecord d
  let _ ← derefConnection c
  modify (·.setRecord c none)

def evConnectionBroken (c : ℕ) : M Bool := do
  let connection ← derefConnection c
  match connection.record with
  | some d =>
    dropDistiller wake c d
    modify (·.closeConnection c)
    return true
  | none =>
    removeBrokenConnection c
    modify (·.closeConnection c)
    return true

/-- Tell a distiller to wake up; drop it if it cannot be told. -/
def wakeUp (d : ℕ) : M Bool := do
  let record ← derefDistiller d
  if record.sleepStatus = distWakeUp then return true
  else if ← write record.privateConnection then
    modify (·.setDistiller d record.awaken)
    match record.launchRecord with
    | some l =>
      evRegisterDistiller l
      return true
    | none => return true
  else
    let _ ← evConnectionBroken wake record.privateConnection
    setStatus .errSocketWriteError
    return false

end

/-- The loop of `WakeSleepingDistiller`.  `dist` is the field of the finder, which keeps its value
from one round to the next where the search finds nothing.
`DistillerDatabase::WakeSleepingDistiller`, `DistillerDatabase::MatchSleepingDistiller`. -/
def wakeLoop : ℕ → DistillerType → Option ℕ → M (Option ℕ)
  | 0, _, _ => Prog.fault
  | rounds + 1, type, dist => do
    let s ← get
    let found ← Prog.ofOption (s.distillers.findFirst
      (fun r => canSatisfy r.type type && r.sleepStatus = distSleep) s.distillerDB)
    match found.or dist with
    | none => return none
    | some d =>
      if ← wakeUp (fun t => wakeLoop rounds t none) d then return some d
      else
        let s ← get
        if s.status = .errSocketWriteError then
          setStatus .success
          wakeLoop rounds type (some d)
        else return none

def wakeSleepingDistiller (rounds : ℕ) (type : DistillerType) : M (Option ℕ) :=
  wakeLoop rounds type none

/-! ## Load reports -/

def AutoLaunchHysteresisInterval_ms : UInt32 := 7500

def tryToAutoLaunch (rounds : ℕ) (l : ℕ) : M Unit := do
  let record ← derefLaunch l
  let s ← get
  -- the difference is cut to 32 bits
  if UInt32.ofInt (s.now - record.lastLaunch) ≤ AutoLaunchHysteresisInterval_ms then return ()
  else relaunch (wakeSleepingDistiller rounds) l

def updateLoad (rounds : ℕ) (l : ℕ) (newLoad prevLoad : Load) : M Unit := do
  let record ← derefLaunch l
  if record.autoLaunchLimit = 0 then return ()
  else
    let totalLoad := (record.totalLoad.sub prevLoad).add newLoad
    modify (·.setLaunch l { record with totalLoad := totalLoad })
    let avg := Load.zero.average totalLoad record.numberOfActiveDistillers.toNat
    if record.numberOfActiveDistillers > 0 ∧ avg.totalLatency_ms > record.autoLaunchLimit then
      tryToAutoLaunch rounds l
    else return ()

/-- A record after a load report: the report replaces the oldest one in the history, and the load is
the average over the history.  `DistillerRecord::Update`. -/
def DistillerRecord.report (r : DistillerRecord) (newLoad : Load) : DistillerRecord :=
  let sum := (r.loadOverHistory.sub (r.history.get ⟨r.currentPos, r.currentPos_lt⟩)).add newLoad
  { r with
    loadOverHistory := sum
    load := r.load.average sum r.history.length
    history := r.history.set r.currentPos newLoad
    currentPos := (r.currentPos + 1) % r.history.length
    currentPos_lt := by
      rw [List.length_set]
      exact Nat.mod_lt _ (Nat.zero_lt_of_lt r.currentPos_lt) }

/-- `DistillerRecord::Update`. -/
def updateDistiller (rounds : ℕ) (d : ℕ) (newLoad : Load) : M Unit := do
  let record ← derefDistiller d
  modify (·.setDistiller d (record.report newLoad))
  match record.launchRecord with
  | some l => updateLoad rounds l (record.report newLoad).load record.load
  | none => return ()

end Glomop.Ptm
