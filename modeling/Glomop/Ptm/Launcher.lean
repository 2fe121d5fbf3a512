import Glomop.Ptm.Beacon

/-!
# Launching distillers

A launch that is under way is a `PendingLaunch`, on which every further request for the same record
is put on hold.  It ends when the new distiller registers, when `fork` fails, or when it has timed
out often enough; each ending answers every request on hold.  A step of the code that changes the
state is a function on states here.  Source: `distlaunch.cc`.
-/

namespace Glomop.Ptm

open Lib

namespace State

def answer (s : State) (a : Asker) (status : AskForDistillerStatus) : State :=
  { s with answers := (a, status) :: s.answers }

def setLaunch (s : State) (l : ℕ) (r : LaunchRecord) : State :=
  { s with launchRecords := s.launchRecords.set l r }

/-- `delete` a launch record. -/
def deleteLaunch (s : State) (l : ℕ) : State :=
  { s with launchRecords := s.launchRecords.free l }

/-- The id that `AddRequestReply` gives out next. -/
def nextID (s : State) : UInt32 :=
  if s.transactionCount = NoRequestReply then s.transactionCount + 1 else s.transactionCount

/-- The request/reply object with a given id.
`reqrep.cc` `RequestReplyEventSystem::SendReplyReceivedEvent`, the lookup. -/
def findRequestReply (s : State) (id : UInt32) : Option ℕ :=
  s.requestReplyIndex.find? fun p => (s.pendingLaunches.cell p).any (·.id = id)

/-- A new pending launch.  It gets an id, and is entered in the index unless the id is still in use
there; either way it is put on the launcher's list.  `PendingLaunch::PendingLaunch`, `reqrep.cc`
`RequestReply::RequestReply` and `RequestReplyEventSystem::AddRequestReply`. -/
def newPending (s : State) (l : ℕ) : State :=
  { s with
    pendingLaunches := s.pendingLaunches.alloc ⟨l, s.nextID, 0, []⟩
    pendingList := s.pendingLaunches.next :: s.pendingList
    transactionCount := s.nextID + 1
    requestReplyIndex :=
      if (s.findRequestReply s.nextID).isSome then s.requestReplyIndex
      else s.pendingLaunches.next :: s.requestReplyIndex
    status := if (s.findRequestReply s.nextID).isSome then .errDuplicateIndexEntry else s.status }

def setPending (s : State) (p : ℕ) (pending : PendingLaunch) : State :=
  { s with pendingLaunches := s.pendingLaunches.set p pending }

def removePending (s : State) (p : ℕ) : State :=
  { s with
    pendingLaunches := s.pendingLaunches.free p
    pendingList := s.pendingList.erase p
    requestReplyIndex := s.requestReplyIndex.erase p }

end State

/-- Answer a request.  That the write failed is not looked at.
`ptmnet.cc`. -/
def askForDistillerReply (a : Asker) (status : AskForDistillerStatus) (list : List ℕ) :
    M Bool := do
  let s ← get
  let records ← Prog.ofOption (s.distillers.gather list)
  let _packet ← Prog.ofOption (replyPacket a.replyID status records)
  modify (·.answer a status)
  let _ ← write a.connection
  return true

/-- Answer everyone on a waiting list.  Source: the loops of `PendingLaunch::EvReplyReceived` and
`PendingLaunch::LaunchFailed`. -/
def answerWaiting (status : AskForDistillerStatus) (list : List ℕ) : List (Option Asker) → M Unit
  | [] => return ()
  | none :: waiting => answerWaiting status list waiting
  | some a :: waiting => do
    let _ ← askForDistillerReply a status list
    answerWaiting status list waiting

/-! ## Pending launches -/

def append (p : ℕ) (request : Option Asker) : M Bool := do
  let pending ← derefPending p
  modify (·.setPending p { pending with waitingList := request :: pending.waitingList })
  return true

def launchFailed (p : ℕ) : M Unit := do
  let pending ← derefPending p
  answerWaiting .ptmDistillerLaunchTimeout [] pending.waitingList

/-- `PendingLaunch::~PendingLaunch`, `reqrep.cc` `RequestReply::~RequestReply`. -/
def deletePendingLaunch (p : ℕ) : M Unit := do
  let pending ← derefPending p
  let record ← derefLaunch pending.launchRecord
  if record.mustDie then
    -- the distiller type no longer exists
    modify fun s => (s.deleteLaunch pending.launchRecord).removePending p
  else modify (·.removePending p)

/-- Start the executable of a launch record.  `LaunchRecord::Launch`, `rexec.cc` `RExec::Exec`. -/
def launch (l : ℕ) : M Bool := do
  let record ← derefLaunch l
  let s ← get
  modify (·.setLaunch l { record with lastLaunch := s.now })
  match ← nextOutcome with
  | .ok => return true
  | _ =>
    setStatus .errCouldNotLaunch
    return false

def findPendingLaunch (l : ℕ) : M (Option ℕ) := do
  let s ← get
  Prog.ofOption (s.pendingLaunches.findFirst (·.launchRecord = l) s.pendingList)

/-- `LaunchDatabase::FindMatchingDistiller`. -/
def findMatchingLaunch (type : DistillerType) : M (Option ℕ) := do
  let s ← get
  Prog.ofOption (s.launchRecords.findFirst (fun r => canSatisfy r.type type) s.launchDB)

/-- A launch is initiated for a record that has none pending.  `DistillerLauncher::TryToLaunch`, its
last part. -/
def initiateLaunch (l : ℕ) (request : Option Asker) : M Bool := do
  let s ← get
  modify (·.newPending l)
  let p := s.pendingLaunches.next
  let _ ← append p request
  if ← launch l then return true
  else
    launchFailed p
    deletePendingLaunch p
    return true

/-- Get a distiller of a type started, and remember who asked for it. -/
def tryToLaunch (type : DistillerType) (request : Option Asker) : M Bool := do
  match ← findMatchingLaunch type with
  | none =>
    match request with
    | none => return true
    | some a =>
      let _ ← askForDistillerReply a .ptmNoDistiller []
      return true
  | some l =>
    match ← findPendingLaunch l with
    | some p => append p request
    | none => initiateLaunch l request

/-- The distiller that was launched has registered.  A distiller that is not awake leaves the launch
pending. -/
def evReplyReceived (p : ℕ) (newDistiller : ℕ) : M Bool := do
  let record ← derefDistiller newDistiller
  if record.sleepStatus = distWakeUp then
    let pending ← derefPending p
    -- the log entry names the type of the launch record
    let _ ← derefLaunch pending.launchRecord
    answerWaiting .ptmOk [newDistiller] pending.waitingList
    deletePendingLaunch p
    return true
  else return true

/-- How often a launch is tried.
`defines.h`. -/
def MaxLaunchTimeouts : ℕ := 3

def evTimer (p : ℕ) : M Bool := do
  let pending ← derefPending p
  let count := pending.countOfTimeouts + 1
  modify (·.setPending p { pending with countOfTimeouts := count })
  let _ ← derefLaunch pending.launchRecord
  if count ≥ MaxLaunchTimeouts then
    launchFailed p
    deletePendingLaunch p
    return true
  else if ← launch pending.launchRecord then return true
  else
    launchFailed p
    deletePendingLaunch p
    setStatus .success
    return true

def sendReplyReceivedEvent (requestReplyID : UInt32) (distiller : ℕ) : M Bool := do
  if requestReplyID = NoRequestReply then return true
  else
    let s ← get
    match s.findRequestReply requestReplyID with
    | none => return true
    | some p => evReplyReceived p distiller

/-! ## Broken connections -/

/-- The inner loop over a waiting list, from the node the index points to.  The index is moved on
*before* the node is removed, so it is the next node that goes, and the loop then reads it.
`DistillerLauncher::RemoveBrokenConnection`. -/
def removeBrokenFrom (object : ℕ) : List (Option Asker) → M Unit
  | [] => return ()
  | current :: rest =>
    if current.any (·.connection = object) then
      match rest with
      -- Remove(NULL)
      | [] => setStatus .errNULLPointer
      -- the removed node is the one the loop goes on with
      | _ :: _ => Prog.fault
    else removeBrokenFrom object rest

def removeBrokenFromAll (object : ℕ) : List ℕ → M Unit
  | [] => return ()
  | p :: list => do
    let pending ← derefPending p
    removeBrokenFrom object pending.waitingList
    removeBrokenFromAll object list

def removeBrokenConnection (object : ℕ) : M Unit := do
  let s ← get
  removeBrokenFromAll object s.pendingList

end Glomop.Ptm
