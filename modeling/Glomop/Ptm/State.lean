import Glomop.Lib.Heap
import Glomop.Database.Distiller

/-!
# The objects of the PTM

The state of a PTM process.  Each C++ class has its heap; pointers are heap addresses, and following
a pointer to a deleted object faults.  The state also holds what the code reads from its
surroundings, and two logs for the specification only: the requests for a distiller that were
accepted, and the answers that were given to them.
-/

namespace Glomop.Ptm

open Lib

/-! ## The classes -/

/-- The connection a front end or a distiller talks over.
`ptmnet.h` `class PrivateConnection`. -/
structure Connection where
  /-- The distiller registered on it, `NULL` for a front end. -/
  record : Option ℕ
deriving DecidableEq

/-- A registered distiller.
`ptmdb.h`. -/
structure DistillerRecord extends BasicDistiller where
  privateConnection : ℕ
  /-- A `DistillerSleepStatus`, cast from the word in the registration packet. -/
  sleepStatus : UInt32
  /-- The last loads reported, `historySize` of them. -/
  history : List Load
  currentPos : ℕ
  loadOverHistory : Load
  /-- `NULL` if there was none for its type when it registered. -/
  launchRecord : Option ℕ
  /-- A `gm_Bool`, cast from the word in the registration packet. -/
  mustRestartOnDeath : UInt32
  currentPos_lt : currentPos < history.length

def DistillerRecord.isAwake (r : DistillerRecord) : Bool := r.sleepStatus = distWakeUp

/-- What the options file says about a distiller type, and what is known about the distillers
launched for it.  The executable and its arguments are left out: nothing here reads them.
`distlaunch.h`. -/
structure LaunchRecord where
  type : DistillerType
  autoLaunchLimit : UInt32
  loadHistorySize : ℕ
  lastLaunch : ℤ
  totalLoad : Load
  numberOfActiveDistillers : ℤ
  marked : Bool
  mustDie : Bool

/-- A front end's request for a distiller: the connection it came over and the id to answer with.
`serial` numbers the requests in the order they were accepted; the code does not have it.
`distlaunch.h` `struct LaunchRequest`, with a `replyObject` that is not `NULL`. -/
structure Asker where
  connection : ℕ
  replyID : UInt32
  serial : ℕ
deriving DecidableEq

/-- A launch under way, and who waits for it.  An entry of the waiting list is `none` for a launch
that nobody asked for, whose `replyObject` is `NULL` and whose `replyID` is never used.
`distlaunch.h`. -/
structure PendingLaunch where
  launchRecord : ℕ
  id : UInt32
  countOfTimeouts : ℕ
  waitingList : List (Option Asker)

/-- How a system call ends: a write may find the connection closed by the peer (`EPIPE`), or fail
otherwise; a `fork` succeeds or fails. -/
inductive Outcome
  | ok
  | eof
  | fail
deriving DecidableEq, Repr

structure State where
  /-- `PTM::myAddress`. -/
  myAddress : RemoteID
  /-- `PTM::myRandomID`. -/
  myRandomID : UInt32
  /-- The thread's `Error::status`. -/
  status : Errors
  /-- How the coming system calls will end; they succeed when nothing is said about them. -/
  outcomes : List Outcome
  /-- What `gettimeofday` returns, in milliseconds. -/
  now : ℤ
  connections : Heap Connection
  /-- `PTM::listOfConnections`. -/
  listOfConnections : List ℕ
  distillers : Heap DistillerRecord
  /-- The records of `PTM::distillerDB`, whose one index has the address as its unique key. -/
  distillerDB : List ℕ
  launchRecords : Heap LaunchRecord
  /-- The records of `DistillerLauncher::launchDB`. -/
  launchDB : List ℕ
  pendingLaunches : Heap PendingLaunch
  /-- `DistillerLauncher::pendingList`. -/
  pendingList : List ℕ
  /-- `RequestReplyEventSystem::requestReplyIndex`. -/
  requestReplyIndex : List ℕ
  /-- `RequestReplyEventSystem::transactionCount`. -/
  transactionCount : UInt32
  /-- An `evQuit` was posted. -/
  quit : Bool
  asked : List Asker
  answers : List (Asker × AskForDistillerStatus)

/-- A PTM that has just started, before it has read its options. -/
def State.start (myAddress : RemoteID) (myRandomID : UInt32) : State where
  myAddress := myAddress
  myRandomID := myRandomID
  status := .success
  outcomes := []
  now := 0
  connections := Heap.empty
  listOfConnections := []
  distillers := Heap.empty
  distillerDB := []
  launchRecords := Heap.empty
  launchDB := []
  pendingLaunches := Heap.empty
  pendingList := []
  requestReplyIndex := []
  transactionCount := 0
  quit := false
  asked := []
  answers := []

abbrev M := Prog State

/-! ## Following pointers and system calls -/

def derefConnection (c : ℕ) : M Connection := do
  let s ← get
  Prog.ofOption (s.connections.cell c)

def derefDistiller (d : ℕ) : M DistillerRecord := do
  let s ← get
  Prog.ofOption (s.distillers.cell d)

def derefLaunch (l : ℕ) : M LaunchRecord := do
  let s ← get
  Prog.ofOption (s.launchRecords.cell l)

def derefPending (p : ℕ) : M PendingLaunch := do
  let s ← get
  Prog.ofOption (s.pendingLaunches.cell p)

def setStatus (status : Errors) : M Unit := modify fun s => { s with status := status }

def nextOutcome : M Outcome := do
  let s ← get
  set { s with outcomes := s.outcomes.tail }
  return s.outcomes.headD .ok

/-- Write a packet to a connection.
`sockets.cc` `Socket::Write`, through `packet.cc` `Socket::Write(gm_Packet*)`. -/
def write (c : ℕ) : M Bool := do
  let _ ← derefConnection c
  match ← nextOutcome with
  | .ok => return true
  | .eof =>
    setStatus .errSocketEOF
    return false
  | .fail =>
    setStatus .errSocketWriteError
    return false

def runStream {α : Type} (p : Packet) (past : UInt8) (x : ReadM α) : M α := fun s =>
  (x (IStream.ofPacket p past s.status)).map fun (a, stream) =>
    (a, { s with status := stream.status })

end Glomop.Ptm
