import Glomop.Ptm.Launcher

/-!
# Launch records and the options file

The launch database has a record for every `dist.<type>` entry of the options file.  When the file
is read again, what has no entry any more leaves the database and *dies*, at once or when the launch
that is pending for it is over.  The entries are given here by their type and their value.
Source: `distlaunch.h`, `distlaunch.cc`.
-/

namespace Glomop.Ptm

open Lib

structure DistEntry where
  type : DistillerType
  value : Bytes

/-! ## Parsing an entry -/

def DefaultAutoLaunchLimit : UInt32 := 5

def DefaultLoadHistoryPeriod_ms : UInt32 := 10000

def DefaultNotificationTimeout_ms : UInt32 := 1000

def DefaultLoadHistorySize : ℕ := 10

/-- One numeric parameter.  `token` is a token that was read and turned out not to be a parameter;
the result is the parameter's value, such a token, and the tokens that are left. -/
def parseParam (defaultValue : UInt32) :
    Option Bytes → List Bytes → UInt32 × Option Bytes × List Bytes
  | some token, rest => (defaultValue, some token, rest)
  | none, [] => (defaultValue, none, [])
  | none, token :: rest =>
    if token.head? = some 45 then
      -- a lone dash asks for the default; anything longer is the first extra argument
      if token = [45] then (defaultValue, none, rest) else (defaultValue, some token, rest)
    else
      let value := (scanUInt32 token).getD 0
      (if value = 0 then defaultValue else value, none, rest)

/-- The numeric fields of a record from the value of its entry: the launch limit and the size of the
load history.  `none` where there is not even an executable.  The notification timeout is always the
default, because the flag that lets `-n` set it is never raised. -/
def parse (optionsLine : Bytes) : Option (UInt32 × ℕ) :=
  match tokens [32, 9] optionsLine with
  | [] => none
  | _executable :: rest =>
    let (autoLaunchLimit, token, rest) := parseParam DefaultAutoLaunchLimit none rest
    let (history_ms, _, _) := parseParam DefaultLoadHistoryPeriod_ms token rest
    let size := (history_ms / DefaultNotificationTimeout_ms).toNat
    some (autoLaunchLimit, if size = 0 then 1 else size)

lemma parseParam_ne_zero {defaultValue : UInt32} (h : defaultValue ≠ 0) (token : Option Bytes)
    (rest : List Bytes) : (parseParam defaultValue token rest).1 ≠ 0 := by
  unfold parseParam
  split
  · exact h
  · exact h
  · split_ifs
    · exact h
    · exact h
    · dsimp only
      split_ifs with hz
      · exact h
      · exact hz

lemma parse_spec {optionsLine : Bytes} {limit : UInt32} {size : ℕ}
    (h : parse optionsLine = some (limit, size)) : limit ≠ 0 := by
  unfold parse at h
  split at h
  · cases h
  · cases h
    exact parseParam_ne_zero (by decide) _ _

namespace State

def newLaunch (s : State) (r : LaunchRecord) : State :=
  { s with launchRecords := s.launchRecords.alloc r }

def addLaunch (s : State) (l : ℕ) : State := { s with launchDB := l :: s.launchDB }

def removeLaunch (s : State) (l : ℕ) : State := { s with launchDB := s.launchDB.erase l }

end State

/-- The constructor and the test behind it: the record is deleted again if the thread's status is
not `success`, be it from parsing its entry or from before.  `LaunchDatabase::CreateRecord`,
`LaunchRecord::LaunchRecord`. -/
def createRecord (entry : DistEntry) : M (Option ℕ) := do
  let s ← get
  let l := s.launchRecords.next
  match parse entry.value with
  | none =>
    modify (·.newLaunch ⟨entry.type, DefaultAutoLaunchLimit, DefaultLoadHistorySize, s.now,
      Load.zero, 0, false, false⟩)
    setStatus .errGenericError
    modify (·.deleteLaunch l)
    return none
  | some (limit, size) =>
    modify (·.newLaunch ⟨entry.type, limit, size, s.now, Load.zero, 0, false, false⟩)
    if s.status ≠ .success then
      modify (·.deleteLaunch l)
      return none
    else return some l

/-- `LaunchDatabase::ForEachCreate`, under `LaunchDatabase::Create`. -/
def create : List DistEntry → M Bool
  | [] => return true
  | entry :: options => do
    match ← createRecord entry with
    | none => return false
    | some l =>
      modify (·.addLaunch l)
      create options

def setMark (l : ℕ) (marked : Bool) : M Unit := do
  let record ← derefLaunch l
  modify (·.setLaunch l { record with marked := marked })

/-- `LaunchDatabase::Mark`, `LaunchDatabase::MarkHelper`. -/
def mark : List ℕ → M Unit
  | [] => return ()
  | l :: records => do
    setMark l true
    mark records

def getLaunchRecord (type : DistillerType) : M (Option ℕ) := do
  let s ← get
  Prog.ofOption (s.launchRecords.findFirst (fun r => r.type = type) s.launchDB)

def updateRecord (l : ℕ) (value : Bytes) : M Bool := do
  let record ← derefLaunch l
  match parse value with
  | none =>
    setStatus .errGenericError
    return false
  | some (limit, size) =>
    modify (·.setLaunch l { record with autoLaunchLimit := limit, loadHistorySize := size })
    return true

/-- `LaunchDatabase::ForEachUpdate`. -/
def updateEntry (entry : DistEntry) : M Bool := do
  match ← getLaunchRecord entry.type with
  | none =>
    match ← createRecord entry with
    | none => return false
    | some l =>
      modify (·.addLaunch l)
      setMark l false
      return true
  | some l =>
    setMark l false
    updateRecord l entry.value

def updateEntries : List DistEntry → M Bool
  | [] => return true
  | entry :: options => do
    if ← updateEntry entry then updateEntries options else return false

def die (l : ℕ) : M Unit := do
  let record ← derefLaunch l
  match ← findPendingLaunch l with
  | some _ => modify (·.setLaunch l { record with mustDie := true })
  | none => modify (·.deleteLaunch l)

/-- Remove records from the database and let them die.  Source: the loop of
`LaunchDatabase::Sweep`. -/
def sweepAll : List ℕ → M Unit
  | [] => return ()
  | l :: records => do
    modify (·.removeLaunch l)
    die l
    sweepAll records

/-- `LaunchDatabase::Sweep`, `LaunchDatabase::SweepHelper`. -/
def sweep : M Unit := do
  let s ← get
  let records ← Prog.ofOption (s.launchRecords.select (·.marked) s.launchDB)
  sweepAll records

def update (options : List DistEntry) : M Bool := do
  let s ← get
  mark s.launchDB
  if ← updateEntries options then
    sweep
    return true
  else return false

end Glomop.Ptm
