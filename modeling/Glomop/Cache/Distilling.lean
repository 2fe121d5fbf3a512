import Glomop.Lib.Owners
import Glomop.Lib.Run

/-!
# Calls of the distiller cache

A call of `Distill` or `DistillAsync` gets a distiller from the cache with a reference to it,
connects to it if need be, puts a *request* on its list, sends it, and waits.  Each connection has a
thread of its own; timeouts come from the thread of the event system.  A step of a thread is one
critical section of the code; `IsEmpty` and `RemoveFromHead` of `RemoveAllRequests_` are one step,
and the `Sweep_` of a beacon is left out.  Objects are named by their places in tables; one that was
deleted stays there, with a mark.  Source: `cachenet.h`, `cachenet.cc`.
-/

namespace Glomop.Cache

open Lib Option

/-! ## Reference counts -/

structure GarbageCollectedObject where
  numberOfRefs : ℕ
  isDeleted : Bool
  /-- How often `delete this` was executed; not in the source. -/
  frees : ℕ
deriving DecidableEq

namespace GarbageCollectedObject

/-- `garbage.h` `GarbageCollectedObject::GarbageCollectedObject`. -/
def new : GarbageCollectedObject := ⟨0, false, 0⟩

def markForDeletion (o : GarbageCollectedObject) : GarbageCollectedObject :=
  if o.numberOfRefs = 0 then { o with frees := o.frees + 1 } else { o with isDeleted := true }

def incrReference (o : GarbageCollectedObject) : GarbageCollectedObject :=
  { o with numberOfRefs := o.numberOfRefs + 1 }

def decrReference (o : GarbageCollectedObject) : GarbageCollectedObject :=
  if o.isDeleted = true ∧ o.numberOfRefs - 1 = 0 then
    { o with numberOfRefs := o.numberOfRefs - 1, frees := o.frees + 1 }
  else { o with numberOfRefs := o.numberOfRefs - 1 }

/-- An object is freed at most once, not while there are references to it, and as soon as there are
none if it is marked. -/
structure Sound (o : GarbageCollectedObject) : Prop where
  frees_le : o.frees ≤ 1
  frees_eq_zero : 0 < o.numberOfRefs → o.frees = 0
  frees_eq_one : o.isDeleted = true → o.numberOfRefs = 0 → o.frees = 1

variable {o : GarbageCollectedObject}

lemma sound_new : new.Sound := ⟨Nat.zero_le _, fun _ => rfl, nofun⟩

lemma Sound.incrReference (ha : o.frees = 0) : o.incrReference.Sound where
  frees_le := by
    show o.frees ≤ 1
    rw [ha]
    exact Nat.zero_le _
  frees_eq_zero _ := ha
  frees_eq_one _ h := nomatch h

lemma Sound.decrReference (h : o.Sound) (hr : 0 < o.numberOfRefs) : o.decrReference.Sound := by
  have ha := h.frees_eq_zero hr
  unfold GarbageCollectedObject.decrReference
  split_ifs with hl
  · refine ⟨?_, fun hpos => ?_, fun _ _ => ?_⟩
    · simp [ha]
    · exact absurd hl.2 hpos.ne'
    · simp [ha]
  · refine ⟨?_, fun _ => ha, fun hd hz => ?_⟩
    · simp [ha]
    · exact absurd ⟨hd, hz⟩ hl

lemma Sound.markForDeletion (ha : o.frees = 0) : o.markForDeletion.Sound := by
  unfold GarbageCollectedObject.markForDeletion
  split_ifs with hz
  · refine ⟨?_, fun hpos => ?_, fun _ _ => ?_⟩
    · simp [ha]
    · exact absurd hz hpos.ne'
    · simp [ha]
  · refine ⟨?_, fun _ => ha, fun _ hz' => ?_⟩
    · simp [ha]
    · exact absurd hz' hz

end GarbageCollectedObject

structure DistillerRequest where
  dist : ℕ
  stopWaiting : Bool
  deleted : Bool
  /-- Whether `DistillAsync` has returned it, and it was not yet destroyed. -/
  outstanding : Bool
deriving DecidableEq

structure DistillerConnection extends GarbageCollectedObject where
  distiller : ℕ
deriving DecidableEq

structure CachedDistiller extends GarbageCollectedObject where
  connection : Option ℕ
  pendingRequests : List ℕ
  /-- Whether `distMutex` is locked. -/
  distMutex : Bool
  cached : Bool
deriving DecidableEq

def DistillerConnection.setObject (C : DistillerConnection) (o : GarbageCollectedObject) :
    DistillerConnection := ⟨o, C.distiller⟩

def CachedDistiller.setObject (D : CachedDistiller) (o : GarbageCollectedObject) :
    CachedDistiller :=
  ⟨o, D.connection, D.pendingRequests, D.distMutex, D.cached⟩

/-- The two kinds of calls; `async i` is at its attempt number `i`. -/
inductive Kind
  | sync
  | async (i : ℕ)
deriving DecidableEq

inductive Cause
  | failed (k : Kind)
  | broken (c : ℕ)
deriving DecidableEq

def Cause.keeps (cached : Bool) : Cause → Bool
  | failed _ => false
  | broken _ => cached

inductive Thread
  | idle
  /-- At the head of the loop of `CacheManager::Distill` or `DistillAsync`. -/
  | looking (k : Kind)
  /-- `getDistiller` has returned `d`. -/
  | got (k : Kind) (d : ℕ)
  /-- The request `r` was made; `distMutex` is locked. -/
  | created (k : Kind) (d r : ℕ)
  /-- The request is to be sent over the connection `c`. -/
  | sending (k : Kind) (d r c : ℕ)
  | waiting (d r c : ℕ)
  /-- About to call `Remove__`, or `CachedDistiller::EvConnectionBroken`. -/
  | disconnect (w : Cause) (d : ℕ)
  /-- In `Disconnect_`, with the request that was removed from the head of the list last. -/
  | removing (w : Cause) (d : ℕ) (held : Option ℕ)
  | disconnected (w : Cause) (d : ℕ)
  | marked (k : Kind) (d : ℕ)
  | finished (d : ℕ)
  /-- `Destroy` was called, and the request is to be deleted. -/
  | destroyed (r : ℕ)
  | forked (c : ℕ)
  /-- In the loop of `ThreadedSocket::ThreadMain`. -/
  | listening (c : ℕ)
deriving DecidableEq

/-- Where the thread is after an attempt that ended for lack of memory: `Distill` gives up its
reference, `DistillAsync` breaks out of its loop.
`cacheman.cc` `CacheManager::Distill`, `CacheManager::DistillAsync`. -/
def Kind.outOfLocalMemory (d : ℕ) : Kind → Thread
  | .sync => .finished d
  | .async _ => .idle

/-- The head of the loop again; `DistillAsync` tries five times. -/
def Kind.again : Kind → Thread
  | .sync => .looking .sync
  | .async i => if i + 1 < 5 then .looking (.async (i + 1)) else .idle

structure Distilling where
  distillers : List CachedDistiller
  connections : List DistillerConnection
  requests : List DistillerRequest
  threads : List Thread
  /-- Whether `RemoveAllRequests_` has used a deleted request; not in the source. -/
  touchedDeleted : Bool
deriving DecidableEq

inductive Outcome
  | ok
  | error
  | noMemory
deriving DecidableEq

variable {f : GarbageCollectedObject → GarbageCollectedObject} {r t : ℕ}

namespace Distilling

/-! ## The parts of a step -/

def setThread (s : Distilling) (t : ℕ) (p : Thread) : Distilling :=
  { s with threads := s.threads.set t p }

def setDistiller (s : Distilling) (d : ℕ) (D : CachedDistiller) : Distilling :=
  { s with distillers := s.distillers.set d D }

def setConnection (s : Distilling) (c : ℕ) (C : DistillerConnection) : Distilling :=
  { s with connections := s.connections.set c C }

def setRequest (s : Distilling) (r : ℕ) (R : DistillerRequest) : Distilling :=
  { s with requests := s.requests.set r R }

def addConnection (s : Distilling) (C : DistillerConnection) : Distilling :=
  { s with connections := s.connections ++ [C] }

def addRequest (s : Distilling) (R : DistillerRequest) : Distilling :=
  { s with requests := s.requests ++ [R] }

def addThread (s : Distilling) (p : Thread) : Distilling := { s with threads := s.threads ++ [p] }

def updateDistiller (s : Distilling) (d : ℕ)
    (f : GarbageCollectedObject → GarbageCollectedObject) : Option Distilling := do
  let D ← s.distillers[d]?
  return s.setDistiller d (D.setObject (f D.toGarbageCollectedObject))

/-- The same for a connection.  A connection that is deleted gives up its reference to the
distiller.  `DistillerConnection::~DistillerConnection`. -/
def updateConnection (s : Distilling) (c : ℕ)
    (f : GarbageCollectedObject → GarbageCollectedObject) : Option Distilling := do
  let C ← s.connections[c]?
  let s := s.setConnection c (C.setObject (f C.toGarbageCollectedObject))
  if (f C.toGarbageCollectedObject).frees = C.frees then return s
  else s.updateDistiller C.distiller .decrReference

lemma updateDistiller_inv {s s' : Distilling} {d : ℕ} (h : s.updateDistiller d f = some s') :
    ∃ D, s.distillers[d]? = some D ∧
      s' = s.setDistiller d (D.setObject (f D.toGarbageCollectedObject)) := by
  obtain ⟨D, hD, he⟩ := bind_eq_some_iff.mp h
  exact ⟨D, hD, (some.inj he).symm⟩

lemma updateConnection_incr_inv {s s' : Distilling} {c : ℕ}
    (h : s.updateConnection c .incrReference = some s') :
    ∃ C, s.connections[c]? = some C ∧ s' = s.setConnection c (C.setObject C.incrReference) := by
  obtain ⟨C, hC, he⟩ := bind_eq_some_iff.mp h
  rw [show C.incrReference.frees = C.frees from rfl, if_pos rfl] at he
  exact ⟨C, hC, (some.inj he).symm⟩

def deleteRequest (s : Distilling) (r : ℕ) : Option Distilling := do
  let R ← s.requests[r]?
  return s.setRequest r { R with deleted := true }

/-- A request stops waiting and is taken off its distiller's list, unless it has stopped before.
`DistillerRequest::EvReplyReceived`, `DistillerRequest::EvTimer`. -/
def stopRequest (s : Distilling) (r : ℕ) (R : DistillerRequest) : Option Distilling :=
  if R.stopWaiting then some s
  else do
    let D ← s.distillers[R.dist]?
    return (s.setRequest r { R with stopWaiting := true }).setDistiller R.dist
      { D with pendingRequests := D.pendingRequests.erase r }

def enter (s : Distilling) (t : ℕ) (asynchronous : Bool) : Option Distilling :=
  if s.threads[t]? = some .idle then
    some (s.setThread t (.looking (if asynchronous then .async 0 else .sync)))
  else none

/-- Whether there is a distiller depends on the type, the lottery and the PTM.
`cache.cc` `DistillerCache::getDistiller`. -/
def find (s : Distilling) (t : ℕ) (found : Option ℕ) : Option Distilling :=
  match s.threads[t]?, found with
  | some (.looking _), none => some (s.setThread t .idle)
  | some (.looking k), some d => do
    let D ← s.distillers[d]?
    if D.cached then (s.setThread t (.got k d)).updateDistiller d .incrReference else none
  | _, _ => none

/-- A connection object is made, which takes a reference to the distiller; it stays even if
connecting fails.
`cache.cc`. -/
def connect (s : Distilling) (d : ℕ) (D : CachedDistiller) : Distilling :=
  (s.addConnection ⟨.new, d⟩).setDistiller d
    { D.setObject D.incrReference with connection := some s.connections.length }

/-- The request is made while the mutex of the distiller is locked. -/
def create (s : Distilling) (t : ℕ) (k : Kind) (d : ℕ) : Option Distilling := do
  let D ← s.distillers[d]?
  return ((s.addRequest ⟨d, false, false, false⟩).setDistiller d
    { D with distMutex := true }).setThread
    t (.created k d s.requests.length)

/-- `cache.cc` `CachedDistiller::Distill`, `CachedDistiller::DistillAsync`, up to the new
request. -/
def attempt (s : Distilling) (t : ℕ) (o : Outcome) : Option Distilling :=
  match s.threads[t]? with
  | some (.got k d) => do
    let D ← s.distillers[d]?
    if D.distMutex then none
    else if D.isDeleted then some (s.setThread t (.disconnect (.failed k) d))
    else
      match D.connection, o with
      | some _, _ => s.create t k d
      | none, .ok => ((s.connect d D).addThread (.forked s.connections.length)).create t k d
      | none, .error => some ((s.connect d D).setThread t (.disconnect (.failed k) d))
      | none, .noMemory => some ((s.connect d D).setThread t (k.outOfLocalMemory d))
  | _ => none

/-- The request is put on the list, and a reference to the connection is taken.
`cache.cc` `CachedDistiller::Distill`, `CachedDistiller::DistillAsync`. -/
def add (s : Distilling) (t : ℕ) : Option Distilling :=
  match s.threads[t]? with
  | some (.created k d r) => do
    let D ← s.distillers[d]?
    let c ← D.connection
    ((s.setDistiller d
        { D with pendingRequests := r :: D.pendingRequests, distMutex := false }).setThread t
          (.sending k d r c)).updateConnection c .incrReference
  | _ => none

/-- A request that cannot be sent is deleted as it is.
`cache.cc` `CachedDistiller::Distill`, `CachedDistiller::DistillAsync`. -/
def send (s : Distilling) (t : ℕ) (o : Outcome) : Option Distilling :=
  match s.threads[t]? with
  | some (.sending k d r c) =>
    match o, k with
    | .ok, .sync => some (s.setThread t (.waiting d r c))
    | .ok, .async _ => do
      let R ← s.requests[r]?
      ((s.setRequest r { R with outstanding := true }).setThread t .idle).updateConnection c
        .decrReference
    | .error, k => do
      let s ← s.deleteRequest r
      (s.setThread t (.disconnect (.failed k) d)).updateConnection c .decrReference
    | .noMemory, k => do
      let s ← s.deleteRequest r
      (s.setThread t (k.outOfLocalMemory d)).updateConnection c .decrReference
  | _ => none

/-- A call that waits finds that it need not wait any more.  The status in the reply may be the one
of a send error.  `DistillerRequest::SendAndWait`, `cache.cc` `CachedDistiller::Distill`. -/
def wake (s : Distilling) (t : ℕ) (sendError : Bool) : Option Distilling :=
  match s.threads[t]? with
  | some (.waiting d r c) => do
    let R ← s.requests[r]?
    if R.stopWaiting then
      let s ← s.deleteRequest r
      (s.setThread t (if sendError then .disconnect (.failed .sync) d else .finished d))
        |>.updateConnection c .decrReference
    else none
  | _ => none

def settle (s : Distilling) (r : ℕ) : Option Distilling := do
  let R ← s.requests[r]?
  if R.deleted then none else s.stopRequest r R

/-- A request that `DistillAsync` has returned is destroyed, by `DistillDestroy` or at the end of
`DistillRendezvous`. -/
def destroy (s : Distilling) (t r : ℕ) : Option Distilling := do
  let R ← s.requests[r]?
  if s.threads[t]? = some .idle ∧ R.outstanding = true then
    let s ← s.stopRequest r R
    let R ← s.requests[r]?
    (s.setRequest r { R with outstanding := false }).setThread t (.destroyed r)
      |>.updateDistiller R.dist .decrReference
  else none

def evDistillerConnectionBroken (s : Distilling) (r : ℕ) : Option Distilling := do
  let R ← s.requests[r]?
  if R.deleted then return { s with touchedDeleted := true }
  else return s.setRequest r { R with stopWaiting := true }

/-- The distiller's mutex is locked; a call that failed has taken the distiller out of the cache
before.
`cache.cc` `DistillerCache::Remove_`, `cache.h` `CachedDistiller::Disconnect__`. -/
def lock (s : Distilling) (t : ℕ) (w : Cause) (d : ℕ) : Option Distilling := do
  let D ← s.distillers[d]?
  if D.distMutex then none
  else
    return (s.setDistiller d { D with distMutex := true, cached := w.keeps D.cached }).setThread t
      (.removing w d none)

/-- The next round of the loop of `RemoveAllRequests_`, or what comes after it.
`cache.cc` `CachedDistiller::Disconnect_`, `CachedDistiller::RemoveAllRequests_`. -/
def removeHead (s : Distilling) (t : ℕ) (w : Cause) (d : ℕ) : Option Distilling := do
  let D ← s.distillers[d]?
  match D.connection, D.pendingRequests with
  | none, _ =>
    return (s.setDistiller d { D with distMutex := false }).setThread t (.disconnected w d)
  | some _, r :: rest =>
    return (s.setDistiller d { D with pendingRequests := rest }).setThread t
      (.removing w d (some r))
  | some c, [] =>
    (s.setDistiller d { D with connection := none, distMutex := false }).setThread t
        (.disconnected w d)
      |>.updateConnection c .markForDeletion

def disconnect (s : Distilling) (t : ℕ) : Option Distilling :=
  match s.threads[t]? with
  | some (.disconnect w d) => s.lock t w d
  | some (.removing w d none) => s.removeHead t w d
  | some (.removing w d (some r)) => do
    let s ← s.evDistillerConnectionBroken r
    return s.setThread t (.removing w d none)
  | _ => none

/-- A thread marks the distiller or gives up its reference, or deletes a request.
`cacheman.cc` `CacheManager::Distill`, `CacheManager::DistillAsync`,
`CacheManager::DistillDestroy`, `cachenet.cc` `DistillerConnection::EvConnectionBroken`. -/
def proceed (s : Distilling) (t : ℕ) : Option Distilling :=
  match s.threads[t]? with
  | some (.disconnected (.failed k) d) =>
    (s.setThread t (.marked k d)).updateDistiller d .markForDeletion
  | some (.disconnected (.broken c) d) =>
    (s.setThread t (.listening c)).updateDistiller d .decrReference
  | some (.marked k d) => (s.setThread t k.again).updateDistiller d .decrReference
  | some (.finished d) => (s.setThread t .idle).updateDistiller d .decrReference
  | some (.destroyed r) => (s.setThread t .idle).deleteRequest r
  | _ => none

/-- The thread of a connection begins, and takes a reference to it.
`ThreadedSocket::ThreadMain`. -/
def start (s : Distilling) (t : ℕ) : Option Distilling :=
  match s.threads[t]? with
  | some (.forked c) => (s.setThread t (.listening c)).updateConnection c .incrReference
  | _ => none

/-- The thread of a connection finds it broken.  `DistillerConnection::EvConnectionBroken`. -/
def breakConnection (s : Distilling) (t : ℕ) : Option Distilling :=
  match s.threads[t]? with
  | some (.listening c) => do
    let C ← s.connections[c]?
    (s.setThread t (.disconnect (.broken c) C.distiller)).updateDistiller C.distiller
      .incrReference
  | _ => none

/-- The thread of a connection ends.  `ThreadedSocket::ThreadMain`. -/
def exit (s : Distilling) (t : ℕ) : Option Distilling :=
  match s.threads[t]? with
  | some (.listening c) => (s.setThread t .idle).updateConnection c .decrReference
  | _ => none

def discover (s : Distilling) : Distilling :=
  { s with distillers := s.distillers ++ [⟨.new, none, [], false, true⟩] }

inductive Event
  | enter (t : ℕ) (asynchronous : Bool)
  | find (t : ℕ) (found : Option ℕ)
  | attempt (t : ℕ) (o : Outcome)
  | add (t : ℕ)
  | send (t : ℕ) (o : Outcome)
  | wake (t : ℕ) (sendError : Bool)
  | settle (r : ℕ)
  | destroy (t r : ℕ)
  | disconnect (t : ℕ)
  | proceed (t : ℕ)
  | start (t : ℕ)
  | breakConnection (t : ℕ)
  | exit (t : ℕ)
  | discover
deriving DecidableEq

def next (s : Distilling) : Event → Option Distilling
  | .enter t asynchronous => s.enter t asynchronous
  | .find t found => s.find t found
  | .attempt t o => s.attempt t o
  | .add t => s.add t
  | .send t o => s.send t o
  | .wake t sendError => s.wake t sendError
  | .settle r => s.settle r
  | .destroy t r => s.destroy t r
  | .disconnect t => s.disconnect t
  | .proceed t => s.proceed t
  | .start t => s.start t
  | .breakConnection t => s.breakConnection t
  | .exit t => s.exit t
  | .discover => some s.discover

def step (s : Distilling) (e : Event) (s' : Distilling) : Prop := s.next e = some s'

def initial (clients : ℕ) : Distilling := ⟨[], [], [], List.replicate clients .idle, false⟩

/-! ## What a step does to the requests -/

def pending (s : Distilling) : List (List ℕ) := s.distillers.map CachedDistiller.pendingRequests

structure SameRequests (s s' : Distilling) : Prop where
  threads : s'.threads = s.threads
  requests : s'.requests = s.requests
  pending : s'.pending = s.pending
  touchedDeleted : s'.touchedDeleted = s.touchedDeleted

lemma SameRequests.refl (s : Distilling) : s.SameRequests s := ⟨rfl, rfl, rfl, rfl⟩

lemma SameRequests.trans {s1 s2 s3 : Distilling} (h1 : s1.SameRequests s2)
    (h2 : s2.SameRequests s3) : s1.SameRequests s3 where
  threads := h2.threads.trans h1.threads
  requests := h2.requests.trans h1.requests
  pending := h2.pending.trans h1.pending
  touchedDeleted := h2.touchedDeleted.trans h1.touchedDeleted

variable {s s' : Distilling} {d c : ℕ} {D D' : CachedDistiller}

lemma pending_getElem? (hD : s.distillers[d]? = some D) :
    s.pending[d]? = some D.pendingRequests := by
  rw [pending, List.getElem?_map, hD, map_some]

lemma pending_setDistiller (s : Distilling) (d : ℕ) (D' : CachedDistiller) :
    (s.setDistiller d D').pending = s.pending.set d D'.pendingRequests := by
  rw [pending, setDistiller, List.map_set, pending]

lemma sameRequests_setDistiller (D' : CachedDistiller) (hD : s.distillers[d]? = some D)
    (hl : D'.pendingRequests = D.pendingRequests) : s.SameRequests (s.setDistiller d D') := by
  refine ⟨rfl, rfl, ?_, rfl⟩
  obtain ⟨hlt, hg⟩ := List.getElem?_eq_some_iff.mp (pending_getElem? hD)
  rw [pending_setDistiller, hl, ← hg]
  exact List.set_getElem_self hlt

lemma sameRequests_updateDistiller (h : s.updateDistiller d f = some s') : s.SameRequests s' := by
  obtain ⟨D, hD, rfl⟩ := updateDistiller_inv h
  exact sameRequests_setDistiller _ hD rfl

lemma sameRequests_updateConnection (h : s.updateConnection c f = some s') : s.SameRequests s' := by
  obtain ⟨C, -, h⟩ := bind_eq_some_iff.mp h
  have hs : s.SameRequests (s.setConnection c (C.setObject (f C.toGarbageCollectedObject))) :=
    ⟨rfl, rfl, rfl, rfl⟩
  split_ifs at h
  · cases h
    exact hs
  · exact hs.trans (sameRequests_updateDistiller h)

lemma sameRequests_connect (hD : s.distillers[d]? = some D) : s.SameRequests (s.connect d D) := by
  have ha : s.SameRequests (s.addConnection ⟨.new, d⟩) := ⟨rfl, rfl, rfl, rfl⟩
  exact ha.trans (sameRequests_setDistiller _ hD rfl)

end Distilling

/-- The request that a thread works on, and no other thread. -/
def Thread.request : Thread → Option ℕ
  | created _ _ r | sending _ _ r _ | waiting _ r _ | destroyed r => some r
  | _ => none

def Thread.held : Thread → Option ℕ
  | removing _ _ held => held
  | _ => none

namespace Distilling

def unsent (s : Distilling) : Event → Option ℕ
  | .send t .error | .send t .noMemory =>
    match s.threads[t]? with
    | some (.sending _ _ r _) => some r
    | _ => none
  | _ => none

def discarded (s : Distilling) : Event → Option ℕ
  | .wake t _ | .proceed t =>
    match s.threads[t]? with
    | some (.waiting _ r _) | some (.destroyed r) => some r
    | _ => none
  | e => s.unsent e

inductive Change (s : Distilling) : Event → Distilling → Prop
  | move {e : Event} {t : ℕ} {p p' : Thread} {s' : Distilling} : s.threads[t]? = some p →
      p.request = none → p.held = none → p'.request = none → p'.held = none →
      (s.setThread t p').SameRequests s' → Change s e s'
  | create {t d : ℕ} {k : Kind} {o : Outcome} {s' : Distilling} (more : List Thread) :
      s.threads[t]? = some (.got k d) → (∀ p ∈ more, p.request = none ∧ p.held = none) →
      (({ s with threads := s.threads ++ more }.addRequest ⟨d, false, false, false⟩).setThread t
        (.created k d s.requests.length)).SameRequests s' → Change s (.attempt t o) s'
  | add {t d r c : ℕ} {k : Kind} {D : CachedDistiller} {s' : Distilling} :
      s.threads[t]? = some (.created k d r) → s.distillers[d]? = some D →
      ((s.setDistiller d { D with
        pendingRequests := r :: D.pendingRequests, distMutex := false }).setThread t
          (.sending k d r c)).SameRequests s' → Change s (.add t) s'
  | wait {t d r c : ℕ} : s.threads[t]? = some (.sending .sync d r c) →
      Change s (.send t .ok) (s.setThread t (.waiting d r c))
  | returned {t d r c i : ℕ} {R : DistillerRequest} {s' : Distilling} :
      s.threads[t]? = some (.sending (.async i) d r c) → s.requests[r]? = some R →
      ((s.setRequest r { R with outstanding := true }).setThread t .idle).SameRequests s' →
      Change s (.send t .ok) s'
  | discard {e : Event} {t r : ℕ} {p p' : Thread} {R : DistillerRequest} {s' : Distilling} :
      s.threads[t]? = some p → p.request = some r → s.discarded e = some r →
      (s.unsent e = some r ∨ R.stopWaiting = true ∨ p = .destroyed r) → p'.request = none →
      p'.held = none → s.requests[r]? = some R →
      ((s.setRequest r { R with deleted := true }).setThread t p').SameRequests s' → Change s e s'
  | settle {r : ℕ} {R : DistillerRequest} {s' : Distilling} : s.requests[r]? = some R →
      R.deleted = false → s.stopRequest r R = some s' → Change s (.settle r) s'
  | destroy {t r : ℕ} {R R₁ : DistillerRequest} {s₁ s' : Distilling} : s.threads[t]? = some .idle →
      s.requests[r]? = some R → R.outstanding = true → s.stopRequest r R = some s₁ →
      s₁.requests[r]? = some R₁ →
      ((s₁.setRequest r { R₁ with outstanding := false }).setThread t
        (.destroyed r)).SameRequests s' →
      Change s (.destroy t r) s'
  | take {t d r : ℕ} {w : Cause} {rest : List ℕ} {D : CachedDistiller} :
      s.threads[t]? = some (.removing w d none) → s.distillers[d]? = some D →
      D.pendingRequests = r :: rest →
      Change s (.disconnect t)
        ((s.setDistiller d { D with pendingRequests := rest }).setThread t (.removing w d (some r)))
  | notify {t d r : ℕ} {w : Cause} {s₁ : Distilling} :
      s.threads[t]? = some (.removing w d (some r)) → s.evDistillerConnectionBroken r = some s₁ →
      Change s (.disconnect t) (s₁.setThread t (.removing w d none))
  | discover : Change s .discover s.discover

variable {s s' : Distilling}

lemma change_find {found : Option ℕ} (h : s.find t found = some s') :
    s.Change (.find t found) s' := by
  unfold find at h
  split at h
  · next hp =>
      cases h
      exact .move hp rfl rfl rfl rfl (.refl _)
  · next k d hp =>
      simp only [bind_eq_bind, bind_eq_some_iff, ite_none_right_eq_some] at h
      obtain ⟨D, -, -, h⟩ := h
      exact .move hp rfl rfl rfl rfl (sameRequests_updateDistiller h)
  · exact nomatch h

lemma change_attempt {o : Outcome} (h : s.attempt t o = some s') : s.Change (.attempt t o) s' := by
  have hcr {t d : ℕ} {k : Kind} {s s' : Distilling} (h : s.create t k d = some s') :
      ((s.addRequest ⟨d, false, false, false⟩).setThread t
        (.created k d s.requests.length)).SameRequests s' := by
    obtain ⟨D, hD, he⟩ := bind_eq_some_iff.mp h
    cases he
    have hl := sameRequests_setDistiller { D with distMutex := true } hD rfl
    exact ⟨rfl, rfl, hl.pending, rfl⟩
  unfold attempt at h
  split at h
  · next k d hp =>
      obtain ⟨D, hD, h⟩ := bind_eq_some_iff.mp h
      have hc := sameRequests_connect hD
      split_ifs at h
      · cases h
        exact .move hp rfl rfl rfl rfl (.refl _)
      · split at h
        · refine .create [] hp nofun ?_
          rw [List.append_nil]
          exact hcr h
        · have hn := hcr h
          refine .create [.forked s.connections.length] hp (fun p hp => ?_)
            ⟨hn.threads, hn.requests, hn.pending.trans hc.pending, hn.touchedDeleted⟩
          obtain rfl := List.mem_singleton.mp hp
          exact ⟨rfl, rfl⟩
        · cases h
          exact .move hp rfl rfl rfl rfl ⟨rfl, rfl, hc.pending, rfl⟩
        · cases h
          cases k with
          | sync | async => exact .move hp rfl rfl rfl rfl ⟨rfl, rfl, hc.pending, rfl⟩
  · exact nomatch h

lemma change_add (h : s.add t = some s') : s.Change (.add t) s' := by
  unfold add at h
  split at h
  · next k d r hp =>
      simp only [bind_eq_bind, bind_eq_some_iff] at h
      obtain ⟨D, hD, c, -, h⟩ := h
      exact .add hp hD (sameRequests_updateConnection h)
  · exact nomatch h

lemma change_discard {e : Event} {c : ℕ} {p p' : Thread} {R : DistillerRequest} {s1 : Distilling}
    (hp : s.threads[t]? = some p) (hr : p.request = some r)
    (hdi : s.discarded e = some r) (hR : s.requests[r]? = some R)
    (hw : s.unsent e = some r ∨ R.stopWaiting = true ∨ p = .destroyed r)
    (hr' : p'.request = none) (hh : p'.held = none) (hd : s.deleteRequest r = some s1)
    (h : (s1.setThread t p').updateConnection c .decrReference = some s') : s.Change e s' := by
  simp only [deleteRequest, hR, bind_eq_bind, bind_some] at hd
  cases hd
  exact .discard hp hr hdi hw hr' hh hR (sameRequests_updateConnection h)

lemma change_send {o : Outcome} (h : s.send t o = some s') : s.Change (.send t o) s' := by
  unfold send at h
  split at h
  · next k d r c hp =>
      split at h
      · cases h
        exact .wait hp
      · obtain ⟨R, hR, h⟩ := bind_eq_some_iff.mp h
        exact .returned hp hR (sameRequests_updateConnection h)
      · have hu : s.unsent (.send t .error) = some r := by simp [unsent, hp]
        obtain ⟨s1, hd, h⟩ := bind_eq_some_iff.mp h
        obtain ⟨R, hR, -⟩ := bind_eq_some_iff.mp hd
        exact change_discard hp rfl hu hR (.inl hu) rfl rfl hd h
      · have hu : s.unsent (.send t .noMemory) = some r := by simp [unsent, hp]
        obtain ⟨s1, hd, h⟩ := bind_eq_some_iff.mp h
        obtain ⟨R, hR, -⟩ := bind_eq_some_iff.mp hd
        cases k with
        | sync | async => exact change_discard hp rfl hu hR (.inl hu) rfl rfl hd h
  · exact nomatch h

lemma change_wake {sendError : Bool} (h : s.wake t sendError = some s') :
    s.Change (.wake t sendError) s' := by
  unfold wake at h
  split at h
  · next d r c hp =>
      have hd : s.discarded (.wake t sendError) = some r := by simp [discarded, hp]
      simp only [bind_eq_bind, bind_eq_some_iff, ite_none_right_eq_some] at h
      obtain ⟨R, hR, hs, s1, hde, h⟩ := h
      cases sendError with
      | true | false => exact change_discard hp rfl hd hR (.inr (.inl hs)) rfl rfl hde h
  · exact nomatch h

lemma change_settle (h : s.settle r = some s') : s.Change (.settle r) s' := by
  obtain ⟨R, hR, h⟩ := bind_eq_some_iff.mp h
  split_ifs at h with hd
  exact .settle hR (by simpa using hd) h

lemma change_destroy (h : s.destroy t r = some s') : s.Change (.destroy t r) s' := by
  simp only [destroy, bind_eq_bind, bind_eq_some_iff, ite_none_right_eq_some] at h
  obtain ⟨R, hR, ⟨hp, hout⟩, s1, hs, R1, hR1, h⟩ := h
  exact .destroy hp hR hout hs hR1 (sameRequests_updateDistiller h)

lemma change_disconnect (h : s.disconnect t = some s') : s.Change (.disconnect t) s' := by
  unfold disconnect at h
  split at h
  · next w d hp =>
      obtain ⟨D, hD, h⟩ := bind_eq_some_iff.mp h
      split_ifs at h
      cases h
      have hl := sameRequests_setDistiller { D with
        distMutex := true, cached := w.keeps D.cached } hD rfl
      exact .move hp rfl rfl rfl rfl ⟨rfl, rfl, hl.pending, rfl⟩
  · next w d hp =>
      obtain ⟨D, hD, h⟩ := bind_eq_some_iff.mp h
      split at h
      · cases h
        have hu := sameRequests_setDistiller { D with distMutex := false } hD rfl
        exact .move hp rfl rfl rfl rfl ⟨rfl, rfl, hu.pending, rfl⟩
      · next r rest _ hli =>
          cases h
          exact .take hp hD hli
      · have hu := sameRequests_setDistiller { D with
          connection := none, distMutex := false } hD rfl
        have hm := sameRequests_updateConnection h
        have hs : (s.setThread t (.disconnected w d)).SameRequests s' :=
          ⟨hm.threads, hm.requests, hm.pending.trans hu.pending, hm.touchedDeleted⟩
        exact .move hp rfl rfl rfl rfl hs
  · next w d r hp =>
      obtain ⟨s1, ht, he⟩ := bind_eq_some_iff.mp h
      cases he
      exact .notify hp ht
  · exact nomatch h

lemma change_proceed (h : s.proceed t = some s') : s.Change (.proceed t) s' := by
  unfold proceed at h
  split at h
  · next hp => exact .move hp rfl rfl rfl rfl (sameRequests_updateDistiller h)
  · next hp => exact .move hp rfl rfl rfl rfl (sameRequests_updateDistiller h)
  · next k d hp =>
      have ha : k.again.request = none ∧ k.again.held = none := by
        unfold Kind.again
        split
        · exact ⟨rfl, rfl⟩
        · split_ifs <;> exact ⟨rfl, rfl⟩
      exact .move hp rfl rfl ha.1 ha.2 (sameRequests_updateDistiller h)
  · next hp => exact .move hp rfl rfl rfl rfl (sameRequests_updateDistiller h)
  · next r hp =>
      have hd : s.discarded (.proceed t) = some r := by simp [discarded, hp]
      obtain ⟨R, hR, he⟩ := bind_eq_some_iff.mp h
      cases he
      exact .discard hp rfl hd (.inr (.inr rfl)) rfl rfl hR (.refl _)
  · exact nomatch h

/-- **Every step is one of these changes.** -/
theorem change_of_step {e : Event} (h : s.step e s') : s.Change e s' := by
  unfold step next at h
  cases e with
  | enter t asynchronous =>
    obtain ⟨hp, ⟨⟩⟩ := ite_none_right_eq_some.mp h
    exact .move hp rfl rfl rfl rfl (.refl _)
  | find t found => exact change_find h
  | attempt t o => exact change_attempt h
  | add t => exact change_add h
  | send t o => exact change_send h
  | wake t sendError => exact change_wake h
  | settle r => exact change_settle h
  | destroy t r => exact change_destroy h
  | disconnect t => exact change_disconnect h
  | proceed t => exact change_proceed h
  | start t =>
    simp only [start] at h
    split at h
    · next hp => exact .move hp rfl rfl rfl rfl (sameRequests_updateConnection h)
    · exact nomatch h
  | breakConnection t =>
    simp only [breakConnection] at h
    split at h
    · next hp =>
        obtain ⟨C, -, h⟩ := bind_eq_some_iff.mp h
        exact .move hp rfl rfl rfl rfl (sameRequests_updateDistiller h)
    · exact nomatch h
  | exit t =>
    simp only [exit] at h
    split at h
    · next hp => exact .move hp rfl rfl rfl rfl (sameRequests_updateConnection h)
    · exact nomatch h
  | discover =>
    cases h
    exact .discover

end Distilling

end Glomop.Cache
