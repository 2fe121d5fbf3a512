import Glomop.Dist.Rpc

/-!
# The load of a distiller

The event loop puts jobs on the work queue and sends the replies; the consumer distills them.
`LoadReporter` adds the cost of a job when it is received and takes it off when its reply is
handled.  The consumer drops a job whose connection is gone, and then nobody takes its cost off
(`dropped_stays_counted`); a distiller that sleeps ignores the order to die.  Apart from these two
the accounting is exact (`load_of_run`).  `operator new` does not return on failure.
Source: `distiller.h`, `distiller.cc`.
-/

namespace Glomop.Dist

open Lib Rpc List

structure WorkArgument where
  id : UInt32
  int : UInt32
deriving DecidableEq

/-- A job.  `address` is where the object lies in memory. -/
structure Work where
  address : UInt32
  args : List WorkArgument
  status : DistillerStatus
  /-- `cost.estimatedTime_ms`. -/
  cost : UInt32
  replyObject : ℕ
  replyID : UInt32
deriving DecidableEq

/-- Three lists of jobs, by the address of the client.
`ptmqueue.h`. -/
abbrev LotteryQueue := Buckets 3 Work

/-- The list for a client address.
`ptmqueue.cc` `LotteryQueue::Add`. -/
def classOf (ntohl : UInt32 → UInt32) (client_ip : UInt32) : Fin 3 :=
  if ntohl client_ip = 2149590592 then 0
  else if ntohl client_ip = 2149590593 then 1
  else 2

/-- Times are in milliseconds.  `noLoadTimer` is the flag `workReceived` of the timer, if there is a
timer. -/
structure LoadReporter where
  instTotalLatency_ms : UInt32
  area : UInt32
  lastUpdate : ℕ
  start : ℕ
  noLoadTimer : Option Bool
deriving DecidableEq

inductive Consumer
  /-- In `workQueue->Remove()`. -/
  | waiting
  | removed (work : Work)
  /-- In `DistillerMain`. -/
  | distilling (work : Work)
deriving DecidableEq

def Consumer.works : Consumer → List Work
  | waiting => []
  | removed work => [work]
  | distilling work => [work]

/-- An event that waits for the event loop.  `evDistillerReply`, `evDistillerReregister`. -/
inductive Posted
  | evQuit
  | evDistillerReply (work : Work)
  | evDistillerReregister
deriving DecidableEq

def Posted.work : Posted → Option Work
  | evDistillerReply work => some work
  | _ => none

/-- `class MyDistiller`. -/
structure Distiller where
  reporter : LoadReporter
  workQueue : LotteryQueue
  consumer : Consumer
  eventQueue : List Posted
  connections : List ℕ
  /-- The connections with `isDeleted` set. -/
  deleted : List ℕ
  sleepStatus : UInt32
  /-- Whether `loadNotificationTimer` is there. -/
  loadNotificationTimer : Bool
  /-- `EventSystem::Run` has returned, and the process ends. -/
  ended : Bool
  toldToDie : Bool

/-- The jobs that were received and neither answered nor dropped. -/
def Distiller.outstanding (s : Distiller) : List Work :=
  s.workQueue.entries ++ (s.consumer.works ++ s.eventQueue.filterMap Posted.work)

/-! ## The load reporter -/

namespace LoadReporter

/-- `LoadReporter::LoadReporter`. -/
def new (noLoadTimeout_sec : UInt32) (now : ℕ) : LoadReporter where
  instTotalLatency_ms := 0
  area := 0
  lastUpdate := now
  start := now
  noLoadTimer := if noLoadTimeout_sec = 0 then none else some false

def adjustAvgLatency (r : LoadReporter) (now : ℕ) : LoadReporter :=
  { r with
    area := r.area + r.instTotalLatency_ms * UInt32.ofNat (now - r.lastUpdate)
    lastUpdate := now }

def newWork (r : LoadReporter) (work : Work) (now : ℕ) : LoadReporter :=
  { r.adjustAvgLatency now with
    instTotalLatency_ms := r.instTotalLatency_ms + work.cost
    noLoadTimer := r.noLoadTimer.map fun _ => true }

def workDone (r : LoadReporter) (work : Work) (now : ℕ) : LoadReporter :=
  { r.adjustAvgLatency now with instTotalLatency_ms := r.instTotalLatency_ms - work.cost }

/-- The average since the last report, and a new start.  `LoadReporter::Report`,
`LoadReporter::getAvgLatency`. -/
def report (r : LoadReporter) (now : ℕ) : UInt32 × LoadReporter :=
  let r := r.adjustAvgLatency now
  let diff_ms := UInt32.ofNat (now - r.start)
  let avg := if diff_ms = 0 then r.instTotalLatency_ms else (r.area + diff_ms / 2) / diff_ms
  (avg, { r with area := 0, start := r.lastUpdate })

def isThereWork (r : LoadReporter) : Bool := r.instTotalLatency_ms ≠ 0

end LoadReporter

variable {e : Event} {k now : ℕ} {ntohl : UInt32 → UInt32} {ok : Bool} {work : Work}

namespace Distiller

/-- `MyDistiller::MyDistiller`. -/
def new (sleepOnStartup : Bool) (noLoadTimeout_sec : UInt32) (now : ℕ) : Distiller where
  reporter := .new noLoadTimeout_sec now
  workQueue := fun _ => []
  consumer := .waiting
  eventQueue := []
  connections := []
  deleted := []
  sleepStatus := if sleepOnStartup then distSleep else distWakeUp
  loadNotificationTimer := !sleepOnStartup
  ended := false
  toldToDie := false

def postEvent (s : Distiller) (event : Posted) : Distiller :=
  { s with eventQueue := s.eventQueue ++ [event] }

def die (s : Distiller) : Distiller := s.postEvent .evQuit

/-- The end of `MyDistiller::Sleep_WakeUp` and of the case `evDistillerReply` of
`MyDistiller::HandleEvent`. -/
def dieIfDone (s : Distiller) : Distiller :=
  if s.sleepStatus = distKill ∧ s.reporter.isThereWork = false then s.die else s

/-- `gm_False` for a status that is none of the three. -/
def sleepWakeUp (s : Distiller) (status : UInt32) : Bool × Distiller :=
  if status = distSleep ∨ status = distKill then
    if s.sleepStatus = distSleep ∨ s.sleepStatus = distKill then (true, s)
    else (true, { s with loadNotificationTimer := false, sleepStatus := status }.dieIfDone)
  else if status = distWakeUp then
    if s.sleepStatus = distWakeUp then (true, s)
    else (true, { s with loadNotificationTimer := true, sleepStatus := status })
  else (false, s)

def defaultDistillationCost : UInt32 × DistillerStatus := (1, .distOk)

def FRONT_CLIENT_IP : UInt32 := 10

def clientIP (args : List WorkArgument) : UInt32 :=
  ((args.find? fun arg => arg.id = FRONT_CLIENT_IP).map WorkArgument.int).getD 0

/-- `inserted` says whether the queue took the job. -/
def workReceived (ntohl : UInt32 → UInt32) (s : Distiller) (work : Work)
    (inserted : Bool) (now : ℕ) :
    Bool × Distiller :=
  let (cost, status) := defaultDistillationCost
  let work := { work with cost := cost }
  if status ≠ .distOk then (true, s.postEvent (.evDistillerReply { work with status := status }))
  else
    let s := { s with reporter := s.reporter.newWork work now }
    if inserted then
      (true, { s with workQueue := s.workQueue.pushBack (classOf ntohl (clientIP work.args)) work })
    else (false, s)

/-- A connection is closed while jobs may refer to it.
`distnet.cc` `ProxyConnection::EvConnectionBroken`,
`distiller.h` `GarbageCollectedObject::MarkForDeletion`. -/
def connectionBroken (s : Distiller) (connection : ℕ) : Distiller :=
  { s with
    connections := s.connections.erase connection
    deleted := connection :: s.deleted }

/-- `written` says whether the packet could be sent.
`distnet.cc`. -/
def sendReply (s : Distiller) (work : Work) (written : Bool) : Distiller :=
  if written then s else s.connectionBroken work.replyObject

/-- `MyDistiller::HandleEvent`, case `evDistillerReply`. -/
def handleReply (s : Distiller) (work : Work) (written : Bool) (now : ℕ) : Distiller :=
  let s := { s with reporter := s.reporter.workDone work now }
  let s := if work.replyObject ∈ s.deleted then s else s.sendReply work written
  s.dieIfDone

inductive Event
  | connected (connection : ℕ)
  | job (connection : ℕ) (address : UInt32) (args : List WorkArgument) (replyID : UInt32)
      (inserted : Bool) (now : ℕ)
  /-- A packet arrives that is no job, or a message that the handler rejects; `fatal` if
  `HandleSelectError` returns `gm_False`. -/
  | rejected (fatal : Bool)
  | broken (connection : ℕ)
  | handle (ok : Bool) (now : ℕ)
  | sleep (status : UInt32)
  | noLoadTimer
  | loadNotificationTimer (now : ℕ)
  | remove (which : Fin 3)
  | check
  /-- `DistillerMain` takes too long. -/
  | distillerMainTimer
  /-- `DistillerMain` calls `DistillerRename`. -/
  | rename
  /-- `DistillerMain` returns. -/
  | distilled (status : DistillerStatus)
deriving DecidableEq

def Event.isHandle : Event → Bool
  | handle _ _ => true
  | _ => false

/-- A packet with a job: the `Work` object is allocated and received.  If the queue does not take
it, the handler fails for lack of memory and the event loop ends.
`distnet.cc` `ProxyConnection::EvPacketReceived`. -/
def jobReceived (ntohl : UInt32 → UInt32) (s : Distiller) (work : Work)
    (inserted : Bool) (now : ℕ) :
    Distiller :=
  let (received, s') := s.workReceived ntohl work inserted now
  { s' with ended := !received }

/-- `eventhan.cc` `EventSystem::Run`, `distiller.cc` `MyDistiller::HandleEvent`. -/
def handleNext (s : Distiller) (ok : Bool) (now : ℕ) : Option Distiller :=
  match s.eventQueue with
  | [] => none
  | .evQuit :: events => some { s with eventQueue := events, ended := true }
  | .evDistillerReply work :: events =>
    some ({ s with eventQueue := events }.handleReply work ok now)
  | .evDistillerReregister :: events => some { s with eventQueue := events, ended := !ok }

/-- The consumer has taken a job: it drops it if the connection is gone.
`MyDistiller::ConsumerMain`. -/
def consumerCheck (s : Distiller) (work : Work) : Distiller :=
  if work.replyObject ∈ s.deleted then { s with consumer := .waiting }
  else { s with consumer := .distilling work }

/-- What an event does; `none` if it cannot happen. -/
def act (ntohl : UInt32 → UInt32) (s : Distiller) : Event → Option Distiller
  | .connected connection =>
    if connection ∈ s.connections ∨ connection ∈ s.deleted then none
    else some { s with connections := connection :: s.connections }
  | .job connection address args replyID inserted now =>
    if connection ∈ s.connections ∧ address ≠ 0 ∧ address ∉ s.outstanding.map Work.address then
      some (s.jobReceived ntohl ⟨address, args, .distOk, 0, connection, replyID⟩ inserted now)
    else none
  | .rejected fatal => some { s with ended := fatal }
  | .broken connection =>
    if connection ∈ s.connections then some (s.connectionBroken connection) else none
  | .handle ok now => s.handleNext ok now
  | .sleep status =>
    let (returned, s') := s.sleepWakeUp status
    some { s' with
      ended := !returned
      toldToDie := if status = distKill then true
        else if status = distWakeUp then false else s.toldToDie }
  | .noLoadTimer =>
    match s.reporter.noLoadTimer with
    | none => none
    | some false => some s.die
    | some true => some { s with reporter := { s.reporter with noLoadTimer := some false } }
  | .loadNotificationTimer now =>
    if s.loadNotificationTimer then some { s with reporter := (s.reporter.report now).2 }
    else none
  | .remove which =>
    match s.consumer, s.workQueue.pop which with
    | .waiting, some (work, workQueue) =>
      some { s with consumer := .removed work, workQueue := workQueue }
    | _, _ => none
  | .check =>
    match s.consumer with
    | .removed work => some (s.consumerCheck work)
    | _ => none
  | .distillerMainTimer =>
    match s.consumer with
    | .distilling _ => some { s with ended := true }
    | _ => none
  | .rename =>
    match s.consumer with
    | .distilling _ => some (s.postEvent .evDistillerReregister)
    | _ => none
  | .distilled status =>
    match s.consumer with
    | .distilling work =>
      some ({ s with consumer := .waiting }.postEvent
        (.evDistillerReply { work with status := status }))
    | _ => none

/-- The state after an event.  Nothing happens any more once the event loop has ended. -/
def next (ntohl : UInt32 → UInt32) (s : Distiller) (e : Event) : Option Distiller :=
  if s.ended = true then none else s.act ntohl e

def step (ntohl : UInt32 → UInt32) (s : Distiller) (e : Event) (s' : Distiller) : Prop :=
  s.next ntohl e = some s'

lemma act_of_step {s s' : Distiller} (h : s.step ntohl e s') : s.act ntohl e = some s' := by
  unfold step next at h
  split_ifs at h
  exact h

/-- The condition under which the accounting is exact: when the consumer looks at a job, its
connection is there, and the order to die does not come while the distiller sleeps. -/
def Heard (s : Distiller) : Event → Prop
  | .check => ∀ work ∈ s.consumer.works, work.replyObject ∉ s.deleted
  | .sleep status => status = distKill → s.sleepStatus ≠ distSleep
  | _ => True

instance (s : Distiller) : ∀ e, Decidable (s.Heard e)
  | .check => inferInstanceAs (Decidable (∀ work ∈ s.consumer.works, work.replyObject ∉ s.deleted))
  | .sleep status => inferInstanceAs (Decidable (status = distKill → s.sleepStatus ≠ distSleep))
  | .connected _ | .job .. | .rejected _ | .broken _ | .handle .. | .noLoadTimer
  | .loadNotificationTimer _ | .remove _ | .distillerMainTimer | .rename | .distilled _ =>
    inferInstanceAs (Decidable True)

/-! ## The accounting -/

def bill (work : Work) : UInt32 × UInt32 := (work.address, work.cost)

def bills (s : Distiller) : List (UInt32 × UInt32) := s.outstanding.map bill

lemma bills_eq (s : Distiller) : s.bills = s.workQueue.entries.map bill ++
    (s.consumer.works.map bill ++ (s.eventQueue.filterMap Posted.work).map bill) := by
  simp [bills, outstanding]

structure Tallied (s : Distiller) : Prop where
  total : s.reporter.instTotalLatency_ms.toNat = (s.bills.map (·.2.toNat)).sum
  unit : ∀ b ∈ s.bills, b.2 = 1
  distinct : (s.bills.map Prod.fst).Nodup
  allocated : ∀ b ∈ s.bills, b.1 ≠ 0
  told : s.toldToDie = true → s.sleepStatus = distKill

/-- **The accounting**: the sum is right, and the distiller ends if it should. -/
structure Accounted (s : Distiller) : Prop extends s.Tallied where
  quits : s.sleepStatus = distKill → s.bills = [] → .evQuit ∈ s.eventQueue

variable {s s' : Distiller}

lemma length_lt_of_nodup {addresses : List UInt32} (hno : addresses.Nodup)
    (hne : ∀ a ∈ addresses, a ≠ 0) : addresses.length < 2 ^ 32 := by
  have hs : (addresses.map UInt32.toNat).toFinset ⊆ Finset.Ioo 0 (2 ^ 32) := by
    intro n hn
    obtain ⟨a, ha, rfl⟩ := mem_map.mp (mem_toFinset.mp hn)
    have hpos : a.toNat ≠ 0 := fun h => hne a ha (UInt32.toNat_inj.mp h)
    exact Finset.mem_Ioo.mpr ⟨Nat.pos_of_ne_zero hpos, a.toNat_lt⟩
  have hm : (addresses.map UInt32.toNat).Nodup := hno.map fun _ _ h => UInt32.toNat_inj.mp h
  have hc := Finset.card_le_card hs
  rw [toFinset_card_of_nodup hm, length_map, Nat.card_Ioo] at hc
  omega

lemma sum_eq_length {bills : List (UInt32 × UInt32)} (h : ∀ b ∈ bills, b.2 = 1) :
    (bills.map (·.2.toNat)).sum = bills.length := by
  have ho : bills.map (·.2.toNat) = replicate bills.length 1 := by
    refine eq_replicate_iff.mpr ⟨length_map _, fun n hn => ?_⟩
    obtain ⟨b, hb, rfl⟩ := mem_map.mp hn
    rw [h b hb]
    rfl
  rw [ho, sum_replicate, smul_eq_mul, Nat.mul_one]

namespace Tallied

section

variable (h : s.Tallied)

include h

lemma total_eq_length : s.reporter.instTotalLatency_ms.toNat = s.bills.length :=
  h.total.trans (sum_eq_length h.unit)

lemma eq_zero (hb : s.bills = []) : s.reporter.instTotalLatency_ms = 0 := by
  have ht := h.total_eq_length
  rw [hb] at ht
  exact UInt32.toNat_inj.mp ht

lemma of_perm (hp : s'.bills.Perm s.bills)
    (ht : s'.reporter.instTotalLatency_ms = s.reporter.instTotalLatency_ms)
    (hto : s'.toldToDie = true → s'.sleepStatus = distKill) : s'.Tallied where
  total := by rw [ht, h.total, (hp.map _).sum_eq]
  unit b hb := h.unit b (hp.mem_iff.mp hb)
  distinct := (hp.map Prod.fst).nodup_iff.mpr h.distinct
  allocated b hb := h.allocated b (hp.mem_iff.mp hb)
  told := hto

lemma newWork {address : UInt32} (hne : address ≠ 0)
    (hn : address ∉ s.bills.map Prod.fst) (hp : s'.bills.Perm ((address, 1) :: s.bills))
    (ht : s'.reporter.instTotalLatency_ms = s.reporter.instTotalLatency_ms + 1)
    (hto : s'.toldToDie = true → s'.sleepStatus = distKill) : s'.Tallied := by
  have hu : ∀ b ∈ (address, (1 : UInt32)) :: s.bills, b.2 = 1 := forall_mem_cons.mpr ⟨rfl, h.unit⟩
  have hd : (((address, (1 : UInt32)) :: s.bills).map Prod.fst).Nodup :=
    nodup_cons.mpr ⟨hn, h.distinct⟩
  have hal : ∀ b ∈ (address, (1 : UInt32)) :: s.bills, b.1 ≠ 0 :=
    forall_mem_cons.mpr ⟨hne, h.allocated⟩
  have hr : s.bills.length + 1 < 2 ^ 32 := by
    have hlt := length_lt_of_nodup hd fun a ha => by
      obtain ⟨b, hb, rfl⟩ := mem_map.mp ha
      exact hal b hb
    rwa [length_map] at hlt
  refine ⟨?_, fun b hb => hu b (hp.mem_iff.mp hb), (hp.map _).nodup_iff.mpr hd,
    fun b hb => hal b (hp.mem_iff.mp hb), hto⟩
  rw [(hp.map _).sum_eq, sum_eq_length hu, ht, UInt32.toNat_add, h.total_eq_length, length_cons]
  exact Nat.mod_eq_of_lt hr

lemma workDone {address : UInt32} {cost : UInt32} (hp : s.bills.Perm ((address, cost) :: s'.bills))
    (ht : s'.reporter.instTotalLatency_ms = s.reporter.instTotalLatency_ms - cost)
    (hto : s'.toldToDie = true → s'.sleepStatus = distKill) : s'.Tallied := by
  obtain rfl : cost = 1 := h.unit (address, cost) (hp.mem_iff.mpr (.head _))
  have hmem : ∀ b ∈ s'.bills, b ∈ s.bills := fun b hb =>
    hp.mem_iff.mpr (.tail _ hb)
  have hl := hp.length_eq
  have ho : (1 : UInt32) ≤ s.reporter.instTotalLatency_ms := by
    rw [UInt32.le_iff_toNat_le, h.total_eq_length, hl]
    exact Nat.le_add_left 1 _
  refine ⟨?_, fun b hb => h.unit b (hmem b hb), ((hp.map Prod.fst).nodup_iff.mp h.distinct).of_cons,
    fun b hb => h.allocated b (hmem b hb), hto⟩
  rw [sum_eq_length fun b hb => h.unit b (hmem b hb), ht, UInt32.toNat_sub_of_le _ _ ho,
    h.total_eq_length, hl, length_cons]
  exact Nat.add_sub_cancel _ 1

/-- **The last look**: whoever leaves no job behind posts the end. -/
theorem dieIfDone : s.dieIfDone.Accounted := by
  unfold Distiller.dieIfDone
  split_ifs with hd
  · have hb : s.die.bills = s.bills := by
      simp only [bills_eq, die, postEvent, filterMap_append]
      simp [Posted.work]
    exact ⟨h.of_perm (Perm.of_eq hb) rfl h.told, fun _ _ => mem_append_right _ (.head _)⟩
  · refine { h with quits := fun hk he => absurd ⟨hk, ?_⟩ hd }
    simp [LoadReporter.isThereWork, h.eq_zero he]

end

end Tallied

/-- **A step that moves the jobs that are left** keeps the accounting. -/
theorem Accounted.of_perm (h : s.Accounted) (hp : s'.bills.Perm s.bills)
    (ht : s'.reporter.instTotalLatency_ms = s.reporter.instTotalLatency_ms)
    (hto : s'.toldToDie = true → s'.sleepStatus = distKill)
    (hs : s'.sleepStatus = distKill → s.sleepStatus = distKill)
    (hq : .evQuit ∈ s.eventQueue → .evQuit ∈ s'.eventQueue) : s'.Accounted :=
  { h.toTallied.of_perm hp ht hto with
    quits := fun hk he =>
      hq (h.quits (hs hk) ((he ▸ hp).nil_eq.symm)) }

lemma Accounted.of_eq (h : s.Accounted) (hb : s'.bills = s.bills)
    (ht : s'.reporter.instTotalLatency_ms = s.reporter.instTotalLatency_ms)
    (hs : s'.sleepStatus = s.sleepStatus) (hto : s'.toldToDie = s.toldToDie)
    (hq : .evQuit ∈ s.eventQueue → .evQuit ∈ s'.eventQueue) : s'.Accounted :=
  h.of_perm (Perm.of_eq hb) ht (fun hd => hs.trans (h.told (hto ▸ hd))) (fun hk => hs ▸ hk) hq

lemma accounted_new (sleepOnStartup : Bool) (noLoadTimeout_sec : UInt32) (now : ℕ) :
    (new sleepOnStartup noLoadTimeout_sec now).Accounted := by
  have hb : (new sleepOnStartup noLoadTimeout_sec now).bills = [] := by
    simp [bills_eq, new, Consumer.works]
  refine ⟨⟨?_, ?_, ?_, ?_, nofun⟩, fun hk _ => ?_⟩
  · rw [hb]
    rfl
  · simp [hb]
  · simp [hb]
  · simp [hb]
  · cases sleepOnStartup with
    | false => exact absurd hk (show distWakeUp ≠ distKill by decide)
    | true => exact absurd hk (show distSleep ≠ distKill by decide)

/-! ## One step -/

namespace Accounted

section

variable (h : s.Accounted)

include h

lemma jobReceived (ntohl : UInt32 → UInt32) (hne : work.address ≠ 0)
    (hn : work.address ∉ s.bills.map Prod.fst) : (s.jobReceived ntohl work true now).Accounted := by
  have hp : (s.jobReceived ntohl work true now).bills.Perm ((work.address, 1) :: s.bills) := by
    rw [bills_eq, bills_eq, ← cons_append]
    exact ((Buckets.entries_pushBack _ _ _).map bill).append_right _
  refine ⟨h.toTallied.newWork hne hn hp rfl h.told, fun _ he => ?_⟩
  exact absurd (he ▸ hp).length_eq (by simp)

lemma handleReply {events : List Posted}
    (hq : s.eventQueue = .evDistillerReply work :: events) (written : Bool) (now : ℕ) :
    ({ s with eventQueue := events }.handleReply work written now).Accounted := by
  refine Tallied.dieIfDone ?_
  have hp : s.bills.Perm (bill work :: { s with eventQueue := events }.bills) := by
    simp only [bills_eq, hq, filterMap_cons, Posted.work, map_cons]
    refine .trans (Perm.append_left _ perm_middle) perm_middle
  split_ifs
  · exact h.toTallied.workDone hp rfl h.told
  · cases written with
    | true | false => exact h.toTallied.workDone hp rfl h.told

lemma handleNext (hn : s.handleNext ok now = some s') (hr : s'.ended = false) : s'.Accounted := by
  unfold Distiller.handleNext at hn
  split at hn
  next => exact nomatch hn
  next events hq =>
    cases hn
    exact nomatch hr
  next work events hq =>
    cases hn
    exact h.handleReply hq ok now
  next events hq =>
    cases hn
    refine h.of_eq ?_ rfl rfl rfl fun hqu => ?_
    · simp only [bills_eq, hq, filterMap_cons, Posted.work]
    · simpa [hq] using hqu

lemma sleepWakeUp {status : UInt32} {told : Bool} (ended : Bool)
    (hok : status = distKill → s.sleepStatus ≠ distSleep)
    (hki : status = distKill → told = true) (hw : status = distWakeUp → told = false)
    (he : status ≠ distKill → status ≠ distWakeUp → told = s.toldToDie) :
    { (s.sleepWakeUp status).2 with ended := ended, toldToDie := told }.Accounted := by
  unfold Distiller.sleepWakeUp
  split_ifs with hd hal hup haw
  · -- nothing changes: the distiller sleeps and is told to sleep, or is dying already
    refine h.of_perm (Perm.refl _) rfl (fun ht => ?_) id id
    rcases hd with rfl | rfl
    · exact h.told ((he (by decide) (by decide)).symm.trans ht)
    · exact hal.resolve_left (hok rfl)
  · have hn : s.toldToDie ≠ true := fun ht => hal (.inr (h.told ht))
    have hta : { s with
        loadNotificationTimer := false, sleepStatus := status, ended := ended, toldToDie := told
        }.Tallied := by
      refine h.toTallied.of_perm (Perm.refl _) rfl fun ht => ?_
      rcases hd with rfl | rfl
      · exact absurd ((he (by decide) (by decide)).symm.trans ht) hn
      · rfl
    have ha := hta.dieIfDone
    unfold dieIfDone at ha ⊢
    split_ifs at ha ⊢ with hdo
    · exact ha
    · exact ha
  · refine h.of_perm (Perm.refl _) rfl (fun ht => ?_) id id
    exact absurd ht (by simp [hw hup])
  · refine h.of_perm (Perm.refl _) rfl (fun ht => ?_) (fun hdi => ?_) id
    · exact absurd ht (by simp [hw hup])
    · exact absurd (hup.symm.trans hdi) (by decide)
  · refine h.of_perm (Perm.refl _) rfl (fun ht => ?_) id id
    exact h.told ((he (fun hk => hd (.inr hk)) hup).symm.trans ht)

lemma remove {which : Fin 3} {workQueue : LotteryQueue}
    (hw : s.consumer = .waiting) (hp : s.workQueue.pop which = some (work, workQueue)) :
    { s with consumer := .removed work, workQueue := workQueue }.Accounted := by
  refine h.of_perm ?_ rfl h.told id id
  simp only [bills_eq, hw, Consumer.works, map_cons, map_nil, nil_append, singleton_append]
  exact perm_middle.trans (((Buckets.entries_pop hp).symm.map bill).append_right _)

lemma distilled (hd : s.consumer = .distilling work) (status : DistillerStatus) :
    ({ s with consumer := .waiting }.postEvent
      (.evDistillerReply { work with status := status })).Accounted := by
  refine h.of_perm ?_ rfl h.told id (mem_append_left _)
  simp only [bills_eq, postEvent, hd, Consumer.works, filterMap_append, filterMap_cons,
    filterMap_nil, Posted.work, map_append, map_cons, map_nil, nil_append, singleton_append]
  exact Perm.append_left _ perm_append_comm

/-- **One step keeps the accounting**, as long as the event loop runs. -/
theorem step (hok : s.Heard e) (hs : s.step ntohl e s') (hr : s'.ended = false) : s'.Accounted := by
  replace hs := act_of_step hs
  unfold act at hs
  cases e with
  | connected | broken | loadNotificationTimer =>
    simp only at hs
    split_ifs at hs
    cases hs
    exact h.of_eq rfl rfl rfl rfl id
  | job connection address args replyID inserted now =>
    simp only at hs
    split_ifs at hs with hn
    cases hs
    cases inserted with
    | true =>
      refine h.jobReceived ntohl hn.2.1 ?_
      rw [bills, map_map]
      exact hn.2.2
    | false => exact nomatch hr
  | rejected fatal =>
    cases hs
    exact h.of_eq rfl rfl rfl rfl id
  | handle ok now => exact h.handleNext hs hr
  | sleep status =>
    cases hs
    refine h.sleepWakeUp _ hok (fun hki => if_pos hki) (fun hwk => ?_) fun hk hw => ?_
    · rw [if_neg (by rw [hwk]; decide), if_pos hwk]
    · rw [if_neg hk, if_neg hw]
  | noLoadTimer =>
    simp only at hs
    split at hs
    next => exact nomatch hs
    next =>
      cases hs
      refine h.of_eq ?_ rfl rfl rfl (mem_append_left _)
      simp [bills_eq, die, postEvent, Posted.work]
    next =>
      cases hs
      exact h.of_eq rfl rfl rfl rfl id
  | remove which =>
    simp only at hs
    split at hs
    next work workQueue hwa hp =>
      cases hs
      exact h.remove hwa hp
    next => exact nomatch hs
  | check =>
    simp only at hs
    split at hs
    next work hre =>
      have ht : work.replyObject ∉ s.deleted := hok work (by rw [hre]; exact mem_cons_self)
      cases hs
      unfold consumerCheck
      rw [if_neg ht]
      refine h.of_eq ?_ rfl rfl rfl id
      simp only [bills_eq, hre, Consumer.works]
    next => exact nomatch hs
  | distillerMainTimer =>
    simp only at hs
    split at hs
    next =>
      cases hs
      exact nomatch hr
    next => exact nomatch hs
  | rename =>
    simp only at hs
    split at hs
    next =>
      cases hs
      refine h.of_eq ?_ rfl rfl rfl (mem_append_left _)
      simp [bills_eq, postEvent, Posted.work]
    next => exact nomatch hs
  | distilled status =>
    simp only at hs
    split at hs
    next work hd =>
      cases hs
      exact h.distilled hd status
    next => exact nomatch hs

end

end Accounted

/-! ## The end -/

lemma prefix_dieIfDone (s : Distiller) : s.eventQueue <+: s.dieIfDone.eventQueue := by
  unfold dieIfDone
  split_ifs
  · exact prefix_append _ _
  · exact prefix_rfl

lemma prefix_sleepWakeUp (s : Distiller) (status : UInt32) :
    s.eventQueue <+: (s.sleepWakeUp status).2.eventQueue := by
  unfold sleepWakeUp
  split_ifs
  · exact prefix_rfl
  · exact prefix_dieIfDone { s with loadNotificationTimer := false, sleepStatus := status }
  all_goals exact prefix_rfl

lemma prefix_step (hs : s.step ntohl e s') (he : e.isHandle = false) :
    s.eventQueue <+: s'.eventQueue := by
  replace hs := act_of_step hs
  unfold act at hs
  cases e with
  | handle ok now => exact nomatch he
  | sleep status =>
    cases hs
    exact s.prefix_sleepWakeUp status
  | job connection address args replyID inserted now =>
    simp only at hs
    split_ifs at hs
    cases hs
    cases inserted <;> exact prefix_rfl
  | check =>
    simp only at hs
    split at hs
    next =>
      cases hs
      unfold consumerCheck
      split_ifs <;> exact prefix_rfl
    next => exact nomatch hs
  | noLoadTimer =>
    simp only at hs
    split at hs
    next => exact nomatch hs
    next =>
      cases hs
      exact prefix_append _ _
    next =>
      cases hs
      exact prefix_rfl
  | rename | distilled =>
    simp only at hs
    split at hs
    next =>
      cases hs
      exact prefix_append _ _
    next => exact nomatch hs
  | rejected =>
    cases hs
    exact prefix_rfl
  | connected | broken | loadNotificationTimer =>
    simp only at hs
    split_ifs at hs
    cases hs
    exact prefix_rfl
  | remove | distillerMainTimer =>
    simp only at hs
    split at hs
    next =>
      cases hs
      exact prefix_rfl
    next => exact nomatch hs

lemma handle_step (hs : s.step ntohl (.handle ok now) s') :
    ∃ event events, s.eventQueue = event :: events ∧
      (s'.ended = true ∨ event ≠ .evQuit ∧ events <+: s'.eventQueue) := by
  replace hs : s.handleNext ok now = some s' := act_of_step hs
  unfold handleNext at hs
  split at hs
  next => exact nomatch hs
  next events hq =>
    cases hs
    exact ⟨_, events, hq, .inl rfl⟩
  next work events hq =>
    cases hs
    refine ⟨_, events, hq, .inr ⟨nofun, ?_⟩⟩
    refine IsPrefix.trans ?_ (prefix_dieIfDone _)
    split_ifs
    · exact prefix_rfl
    · cases ok <;> exact prefix_rfl
  next events hq =>
    cases hs
    exact ⟨_, events, hq, .inr ⟨nofun, prefix_rfl⟩⟩

/-- **The distiller ends**: by handling the events that are waiting, and in every run that gets that
far. -/
structure Exits (ntohl : UInt32 → UInt32) (s : Distiller) : Prop where
  possible : ∃ es s', (∀ e ∈ es, e.isHandle = true) ∧ Run (step ntohl) s es s' ∧ s'.ended = true
  certain : ∀ es s', Run (step ntohl) s es s' →
    s.eventQueue.length ≤ es.countP Event.isHandle → s'.ended = true

lemma handle_take (hs : s.step ntohl (.handle ok now) s')
    (hq : .evQuit ∈ s.eventQueue.take (k + 1)) :
    s'.ended = true ∨ .evQuit ∈ s'.eventQueue.take k := by
  obtain ⟨event, events, hqu, he | ⟨hne, hp⟩⟩ := handle_step hs
  · exact .inl he
  · rw [hqu, take_succ_cons, mem_cons] at hq
    exact .inr ((hp.take k).subset (hq.resolve_left hne.symm))

lemma exists_handle_step (ntohl : UInt32 → UInt32) (he : s.ended = false)
    (hq : s.eventQueue ≠ []) : ∃ s', s.step ntohl (.handle true 0) s' := by
  obtain ⟨event, events, hc⟩ := exists_cons_of_ne_nil hq
  have hs : (s.handleNext true 0).isSome := by
    unfold handleNext
    rw [hc]
    cases event <;> rfl
  obtain ⟨s', hs'⟩ := Option.isSome_iff_exists.mp hs
  exact ⟨s', by rw [step, next, if_neg (by simp [he])]; exact hs'⟩

lemma ended_of_run {es : List Event} (h : Run (step ntohl) s es s')
    (hq : s.ended = true ∨ .evQuit ∈ s.eventQueue.take k) (hk : k ≤ es.countP Event.isHandle) :
    s'.ended = true := by
  induction h generalizing k with
  | nil s =>
    rcases hq with hen | hq
    · exact hen
    · rw [Nat.le_zero.mp hk] at hq
      exact nomatch hq
  | @cons s s1 s' e es hs hrun ih =>
    rcases hq with hen | hq
    · -- nothing follows the end
      unfold step next at hs
      rw [if_pos hen] at hs
      exact nomatch hs
    · cases he : e.isHandle with
      | false =>
        rw [countP_cons_of_neg (by simp [he])] at hk
        exact ih (.inr (((prefix_step hs he).take k).subset hq)) hk
      | true =>
        obtain ⟨ok, now, rfl⟩ : ∃ ok now, e = .handle ok now := by
          cases e <;> first | exact ⟨_, _, rfl⟩ | exact nomatch he
        rw [countP_cons_of_pos he] at hk
        cases k with
        | zero => exact nomatch hq
        | succ k => exact ih (handle_take hs hq) (Nat.le_of_succ_le_succ hk)

lemma exists_run_ended (hq : s.ended = true ∨ .evQuit ∈ s.eventQueue.take k) :
    ∃ es s', (∀ e ∈ es, e.isHandle = true) ∧ Run (step ntohl) s es s' ∧ s'.ended = true := by
  induction k generalizing s with
  | zero =>
    rcases hq with he | hq
    · exact ⟨[], s, nofun, .nil s, he⟩
    · exact nomatch hq
  | succ k ih =>
    cases he : s.ended with
    | true => exact ⟨[], s, nofun, .nil s, he⟩
    | false =>
      replace hq := hq.resolve_left (by simp [he])
      obtain ⟨s1, hs⟩ := exists_handle_step ntohl he fun hn => by simp [hn] at hq
      obtain ⟨es, s', hh, hrun, hs'⟩ := ih (handle_take hs hq)
      exact ⟨_, s', forall_mem_cons.mpr ⟨rfl, hh⟩, .cons hs hrun, hs'⟩

lemma exits_of_mem (hq : .evQuit ∈ s.eventQueue) : s.Exits ntohl where
  possible := exists_run_ended (k := s.eventQueue.length) (.inr (by rwa [take_length]))
  certain es s' hrun := ended_of_run hrun (.inr (by rwa [take_length]))

/-- **The load of a distiller.**  In every run whose events are `Heard`, the sum of the load
reporter is that of the costs of the jobs that were received and not yet answered, as long as the
event loop runs.  It is zero when there is none, and a distiller that was told to die then ends. -/
theorem load_of_run {ntohl : UInt32 → UInt32} {sleepOnStartup : Bool} {noLoadTimeout_sec : UInt32}
    {now : ℕ} {es : List Event}
    (h : Run (Guarded Heard (step ntohl)) (new sleepOnStartup noLoadTimeout_sec now) es s)
    (hrunning : s.ended = false) :
    s.reporter.instTotalLatency_ms.toNat = (s.outstanding.map (·.cost.toNat)).sum ∧
      (s.outstanding = [] → s.reporter.instTotalLatency_ms = 0) ∧
      (s.toldToDie = true → s.outstanding = [] → s.Exits ntohl) := by
  have hi : s.ended = false → s.Accounted := by
    refine h.invariant (I := fun s => s.ended = false → s.Accounted) ?_ fun _ => accounted_new _ _ _
    intro s e s' hs hst hr'
    refine (hs ?_).step hst.1 hst.2 hr'
    cases hen : s.ended with
    | false => rfl
    | true => exact absurd hst.2 (by simp [step, next, hen])
  have ha := hi hrunning
  refine ⟨?_, fun he => ?_, fun ht he => ?_⟩
  · rw [ha.total, bills, map_map]
    rfl
  · exact ha.eq_zero (map_eq_nil_iff.mpr he)
  · exact exits_of_mem (ha.quits (ha.told ht) (map_eq_nil_iff.mpr he))

/-- A job comes in and is answered; another is on the queue when the order to die comes, and its
answer is the last thing the distiller does. -/
theorem load_of_run_sample : ∃ s es,
    Run (Guarded Heard (step id)) (new false 0 0) es s ∧ s.toldToDie = true ∧
      s.reporter.instTotalLatency_ms.toNat = (s.outstanding.map (·.cost.toNat)).sum ∧
      s.Exits id := by
  have hre : (replay Heard (next id) (new false 0 0)
      [.connected 0, .job 0 8 [] 1 true 5, .remove 2, .check, .job 0 16 [⟨10, 0⟩] 2 true 6,
        .distilled .distOk, .handle true 9, .sleep 1, .remove 2, .check, .distilled .distOk,
        .handle true 12]).any
      (fun s => s.ended = false ∧ s.toldToDie = true ∧ s.outstanding = []) = true := by
    decide +kernel
  obtain ⟨s, hrun, hr, ht, hem⟩ := exists_guarded_of_decide hre
  obtain ⟨hto, -, he⟩ := load_of_run hrun hr
  exact ⟨s, _, hrun, ht, hto, he ht hem⟩

/-- A job whose front end goes away while it is queued: the consumer drops it, its cost stays in the
sum, and the order to die has no effect.  And a distiller that sleeps does not hear the order. -/
theorem dropped_stays_counted :
    (∃ s es, Run (step id) (new false 0 0) es s ∧ s.ended = false ∧ s.outstanding = [] ∧
      s.reporter.instTotalLatency_ms = 1 ∧ s.toldToDie = true ∧ s.eventQueue = []) ∧
    ∃ s es, Run (step id) (new true 0 0) es s ∧ s.ended = false ∧ s.outstanding = [] ∧
      s.reporter.instTotalLatency_ms = 0 ∧ s.toldToDie = true ∧ s.eventQueue = [] := by
  refine ⟨(exists_run_of_decide (by decide +kernel)).imp fun s h => ⟨[.connected 0,
    .job 0 8 [] 1 true 5, .broken 0, .remove 2, .check, .sleep 1], h⟩, ?_⟩
  exact (exists_run_of_decide (by decide +kernel)).imp fun s h => ⟨[.sleep 1], h⟩

end Distiller

end Glomop.Dist
