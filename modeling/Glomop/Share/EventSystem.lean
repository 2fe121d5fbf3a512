import Glomop.Lib.Run

/-!
# The event system

`EventSystem::GetEvent` takes the next event off a queue and, when the queue is empty, fills it by a
`select`.  The thread that runs the loop holds the mutex except while it is blocked in `select`.

An object that is removed may still be named by an event on the queue (`removedHandler_dispatched`).
Source: `eventhan.h`, `eventhan.cc`.
-/

namespace Glomop.Share

open Lib List Option

/-! ## Objects and events -/

/-- The types of events. -/
inductive EventType
  | evSelect
  | evConnectionReceived
  | evTimer
  | evReplyReceived
  | evQuit
  | evUserDefinedEvent (n : ℕ)
deriving DecidableEq

inductive Handler
  | timer (n : ℕ)
  | communicationObject (n : ℕ)
  | other (n : ℕ)
deriving DecidableEq

structure Event where
  type : EventType
  handler : Option Handler
  args : ℕ
deriving DecidableEq

/-- A timer; times are in microseconds.  `class gm_Timer`. -/
structure Timer where
  number : ℕ
  timeoutInterval : ℤ
  nextTimeout : ℤ
  repeatMode : Bool
deriving DecidableEq

/-- A communication object and its file descriptor.
`communication.h`. -/
structure CommunicationObject where
  number : ℕ
  id : ℕ
deriving DecidableEq

def Timer.incrementTimeout (t : Timer) : Timer :=
  { t with nextTimeout := t.nextTimeout + t.timeoutInterval }

inductive Control
  /-- Not in `GetEvent`: in a handler, or before the loop. -/
  | outside
  /-- At the top of the loop of `GetEvent`, with the mutex. -/
  | looking
  /-- In `select`, without the mutex.  `timerObject` was at the head of the timer queue, and `due`
  says that its time had come, in which case there is no `select`; `readFileDescrs` are the
  descriptors that are waited for. -/
  | selecting (timerObject : Option ℕ) (due : Bool) (readFileDescrs : List ℕ)
  /-- `Run` has returned. -/
  | ended
deriving DecidableEq

/-- The event system.  `class EventSystem`, with `CommunicationInfo` and `TimerInfo`. -/
structure EventSystem where
  control : Control
  eventQueue : List Event
  objectList : List CommunicationObject
  /-- The descriptors that are set in `ci.descrs`. -/
  descrs : List ℕ
  maxDescr : ℕ
  /-- `ti.queue`. -/
  timers : List Timer
  removed : List Handler

namespace EventSystem

/-- `EventSystem::EventSystem`. -/
def new : EventSystem := ⟨.outside, [], [], [], 0, [], []⟩

/-! ## Adding, removing, posting -/

/-- The timers that are due before `t` stay in front of it.  `EventSystem::TimerInfo::Add`,
`gm_Timer::Compare`. -/
def insertTimer (t : Timer) (timers : List Timer) : List Timer :=
  timers.takeWhile (·.nextTimeout < t.nextTimeout) ++
    t :: timers.dropWhile (·.nextTimeout < t.nextTimeout)

def highest (objects : List CommunicationObject) : ℕ :=
  objects.foldl (fun highest object => if object.id ≥ highest then object.id + 1 else highest) 0

inductive Action
  | addTimer (t : Timer)
  | removeTimer (number : ℕ)
  | addCommunicationObject (object : CommunicationObject)
  | removeCommunicationObject (object : CommunicationObject)
  | postEvent (event : Event)

/-- `EventSystem::AddTimer`, `RemoveTimer`, `AddCommunicationObject`, `RemoveCommunicationObject`,
`PostEvent`, `CommunicationInfo::Add` and `CommunicationInfo::Remove`. -/
def act (s : EventSystem) : Action → EventSystem
  | .addTimer t =>
    { s with
      timers := insertTimer t s.timers
      removed := s.removed.filter (· ≠ .timer t.number) }
  | .removeTimer number =>
    { s with
      timers := s.timers.eraseP (·.number = number)
      removed := .timer number :: s.removed }
  | .addCommunicationObject object =>
    { s with
      objectList := object :: s.objectList
      descrs := object.id :: s.descrs
      maxDescr := if object.id ≥ s.maxDescr then object.id + 1 else s.maxDescr
      removed := s.removed.filter (· ≠ .communicationObject object.number) }
  | .removeCommunicationObject object =>
    let objectList := s.objectList.eraseP (·.number = object.number)
    { s with
      objectList := objectList
      descrs := s.descrs.filter (· ≠ object.id)
      maxDescr := if object.id + 1 ≥ s.maxDescr then highest objectList else s.maxDescr
      removed := .communicationObject object.number :: s.removed }
  | .postEvent event => { s with eventQueue := s.eventQueue ++ [event] }

/-- How a `select` ends. -/
inductive SelectOutcome
  | ready (descriptors : List ℕ)
  | timeout
  /-- `EBADF` or `EINTR`. -/
  | interrupted
  | failed

inductive Input
  | act (a : Action)
  /-- `GetEvent` is called. -/
  | call
  /-- `GetEvent` goes to `select`, at a time. -/
  | block (now : ℤ)
  | wake (outcome : SelectOutcome)
  /-- `GetEvent` returns the event at the head of the queue. -/
  | take
  /-- The handler returns `gm_False`. -/
  | stop

/-- The `select` timed out: the timer at the head of the queue has an event, unless another one is
there now.  `EventSystem::GetEvent`. -/
def expire (s : EventSystem) (timerObject : ℕ) : EventSystem :=
  match s.timers with
  | [] => s
  | t :: timers =>
    if t.number ≠ timerObject then s
    else
      { s with
        eventQueue := s.eventQueue ++ [⟨.evTimer, some (.timer t.number), 0⟩]
        timers := if t.repeatMode then insertTimer t.incrementTimeout timers else timers }

/-- The objects whose descriptors are ready have events.  `EventSystem::GetEvent`. -/
def queueReady (s : EventSystem) (ready : List ℕ) : EventSystem :=
  { s with
    eventQueue := s.eventQueue ++ (s.objectList.filter (·.id ∈ ready)).map fun object =>
      ⟨.evSelect, some (.communicationObject object.number), 0⟩ }

/-- The event that `GetEvent` would return now.  `EventSystem::GetEvent`. -/
def returned (s : EventSystem) : Option Event :=
  if s.control = .looking then s.eventQueue.head? else none

/-- One step of the event system; `none` where it is not possible.  `EventSystem::GetEvent`,
`EventSystem::Run`. -/
def next (s : EventSystem) : Input → Option EventSystem
  | .act a =>
    match s.control with
    | .outside | .selecting _ _ _ => some (s.act a)
    | .looking | .ended => none
  | .call => if s.control = .outside then some { s with control := .looking } else none
  | .block now =>
    if s.control = .looking ∧ s.eventQueue = [] then
      let timerObject := s.timers.head?.map (·.number)
      let due := s.timers.head?.any (·.nextTimeout ≤ now)
      some { s with control := .selecting timerObject due (s.descrs.filter (· < s.maxDescr)) }
    else none
  | .wake outcome =>
    match s.control, outcome with
    | .selecting (some timerObject) _ _, .timeout =>
      some { s.expire timerObject with control := .looking }
    | .selecting _ false readFileDescrs, .ready descriptors =>
      some { s.queueReady (descriptors.filter (· ∈ readFileDescrs)) with control := .looking }
    | .selecting _ false _, .interrupted => some { s with control := .looking }
    | .selecting _ false _, .failed => some { s with control := .ended }
    | _, _ => none
  | .take =>
    match s.returned with
    | none => none
    | some event =>
      -- an event without a handler is dropped, and the loop goes on
      some { s with
        eventQueue := s.eventQueue.tail
        control := if event.type = .evQuit then .ended else .outside }
  | .stop => if s.control = .outside then some { s with control := .ended } else none

def step (s : EventSystem) (i : Input) (s' : EventSystem) : Prop := s.next i = some s'

/-- No object is removed while an event for it is queued, none is added that is there already, and
no event is posted to an object that was removed. -/
def Orderly (s : EventSystem) : Input → Prop
  | .act (.removeTimer number) => ∀ e ∈ s.eventQueue, e.handler ≠ some (.timer number)
  | .act (.removeCommunicationObject object) =>
    ∀ e ∈ s.eventQueue, e.handler ≠ some (.communicationObject object.number)
  | .act (.addTimer t) => ∀ t' ∈ s.timers, t'.number ≠ t.number
  | .act (.addCommunicationObject object) => ∀ o ∈ s.objectList, o.number ≠ object.number
  | .act (.postEvent event) => ∀ h ∈ event.handler, h ∉ s.removed
  | .call | .block _ | .wake _ | .take | .stop => True

instance (s : EventSystem) : ∀ i, Decidable (s.Orderly i)
  | .act (.removeTimer number) =>
    inferInstanceAs (Decidable (∀ e ∈ s.eventQueue, e.handler ≠ some (.timer number)))
  | .act (.removeCommunicationObject object) => inferInstanceAs
      (Decidable (∀ e ∈ s.eventQueue, e.handler ≠ some (.communicationObject object.number)))
  | .act (.addTimer t) => inferInstanceAs (Decidable (∀ t' ∈ s.timers, t'.number ≠ t.number))
  | .act (.addCommunicationObject object) =>
    inferInstanceAs (Decidable (∀ o ∈ s.objectList, o.number ≠ object.number))
  | .act (.postEvent event) => inferInstanceAs (Decidable (∀ h ∈ event.handler, h ∉ s.removed))
  | .call | .block _ | .wake _ | .take | .stop => inferInstanceAs (Decidable True)

/-! ## What is queued exists -/

structure Current (s : EventSystem) : Prop where
  queue : ∀ e ∈ s.eventQueue, ∀ h ∈ e.handler, h ∉ s.removed
  timers : ∀ t ∈ s.timers, .timer t.number ∉ s.removed
  objects : ∀ o ∈ s.objectList, .communicationObject o.number ∉ s.removed
  timers_nodup : (s.timers.map Timer.number).Nodup
  objects_nodup : (s.objectList.map CommunicationObject.number).Nodup

lemma insertTimer_perm (t : Timer) (timers : List Timer) :
    (insertTimer t timers).Perm (t :: timers) := by
  unfold insertTimer
  refine perm_middle.trans (Perm.cons t ?_)
  rw [takeWhile_append_dropWhile]

lemma ne_of_mem_eraseP {α : Type} {f : α → ℕ} {n : ℕ} {a : α} {as : List α}
    (hn : (as.map f).Nodup) (ha : a ∈ as.eraseP (f · = n)) : f a ≠ n := by
  induction as with
  | nil => cases ha
  | cons b bs ih =>
    rw [map_cons, nodup_cons] at hn
    by_cases hb : f b = n
    · rw [eraseP_cons_of_pos (by simpa using hb)] at ha
      rintro rfl
      exact hn.1 (hb ▸ mem_map_of_mem ha)
    · rw [eraseP_cons_of_neg (by simpa using hb)] at ha
      rcases mem_cons.mp ha with rfl | ha
      · exact hb
      · exact ih hn.2 ha

namespace Current

variable {s s' : EventSystem}

lemma new : Current new := ⟨nofun, nofun, nofun, nodup_nil, nodup_nil⟩

section

variable (h : s.Current)

include h

lemma control (c : Control) : Current { s with control := c } :=
  ⟨h.queue, h.timers, h.objects, h.timers_nodup, h.objects_nodup⟩

lemma enqueue {events : List Event} (hev : ∀ e ∈ events, ∀ h ∈ e.handler, h ∉ s.removed) :
    Current { s with eventQueue := s.eventQueue ++ events } := by
  refine ⟨fun e he => ?_, h.timers, h.objects, h.timers_nodup, h.objects_nodup⟩
  rcases mem_append.mp he with he | he
  · exact h.queue e he
  · exact hev e he

lemma act {a : Action} (hok : s.Orderly (.act a)) : Current (s.act a) := by
  have hw : ∀ {x y : Handler}, y ∉ s.removed → y ∉ s.removed.filter (· ≠ x) :=
    fun hy hmem => hy (mem_of_mem_filter hmem)
  cases a with
  | addTimer t =>
    have hp := insertTimer_perm t s.timers
    refine ⟨fun e he x hx => hw (h.queue e he x hx), fun t' ht' => ?_,
      fun o ho => hw (h.objects o ho), ?_, h.objects_nodup⟩
    · rcases mem_cons.mp (hp.mem_iff.mp ht') with rfl | ht'
      · simp [EventSystem.act]
      · exact hw (h.timers t' ht')
    · refine ((hp.map Timer.number).nodup_iff).mpr (nodup_cons.mpr ⟨?_, h.timers_nodup⟩)
      intro hmem
      obtain ⟨t', ht', heq⟩ := mem_map.mp hmem
      exact hok t' ht' heq
  | removeTimer number =>
    refine ⟨fun e he x hx hmem => ?_, fun t ht hmem => ?_, fun o ho hmem => ?_,
      h.timers_nodup.sublist (eraseP_sublist.map _), h.objects_nodup⟩
    · rcases mem_cons.mp hmem with rfl | hmem
      · exact hok e he hx
      · exact h.queue e he x hx hmem
    · rcases mem_cons.mp hmem with heq | hmem
      · exact ne_of_mem_eraseP h.timers_nodup ht (Handler.timer.inj heq)
      · exact h.timers t (mem_of_mem_eraseP ht) hmem
    · rcases mem_cons.mp hmem with heq | hmem
      · cases heq
      · exact h.objects o ho hmem
  | addCommunicationObject object =>
    refine ⟨fun e he x hx => hw (h.queue e he x hx), fun t ht => hw (h.timers t ht),
      fun o ho => ?_, h.timers_nodup, ?_⟩
    · rcases mem_cons.mp ho with rfl | ho
      · simp [EventSystem.act]
      · exact hw (h.objects o ho)
    · refine nodup_cons.mpr ⟨fun hmem => ?_, h.objects_nodup⟩
      obtain ⟨o, ho, heq⟩ := mem_map.mp hmem
      exact hok o ho heq
  | removeCommunicationObject object =>
    refine ⟨fun e he x hx hmem => ?_, fun t ht hmem => ?_, fun o ho hmem => ?_,
      h.timers_nodup, h.objects_nodup.sublist (eraseP_sublist.map _)⟩
    · rcases mem_cons.mp hmem with rfl | hmem
      · exact hok e he hx
      · exact h.queue e he x hx hmem
    · rcases mem_cons.mp hmem with heq | hmem
      · cases heq
      · exact h.timers t ht hmem
    · rcases mem_cons.mp hmem with heq | hmem
      · exact ne_of_mem_eraseP h.objects_nodup ho (Handler.communicationObject.inj heq)
      · exact h.objects o (mem_of_mem_eraseP ho) hmem
  | postEvent event =>
    refine h.enqueue fun e he => ?_
    rw [mem_singleton.mp he]
    exact hok

lemma replaceTimers {timers : List Timer}
    (hold : ∀ t ∈ timers, t.number ∈ s.timers.map Timer.number)
    (hn : (timers.map Timer.number).Nodup) : Current { s with timers := timers } := by
  refine ⟨h.queue, fun t ht => ?_, h.objects, hn, h.objects_nodup⟩
  obtain ⟨t', ht', heq⟩ := mem_map.mp (hold t ht)
  rw [← heq]
  exact h.timers t' ht'

lemma expire (timerObject : ℕ) : Current (s.expire timerObject) := by
  unfold EventSystem.expire
  split
  · exact h
  · rename_i t timers ht
    have hl : .timer t.number ∉ s.removed := by
      refine h.timers t ?_
      rw [ht]
      exact .head _
    have hev : ∀ e ∈ [(⟨.evTimer, some (.timer t.number), 0⟩ : Event)],
        ∀ x ∈ e.handler, x ∉ s.removed := by
      intro e he
      rw [mem_singleton.mp he]
      rintro x ⟨rfl⟩
      exact hl
    have hq := h.enqueue hev
    have hn := h.timers_nodup
    rw [ht, map_cons] at hn
    split_ifs
    · exact h
    · have hp := (insertTimer_perm t.incrementTimeout timers).map Timer.number
      refine hq.replaceTimers (fun t' ht' => ?_) (hp.nodup_iff.mpr hn)
      rw [ht]
      exact hp.mem_iff.mp (mem_map_of_mem ht')
    · refine hq.replaceTimers (fun t' ht' => ?_) (nodup_cons.mp hn).2
      rw [ht]
      exact .tail _ (mem_map_of_mem ht')

lemma queueReady (ready : List ℕ) : Current (s.queueReady ready) := by
  refine h.enqueue fun e he => ?_
  obtain ⟨o, ho, rfl⟩ := mem_map.mp he
  rintro x ⟨rfl⟩
  exact h.objects o (mem_of_mem_filter ho)

/-- **An orderly step keeps the event system current.** -/
theorem step {i : Input} (hok : s.Orderly i) (hs : s.step i s') : s'.Current := by
  unfold EventSystem.step at hs
  cases i with
  | act a =>
    simp only [next] at hs
    split at hs
    · exact some.inj hs ▸ h.act hok
    · exact some.inj hs ▸ h.act hok
    · cases hs
    · cases hs
  | call | block | stop =>
    simp only [next] at hs
    split_ifs at hs
    exact some.inj hs ▸ h.control _
  | wake outcome =>
    simp only [next] at hs
    split at hs
    · exact some.inj hs ▸ (h.expire _).control _
    · exact some.inj hs ▸ (h.queueReady _).control _
    · exact some.inj hs ▸ h.control _
    · exact some.inj hs ▸ h.control _
    · cases hs
  | take =>
    simp only [next] at hs
    split at hs
    · cases hs
    · cases hs
      exact ⟨fun e he => h.queue e (mem_of_mem_tail he), h.timers, h.objects,
        h.timers_nodup, h.objects_nodup⟩

end

end Current

/-- **No event that `GetEvent` returns names an object that was removed**, in any run in which
nothing is removed while an event for it is queued. -/
theorem returned_not_removed {s : EventSystem} {inputs : List Input}
    (h : Run (Guarded Orderly step) new inputs s) {e : Event} (he : s.returned = some e) :
    ∀ x ∈ e.handler, x ∉ s.removed := by
  have hc : s.Current := h.invariant (fun _ _ _ hs hst => hs.step hst.1 hst.2) Current.new
  unfold returned at he
  split_ifs at he
  exact hc.queue e (mem_of_mem_head? he)

/-- Two objects are found ready by one `select`, and the event of the second is handled. -/
def twoReady : List Input :=
  [.act (.addCommunicationObject ⟨1, 4⟩), .act (.addCommunicationObject ⟨2, 5⟩), .call, .block 0,
    .wake (.ready [4, 5]), .take]

/-- Its handler removes its own object: the event that comes next is for the first one. -/
theorem returned_not_removed_twoReady :
    ∃ s e, Run (Guarded Orderly step) new
        (twoReady ++ [.act (.removeCommunicationObject ⟨2, 5⟩), .call]) s ∧
      s.returned = some e ∧ e.handler = some (.communicationObject 1) ∧
      ∀ x ∈ e.handler, x ∉ s.removed := by
  exact (exists_guarded_of_decide (p := fun s : EventSystem =>
    s.returned = some ⟨.evSelect, some (.communicationObject 1), 0⟩) (by decide +kernel)).imp
    fun s h => ⟨_, h.1, h.2, rfl, returned_not_removed h.1 h.2⟩

/-- Its handler removes the other object: the event that comes next is for that one. -/
theorem removedHandler_dispatched :
    ∃ s e, Run step new (twoReady ++ [.act (.removeCommunicationObject ⟨1, 4⟩), .call]) s ∧
      s.returned = some e ∧ ∃ x ∈ e.handler, x ∈ s.removed := by
  exact (exists_run_of_decide (p := fun s : EventSystem =>
    s.returned = some ⟨.evSelect, some (.communicationObject 1), 0⟩ ∧
      .communicationObject 1 ∈ s.removed) (by decide +kernel)).imp fun s h =>
    ⟨_, h.1, h.2.1, _, rfl, h.2.2⟩

end EventSystem

end Glomop.Share
