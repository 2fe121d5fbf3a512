import Glomop.Share.EventSystem

/-!
# Waking up the event loop

Other threads wake up the event loop through a pipe, which its `select` also waits for.  This file
adds to the event system the flag, the pipe and the threads that wait in `Notify`.
Source: `eventhan.h`, `eventhan.cc`.
-/

namespace Glomop.Share

open Lib EventSystem List Option

/-- A thread other than the one of the loop: outside the event system, waiting in `Notify`, or woken
up there. -/
inductive Notifier
  | idle
  | waiting
  | woken
deriving DecidableEq

/-- How `select` ended, and whether the pipe was among the descriptors that were ready. -/
structure Selected where
  outcome : SelectOutcome
  pipeReady : Bool

/-- The event system with its notifications.  `selected` is what a `select` has returned, before the
loop has the mutex again.  The last four fields are logs: the event system as the loop last went to
`select`, what has been done to it since, the events that were queued, and those that were given to
a handler.  `class EventSystem`. -/
structure Notifying where
  sys : EventSystem
  blockedOnSelect : Bool
  pipe : ℕ
  selected : Option Selected
  notifiers : ℕ → Notifier
  sampled : EventSystem
  since : List Action
  queued : List Event
  handled : List Event

open Notifying

namespace Notifying

/-- `EventSystem::EventSystem`. -/
def new : Notifying where
  sys := .new
  blockedOnSelect := false
  pipe := 0
  selected := none
  notifiers := fun _ => .idle
  sampled := .new
  since := []
  queued := []
  handled := []

def newEvents (sys sys' : EventSystem) : List Event := sys'.eventQueue.drop sys.eventQueue.length

/-- An operation of a thread, up to where it releases the mutex: at its end or in the wait of
`Notify`.  The loop's own thread, which has no number, operates from its handlers.
`EventSystem::PostEvent`, `PostEventNoMutex`, `AddTimer`, `RemoveTimer`, `AddCommunicationObject`,
`RemoveCommunicationObject`, `Notify`. -/
def operate (s : Notifying) (thread : Option ℕ) (a : Action) : Option Notifying :=
  (s.sys.next (.act a)).map fun sys =>
    { s with
      sys := sys
      pipe := if s.blockedOnSelect then s.pipe + 256 else s.pipe
      notifiers :=
        match thread with
        | some t =>
          if s.blockedOnSelect then Function.update s.notifiers t .waiting else s.notifiers
        | none => s.notifiers
      since := s.since ++ [a]
      queued := s.queued ++ newEvents s.sys sys }

/-- The loop has the mutex after a `select`.  `EventSystem::GetEvent`. -/
def relock (s : Notifying) (selected : Selected) : Option Notifying :=
  (s.sys.next (.wake selected.outcome)).map fun sys =>
    { s with
      sys := sys
      blockedOnSelect := false
      notifiers := fun t => if s.notifiers t = .waiting then .woken else s.notifiers t
      pipe := if selected.pipeReady then s.pipe - 256 else s.pipe
      selected := none
      queued := s.queued ++ newEvents s.sys sys }

/-- `Run` gives an event to its handler, if it has one and is not the last one. -/
def dispatches (e : Event) : Bool := e.type ≠ .evQuit && e.handler.isSome

inductive Occurrence
  | operate (thread : Option ℕ) (a : Action)
  /-- `GetEvent` is called. -/
  | call
  /-- `GetEvent` goes to `select`, at a time. -/
  | block (now : ℤ)
  /-- `select` returns, or is passed over. -/
  | selectReturns (selected : Selected)
  | relock
  /-- `GetEvent` returns the event at the head of the queue, and `Run` calls its handler. -/
  | take
  /-- The handler returns `gm_False`. -/
  | stop
  /-- A thread that was woken up in `Notify` has the mutex again, and leaves. -/
  | leave (t : ℕ)
  /-- A thread in `Notify` wakes up without a broadcast. -/
  | spurious (t : ℕ)

def isReady : SelectOutcome → Bool
  | .ready _ => true
  | _ => false

/-- The loop has looked at the event system and not taken the mutex again. -/
def inSelect : Control → Bool
  | .selecting _ _ _ => true
  | _ => false

/-- One step; `none` where it is not possible.  `EventSystem::GetEvent`, `EventSystem::Run`,
`EventSystem::Notify`. -/
def next (s : Notifying) : Occurrence → Option Notifying
  | .operate none a => if s.sys.control = .outside then s.operate none a else none
  | .operate (some t) a => if s.notifiers t = .idle then s.operate (some t) a else none
  | .call => (s.sys.next .call).map fun sys => { s with sys := sys }
  | .block now =>
    (s.sys.next (.block now)).map fun sys =>
      { s with sys := sys, blockedOnSelect := true, sampled := sys, since := [] }
  | .selectReturns selected =>
    if inSelect s.sys.control ∧ s.selected.isNone ∧
        (selected.pipeReady → isReady selected.outcome ∧ 0 < s.pipe) then
      some { s with selected := some selected }
    else none
  | .relock => s.selected.bind s.relock
  | .take =>
    (s.sys.next .take).map fun sys =>
      { s with
        sys := sys
        handled := s.handled ++ (s.sys.eventQueue.head?.toList.filter dispatches) }
  | .stop => (s.sys.next .stop).map fun sys => { s with sys := sys }
  | .leave t =>
    if s.notifiers t = .woken ∧ s.sys.control ≠ .looking then
      some { s with notifiers := Function.update s.notifiers t .idle }
    else none
  | .spurious t =>
    if s.notifiers t = .waiting then
      some { s with notifiers := Function.update s.notifiers t .woken }
    else none

def step (s : Notifying) (o : Occurrence) (s' : Notifying) : Prop := s.next o = some s'

/-! ## What the steps of the event system do to its queue -/

section Queue

variable {sys sys' : EventSystem}

lemma next_act {a : Action} (h : sys.next (.act a) = some sys') :
    sys'.control = sys.control ∧ ∃ new, sys'.eventQueue = sys.eventQueue ++ new := by
  have ha : sys' = sys.act a := by
    simp only [EventSystem.next] at h
    split at h
    · exact (some.inj h).symm
    · exact (some.inj h).symm
    · cases h
    · cases h
  subst ha
  cases a with
  | postEvent event => exact ⟨rfl, [event], rfl⟩
  | addTimer | removeTimer | addCommunicationObject => exact ⟨rfl, [], (append_nil _).symm⟩
  | removeCommunicationObject object => exact ⟨rfl, [], (append_nil _).symm⟩

lemma expire_eventQueue (sys : EventSystem) (timerObject : ℕ) :
    ∃ new, (sys.expire timerObject).eventQueue = sys.eventQueue ++ new := by
  unfold expire
  split
  · exact ⟨[], (append_nil _).symm⟩
  · split_ifs
    · exact ⟨[], (append_nil _).symm⟩
    all_goals exact ⟨_, rfl⟩

lemma next_wake {outcome : SelectOutcome} (h : sys.next (.wake outcome) = some sys') :
    inSelect sys'.control = false ∧ ∃ new, sys'.eventQueue = sys.eventQueue ++ new := by
  simp only [EventSystem.next] at h
  split at h
  · cases h
    exact ⟨rfl, expire_eventQueue sys _⟩
  · cases h
    exact ⟨rfl, _, rfl⟩
  · cases h
    exact ⟨rfl, [], (append_nil _).symm⟩
  · cases h
    exact ⟨rfl, [], (append_nil _).symm⟩
  · cases h

lemma next_outside {e : Input} (he : e = .call ∨ e = .stop)
    (h : sys.next e = some sys') : inSelect sys.control = false ∧ inSelect sys'.control = false ∧
      sys'.eventQueue = sys.eventQueue := by
  rcases he with rfl | rfl <;> obtain ⟨hc, ⟨⟩⟩ := ite_none_right_eq_some.mp h <;>
    exact ⟨by rw [hc]; rfl, rfl, rfl⟩

lemma next_block {now : ℤ} (h : sys.next (.block now) = some sys') :
    inSelect sys'.control = true ∧ sys'.eventQueue = sys.eventQueue := by
  obtain ⟨-, ⟨⟩⟩ := ite_none_right_eq_some.mp h
  exact ⟨rfl, rfl⟩

lemma next_take (h : sys.next .take = some sys') :
    inSelect sys.control = false ∧ inSelect sys'.control = false ∧
      ∃ e, sys.eventQueue = e :: sys'.eventQueue := by
  simp only [EventSystem.next] at h
  split at h
  · cases h
  · rename_i e he
    cases h
    unfold returned at he
    split_ifs at he with hc
    refine ⟨by rw [hc]; rfl, ?_, e, (cons_head?_tail he).symm⟩
    dsimp only
    split_ifs <;> rfl

end Queue

/-- The flag says whether the loop is in its `select`; what was done since it looked has put a byte
into the pipe; and the events that were queued are those that were taken and those on the queue. -/
structure Sound (s : Notifying) : Prop where
  flag : s.blockedOnSelect = inSelect s.sys.control
  notified : inSelect s.sys.control → s.since ≠ [] → 0 < s.pipe
  same : inSelect s.sys.control → s.since = [] → s.sys = s.sampled
  order : ∃ taken, s.queued = taken ++ s.sys.eventQueue ∧ s.handled = taken.filter dispatches

lemma sound_new : Sound new := ⟨rfl, nofun, nofun, [], rfl, rfl⟩

namespace Sound

variable {s s' : Notifying}

section

variable (h : s.Sound)

include h

lemma order_append {sys : EventSystem} (hqu : ∃ new, sys.eventQueue = s.sys.eventQueue ++ new) :
    ∃ taken, s.queued ++ newEvents s.sys sys = taken ++ sys.eventQueue ∧
      s.handled = taken.filter dispatches := by
  obtain ⟨taken, hq, hh⟩ := h.order
  obtain ⟨new, hn⟩ := hqu
  refine ⟨taken, ?_, hh⟩
  rw [newEvents, hq, hn, drop_left, append_assoc]

lemma operate {thread : Option ℕ} {a : Action} (hs : s.operate thread a = some s') : s'.Sound := by
  obtain ⟨sys, hsy, rfl⟩ := map_eq_some_iff.mp hs
  obtain ⟨hc, hq⟩ := next_act hsy
  refine ⟨?_, fun hin _ => ?_, fun _ hn => ?_, h.order_append hq⟩
  · change s.blockedOnSelect = inSelect sys.control
    rw [hc]
    exact h.flag
  · -- the loop is in its `select`, so the flag is set
    change inSelect sys.control = true at hin
    rw [hc, ← h.flag] at hin
    change 0 < if s.blockedOnSelect then s.pipe + 256 else s.pipe
    rw [if_pos hin]
    omega
  · exact absurd hn (by simp)

lemma relock {selected : Selected} (hs : s.relock selected = some s') : s'.Sound := by
  obtain ⟨sys, hsy, rfl⟩ := map_eq_some_iff.mp hs
  obtain ⟨hout, hq⟩ := next_wake hsy
  refine ⟨hout.symm, fun hin => ?_, fun hin => ?_, h.order_append hq⟩
  all_goals exact absurd hin (by simp [hout])

lemma outside {sys : EventSystem}
    (hs : inSelect s.sys.control = false ∧ inSelect sys.control = false ∧
      sys.eventQueue = s.sys.eventQueue) : Sound { s with sys := sys } := by
  obtain ⟨hb, ha, hq⟩ := hs
  refine ⟨h.flag.trans (hb.trans ha.symm), fun hin => ?_, fun hin => ?_, ?_⟩
  · exact absurd hin (by simp [ha])
  · exact absurd hin (by simp [ha])
  · change ∃ taken, s.queued = taken ++ sys.eventQueue ∧ s.handled = taken.filter dispatches
    rw [hq]
    exact h.order

lemma take {sys : EventSystem} (hs : s.sys.next .take = some sys) :
    Sound { s with
      sys := sys
      handled := s.handled ++ (s.sys.eventQueue.head?.toList.filter dispatches) } := by
  obtain ⟨hb, ha, e, hq⟩ := next_take hs
  obtain ⟨taken, hqu, hh⟩ := h.order
  refine ⟨h.flag.trans (hb.trans ha.symm), fun hin => ?_, fun hin => ?_, taken ++ [e], ?_, ?_⟩
  · exact absurd hin (by simp [ha])
  · exact absurd hin (by simp [ha])
  · rw [hqu, hq, append_assoc, singleton_append]
  · rw [hh, hq, filter_append]
    rfl

lemma step {o : Occurrence} (hs : s.step o s') : s'.Sound := by
  unfold Notifying.step at hs
  cases o with
  | operate thread a =>
    cases thread with
    | none | some =>
      simp only [next, ite_none_right_eq_some] at hs
      exact h.operate hs.2
  | call =>
    obtain ⟨sys, hsy, rfl⟩ := map_eq_some_iff.mp hs
    exact h.outside (next_outside (.inl rfl) hsy)
  | block now =>
    obtain ⟨sys, hsy, rfl⟩ := map_eq_some_iff.mp hs
    obtain ⟨hin, hq⟩ := next_block hsy
    refine ⟨hin.symm, fun _ hne => absurd rfl hne, fun _ _ => rfl, ?_⟩
    change ∃ taken, s.queued = taken ++ sys.eventQueue ∧ s.handled = taken.filter dispatches
    rw [hq]
    exact h.order
  | selectReturns | leave | spurious =>
    obtain ⟨-, ⟨⟩⟩ := ite_none_right_eq_some.mp hs
    exact ⟨h.flag, h.notified, h.same, h.order⟩
  | relock =>
    obtain ⟨selected, -, hr⟩ := bind_eq_some_iff.mp hs
    exact h.relock hr
  | take =>
    obtain ⟨sys, hsy, rfl⟩ := map_eq_some_iff.mp hs
    exact h.take hsy
  | stop =>
    obtain ⟨sys, hsy, rfl⟩ := map_eq_some_iff.mp hs
    exact h.outside (next_outside (.inr rfl) hsy)

end

end Sound

/-- **No lost wake-up.**  In every run: while the loop is in its `select`, there is a byte in the
pipe if anything has been done to the event system since it looked, and in particular if the event
queue, the timers or the descriptors are not what they were.  And the events that were queued are
those that were taken, in order, and those on the queue; the handlers were given the former, except
for events without a handler and the one that ends the loop. -/
theorem pipe_of_changed {s : Notifying} {os : List Occurrence} (hrun : Run step new os s) :
    (inSelect s.sys.control → (s.since ≠ [] → 0 < s.pipe) ∧
      (s.sys.eventQueue ≠ s.sampled.eventQueue ∨ s.sys.timers ≠ s.sampled.timers ∨
        s.sys.descrs ≠ s.sampled.descrs ∨ s.sys.maxDescr ≠ s.sampled.maxDescr → 0 < s.pipe)) ∧
      ∃ taken, s.queued = taken ++ s.sys.eventQueue ∧ s.handled = taken.filter dispatches := by
  have hs : s.Sound := hrun.invariant (fun _ _ _ h hst => h.step hst) sound_new
  refine ⟨fun hin => ⟨hs.notified hin, fun hc => ?_⟩, hs.order⟩
  by_cases hsi : s.since = []
  · simp [hs.same hin hsi] at hc
  · exact hs.notified hin hsi

/-- The loop goes to `select`, and another thread posts an event: there are bytes in the pipe. -/
theorem pipe_of_changed_sample :
    ∃ s, Run step new [.call, .block 0, .operate (some 1) (.postEvent ⟨.evQuit, none, 0⟩)] s ∧
      inSelect s.sys.control ∧ s.since ≠ [] ∧ 0 < s.pipe := by
  have hrun : Run step new [.call, .block 0, .operate (some 1) (.postEvent ⟨.evQuit, none, 0⟩)] _ :=
    .cons rfl (.cons rfl (.cons rfl (.nil _)))
  exact ⟨_, hrun, rfl, by simp, ((pipe_of_changed hrun).1 rfl).1 (by simp)⟩

end Notifying

end Glomop.Share
