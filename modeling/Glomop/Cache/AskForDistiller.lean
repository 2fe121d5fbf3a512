import Glomop.Cache.Asking

/-!
# One question to the PTM

`AskPTMForDistiller__` hands back the status of a request object, which a reply and a timer set from
another thread and which is not initialised.  So it can report what no reply has said
(`wrong_reports`).  The call is a state machine, with the other threads' doings as events; a wake-up
without a signal is none of them.  `Asking` has many such calls, and the negative cache.
Source: `cacheman.cc`.
-/

namespace Glomop.Cache

open Lib

open AskForDistillerStatus (ptmOk ptmAskForDistillerTimeout ptmNoPTM)

inductive Signal
  | reply (status : UInt32)
  /-- A reply whose status could not be parsed; the handler's variable was not initialised. -/
  | malformed (garbage : UInt32)
  | timeout
deriving DecidableEq

/-- The status that a signal leaves in the request.
`CacheManager::AskForDistiller::EvReplyReceived` and `EvTimer`. -/
def Signal.word : Signal → UInt32
  | .reply status => status
  | .malformed garbage => garbage
  | .timeout => ptmAskForDistillerTimeout.toWord

def Signal.cause : Signal → Option UInt32
  | .reply status => some status
  | .malformed _ => none
  | .timeout => some ptmAskForDistillerTimeout.toWord

inductive SendOutcome
  | written
  | noMemory
  /-- The connection is broken; `closed`: closing it succeeds. -/
  | broken (closed : Bool)
deriving DecidableEq

/-- Where a call of `AskPTMForDistiller__` stands. -/
inductive Phase
  | called
  | created
  /-- In `SendAndWait`, with the mutex. -/
  | sending
  | waiting
  | woken
  | returned (value : Bool)
deriving DecidableEq

def Phase.signalled : Phase → Option Phase
  | .created => some .created
  | .waiting | .woken => some .woken
  | _ => none

structure Call where
  phase : Phase
  status : UInt32
  /-- The `status` of the request. -/
  requestStatus : UInt32
  garbage : UInt32
  received : List Signal
  outcome : Option SendOutcome

inductive Call.Event
  | check (connected : Bool) (garbage : UInt32)
  | lock
  | send (outcome : SendOutcome)
  | signal (signal : Signal)
  | finish

namespace Call

def start (status : UInt32) : Call := ⟨.called, status, 0, 0, [], none⟩

/-- `CacheManager::AskPTMForDistiller__`, up to the request. -/
def check (c : Call) (connected : Bool) (garbage : UInt32) : Call :=
  if connected then
    { c with phase := .created, requestStatus := garbage, garbage := garbage }
  else { c with phase := .returned false, status := ptmNoPTM.toWord }

/-- `CacheManager::AskForDistiller::SendAndWait`. -/
def send (c : Call) (outcome : SendOutcome) : Call :=
  let c := { c with outcome := some outcome }
  match outcome with
  | .written => { c with phase := .waiting }
  | .noMemory => { c with phase := .returned false }
  | .broken closed =>
    -- `SendAndWait` returns what closing the connection returned
    if closed then { c with phase := .woken } else { c with phase := .returned false }

/-- The request is told.  A reply that is malformed is not passed on if its status looks like
`ptmOk`, because its list of distillers cannot be read.
`CacheManager::AskForDistiller::EvReplyReceived` and `EvTimer`, `cachenet.cc`
`AskForDistillerReplyHandler::Handle`. -/
def signal (c : Call) (signal : Signal) : Option Call :=
  if signal = .malformed ptmOk.toWord then none
  else
    c.phase.signalled.map fun phase =>
      { c with
        phase := phase, requestStatus := signal.word, received := c.received ++ [signal] }

/-- `CacheManager::AskPTMForDistiller__`, its end. -/
def finish (c : Call) : Call :=
  { c with
    phase := .returned (c.requestStatus = ptmOk.toWord)
    status := c.requestStatus }

/-- Carry out an event; `none` if it cannot happen. -/
def next (c : Call) : Event → Option Call
  | .check connected garbage => if c.phase = .called then some (c.check connected garbage) else none
  | .lock => if c.phase = .created then some { c with phase := .sending } else none
  | .send outcome => if c.phase = .sending then some (c.send outcome) else none
  | .signal signal => c.signal signal
  | .finish => if c.phase = .woken then some c.finish else none

def step (c : Call) (e : Event) (c' : Call) : Prop := c.next e = some c'

/-! ## What a call should report -/

/-- **The question is answered**: `gm_True` only if a reply with `ptmOk` came in, and with
`gm_False` the reason. -/
def Answered (c : Call) (value : Bool) : Prop :=
  if value then .reply ptmOk.toWord ∈ c.received
  else
    match c.outcome with
    | none => c.status = ptmNoPTM.toWord
    | some .noMemory => False
    | some (.broken _) => c.status = ptmNoPTM.toWord
    | some .written => c.status ≠ ptmOk.toWord ∧ ∃ signal ∈ c.received, signal.cause = some c.status

def lastWord (c : Call) : UInt32 := (c.received.getLast?.map Signal.word).getD c.garbage

/-- When the question is answered: there was no connection; or the question was written and the last
signal has a status, or one that another signal has; or, with a broken connection, what is left in
the caller's or in the request's variable is right by accident. -/
def Reported (caller : UInt32) (c : Call) : Prop :=
  match c.outcome with
  | none => True
  | some .noMemory => False
  | some (.broken false) => caller = ptmNoPTM.toWord
  | some (.broken true) => c.lastWord = ptmNoPTM.toWord ∨
      c.lastWord = ptmOk.toWord ∧ .reply ptmOk.toWord ∈ c.received
  | some .written => ∃ signal ∈ c.received, signal.cause = some c.lastWord

/-! ## Every call -/

def Known (caller : UInt32) (c : Call) : Prop :=
  match c.phase with
  | .called => c.status = caller ∧ c.received = [] ∧ c.outcome = none
  | .created | .sending =>
    c.status = caller ∧ c.requestStatus = c.lastWord ∧ c.outcome = none
  | .waiting => c.requestStatus = c.lastWord ∧ c.outcome = some .written
  | .woken => c.requestStatus = c.lastWord ∧
      (c.outcome = some (.broken true) ∨ c.outcome = some .written)
  | .returned value =>
    (c.outcome = none ∧ value = false ∧ c.status = ptmNoPTM.toWord) ∨
    ((c.outcome = some .noMemory ∨ c.outcome = some (.broken false)) ∧ value = false ∧
      c.status = caller) ∨
    ((c.outcome = some (.broken true) ∨ c.outcome = some .written) ∧
      value = decide (c.status = ptmOk.toWord) ∧ c.status = c.lastWord)

variable {c c' : Call} {caller : UInt32} {e : Event}

section

variable (h : c.Known caller)

include h

lemma Known.check (hp : c.phase = .called) (connected : Bool)
    (garbage : UInt32) : (c.check connected garbage).Known caller := by
  simp only [Known, hp] at h
  obtain ⟨hs, hr, ho⟩ := h
  unfold Call.check
  split_ifs
  · exact ⟨hs, by simp [lastWord, hr], ho⟩
  · exact .inl ⟨ho, rfl, rfl⟩

lemma Known.send (hp : c.phase = .sending) (outcome : SendOutcome) :
    (c.send outcome).Known caller := by
  simp only [Known, hp] at h
  obtain ⟨hs, hl, -⟩ := h
  cases outcome with
  | written => exact ⟨hl, rfl⟩
  | noMemory => exact .inr (.inl ⟨.inl rfl, rfl, hs⟩)
  | broken closed =>
    cases closed with
    | true => exact ⟨hl, .inl rfl⟩
    | false => exact .inr (.inl ⟨.inr rfl, rfl, hs⟩)

lemma Known.signal {signal : Signal} (hs : c.signal signal = some c') : c'.Known caller := by
  unfold Call.signal at hs
  split_ifs at hs
  obtain ⟨phase, hp, rfl⟩ := Option.map_eq_some_iff.mp hs
  have hl : lastWord ⟨phase, c.status, signal.word, c.garbage, c.received ++ [signal],
      c.outcome⟩ = signal.word := by
    simp [lastWord]
  unfold Known at h
  cases hold : c.phase with
  | created =>
    rw [hold] at h hp
    cases hp
    exact ⟨h.1, hl.symm, h.2.2⟩
  | waiting =>
    rw [hold] at h hp
    cases hp
    exact ⟨hl.symm, .inr h.2⟩
  | woken =>
    rw [hold] at h hp
    cases hp
    exact ⟨hl.symm, h.2⟩
  | called | sending | returned =>
    rw [hold] at hp
    cases hp

lemma Known.finish (hp : c.phase = .woken) : c.finish.Known caller := by
  simp only [Known, hp] at h
  exact .inr (.inr ⟨h.2, rfl, h.1⟩)

/-- **One event.** -/
theorem Known.step (hs : c.step e c') : c'.Known caller := by
  unfold Call.step next at hs
  cases e with
  | check connected garbage =>
    dsimp only at hs
    split_ifs at hs with hp
    cases hs
    exact h.check hp connected garbage
  | lock =>
    dsimp only at hs
    split_ifs at hs with hp
    cases hs
    simp only [Known, hp] at h
    exact h
  | send outcome =>
    dsimp only at hs
    split_ifs at hs with hp
    cases hs
    exact h.send hp outcome
  | signal signal => exact h.signal hs
  | finish =>
    dsimp only at hs
    split_ifs at hs with hp
    cases hs
    exact h.finish hp

end

/-- **Every call.** -/
theorem known_of_run {es : List Event} (hrun : Run step (start caller) es c) : c.Known caller :=
  hrun.invariant (fun _ _ _ h hs => h.step hs) ⟨rfl, rfl, rfl⟩

lemma cause_eq_ptmOk {signal : Signal} :
    signal.cause = some ptmOk.toWord ↔ signal = .reply ptmOk.toWord := by
  constructor
  · intro h
    cases signal with
    | reply status => exact congrArg Signal.reply (Option.some.inj h)
    | malformed garbage => cases h
    | timeout => exact absurd h (by decide)
  · rintro rfl
    rfl

lemma answered_written (ho : c.outcome = some .written) (hl : c.status = c.lastWord) :
    c.Answered (decide (c.status = ptmOk.toWord)) ↔
      ∃ signal ∈ c.received, signal.cause = some c.lastWord := by
  unfold Answered
  by_cases hok : c.status = ptmOk.toWord
  · rw [if_pos (decide_eq_true hok), ← hl, hok]
    constructor
    · intro hmem
      exact ⟨_, hmem, rfl⟩
    · rintro ⟨signal, hmem, hc⟩
      obtain rfl := cause_eq_ptmOk.mp hc
      exact hmem
  · rw [if_neg (by simpa using hok), ho, ← hl]
    exact and_iff_right hok

lemma answered_broken (ho : c.outcome = some (.broken true)) (hl : c.status = c.lastWord) :
    c.Answered (decide (c.status = ptmOk.toWord)) ↔ c.lastWord = ptmNoPTM.toWord ∨
      c.lastWord = ptmOk.toWord ∧ .reply ptmOk.toWord ∈ c.received := by
  unfold Answered
  by_cases hok : c.status = ptmOk.toWord
  · rw [if_pos (decide_eq_true hok), ← hl, hok]
    have hne : ptmOk.toWord ≠ ptmNoPTM.toWord := by decide
    simp [hne]
  · rw [if_neg (by simpa using hok), ho, ← hl]
    simp [hok]

/-- **Every call of `AskPTMForDistiller__`** that returns: it returns `gm_True` only for a reply
with `ptmOk`, and with `gm_False` the reason, exactly if the condition holds. -/
theorem answered_iff {es : List Event} {value : Bool} (hrun : Run step (start caller) es c)
    (hreturned : c.phase = .returned value) : c.Answered value ↔ c.Reported caller := by
  have hk := known_of_run hrun
  simp only [Known, hreturned] at hk
  rcases hk with ⟨ho, rfl, hs⟩ | ⟨ho | ho, rfl, hs⟩ |
    ⟨ho | ho, rfl, hs⟩
  · simp [Answered, Reported, ho, hs]
  · simp [Answered, Reported, ho]
  · simp [Answered, Reported, ho, hs]
  · rw [answered_broken ho hs, Reported, ho]
  · rw [answered_written ho hs, Reported, ho]

/-- A question that is answered, after a timer that fires too early. -/
theorem answered_iff_ok :
    ∃ c, Run step (start 7)
        [.check true 9, .signal .timeout, .lock, .send .written, .signal (.reply ptmOk.toWord),
          .finish] c ∧
      c.phase = .returned true ∧ (c.Answered true ↔ c.Reported 7) := by
  have hrun : Run step (start 7)
      [.check true 9, .signal .timeout, .lock, .send .written, .signal (.reply ptmOk.toWord),
        .finish] _ :=
    .cons rfl (.cons rfl (.cons rfl (.cons rfl (.cons rfl (.cons rfl (.nil _))))))
  exact ⟨_, hrun, rfl, answered_iff hrun rfl⟩

/-- **Three wrong reports**: the connection is broken and the call returns `gm_True`, though nothing
came in; it is broken and the status is not one of the statuses; memory runs out and the caller's
status is not set. -/
theorem wrong_reports :
    (∃ c, Run step (start 7) [.check true ptmOk.toWord, .lock, .send (.broken true), .finish] c ∧
      c.phase = .returned true ∧ c.received = [] ∧ ¬ c.Answered true) ∧
    (∃ c, Run step (start 7) [.check true 9, .lock, .send (.broken true), .finish] c ∧
      c.phase = .returned false ∧ c.status = 9 ∧ ¬ c.Answered false) ∧
    ∃ c, Run step (start 7) [.check true 9, .lock, .send .noMemory] c ∧
      c.phase = .returned false ∧ c.status = 7 ∧ ¬ c.Answered false := by
  refine ⟨⟨_, .cons rfl (.cons rfl (.cons rfl (.cons rfl (.nil _)))), rfl, rfl, ?_⟩,
    ⟨_, .cons rfl (.cons rfl (.cons rfl (.cons rfl (.nil _)))), rfl, rfl, ?_⟩,
    ⟨_, .cons rfl (.cons rfl (.cons rfl (.nil _))), rfl, rfl, ?_⟩⟩
  · nofun
  · intro ha
    have hs : (9 : UInt32) = ptmNoPTM.toWord := ha
    exact absurd hs (by decide)
  · intro ha
    exact ha

end Call

end Glomop.Cache
