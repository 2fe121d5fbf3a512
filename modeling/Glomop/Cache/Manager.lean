import Glomop.Lib.Run
import Glomop.Share.Defines

/-!
# The front end and its PTM

A front end either has a connection to the PTM or waits for a beacon; a *start-PTM timer* starts a
PTM if none comes, and a `NoBeaconTimer` is to notice a PTM that has fallen silent.  Neither is
right: a beacon from a PTM that cannot be connected to disables the former (`deadBeacon_strands`),
and the latter sets the flag `beaconRecvd` where it says that it resets it (`silence_unnoticed`).
The handlers run under the manager's mutex; a step of the machine is a whole handler.
Source: `cacheman.h`, `cacheman.cc`.
-/

namespace Glomop.Cache

open Lib

/-- The part of the cache manager that has to do with the PTM.  `class CacheManager`,
`StartPTMTimer`, `NoBeaconTimer`. -/
structure Manager where
  /-- Whether `ptmConnection_` is not `NULL`. -/
  ptmConnection : Bool
  timer : Option ℕ
  /-- The `ActualTimer`s that are in the event system. -/
  armed : List ℕ
  /-- How many `ActualTimer`s were made so far. -/
  made : ℕ
  beaconRecvd : Bool
  askedForUnicastBeacon : Bool
  /-- How often `ClosePTMConnection__` was called; not in the source. -/
  closings : ℕ
  running : Bool
deriving DecidableEq

namespace Manager

/-- `new` does not return without memory. -/
def newTimer (s : Manager) : Manager :=
  { s with timer := some s.made, armed := s.made :: s.armed, made := s.made + 1 }

def disable (s : Manager) : Manager := { s with timer := none }

def evBeaconReceived (s : Manager) : Manager :=
  { s with beaconRecvd := true, askedForUnicastBeacon := false }

/-- `connect` is the error with which `Connect` fails, if it does. -/
def connectToPTM (s : Manager) (connect : Option Errors) : Manager :=
  { s with ptmConnection := connect.isNone }

/-- Whatever became of the connection, the timer is disabled, unless there is no memory. -/
def evPTMLocationReceived (s : Manager) (connect : Option Errors) : Bool × Manager :=
  if s.ptmConnection then (true, s.evBeaconReceived)
  else if connect = some .errOutOfMemory then (false, s.evBeaconReceived.connectToPTM connect)
  else (true, (s.evBeaconReceived.connectToPTM connect).disable)

def evPTMConnectionLost (s : Manager) : Manager := { s with ptmConnection := false }.newTimer

def closePTMConnection (s : Manager) : Manager :=
  if s.ptmConnection then { s with closings := s.closings + 1 }.evPTMConnectionLost
  else { s with closings := s.closings + 1 }

/-- `started` is what `StartPTM__` returns.  `StartPTMTimer::EvTimer`. -/
def startPTM (s : Manager) (started : Bool) : Bool × Manager := (started, s.newTimer)

/-- The timer `t` expires.  `StartPTMTimer::ActualTimer::EvTimer`. -/
def evStartTimer (s : Manager) (t : ℕ) (started : Bool) : Bool × Manager :=
  if s.timer = some t then { s with armed := s.armed.erase t }.startPTM started
  else (true, { s with armed := s.armed.erase t })

/-- `asked` is what `AskPTMForUnicastBeacon` returns.  `CacheManager::NoBeaconTimer::EvTimer`. -/
def evNoBeaconTimer (s : Manager) (asked : Bool) : Manager :=
  if s.beaconRecvd = false ∧ s.ptmConnection = true then
    if s.askedForUnicastBeacon then { s with askedForUnicastBeacon := false }.closePTMConnection
    else if asked then { s with askedForUnicastBeacon := true }
    else s.closePTMConnection
  else
    -- the comment in the source says "reset the beaconRecvd flag"
    { s with beaconRecvd := true, askedForUnicastBeacon := false }

/-- Another front end is about to start a PTM.
`cachenet.cc` `SharedBus::EvPacketReceived`, `cacheman.cc` `RestartPTMTimer__`. -/
def evWillStartPTM (s : Manager) : Manager := if s.ptmConnection then s else s.newTimer

/-- The end of the constructor, or `none` if there was no memory for a connection.  `unicast` says
how connecting goes if the options give an address of the PTM.  `CacheManager::CacheManager`. -/
def create (unicast : Option (Option Errors)) : Option Manager :=
  let s : Manager := ⟨false, none, [], 0, false, false, 0, true⟩
  match unicast with
  | none => some s.evPTMConnectionLost
  | some connect =>
    let (located, s) := s.evPTMLocationReceived connect
    if located then some s else none

inductive Event
  | beacon (connect : Option Errors)
  /-- A PTM connection is at its end, or a request cannot be written to it.  The connection need not
  be the current one. -/
  | connectionBroken
  | willStartPTM
  | startTimer (t : ℕ) (started : Bool)
  | noBeaconTimer (asked : Bool)
deriving DecidableEq

def Event.isBeacon : Event → Bool
  | beacon _ => true
  | _ => false

def Event.isFiring : Event → Bool
  | noBeaconTimer _ => true
  | _ => false

/-- A handler that returns `gm_False` for want of memory, or because it cannot start a PTM, ends the
process.
`cachenet.cc` `ThreadedSocket::ThreadMain`, `cacheman.cc` `CacheManager::Main`. -/
def continueIf (handled : Bool × Manager) : Manager := { handled.2 with running := handled.1 }

/-- What an event does; `none` if it cannot happen. -/
def act (s : Manager) : Event → Option Manager
  | .beacon connect => some (continueIf (s.evPTMLocationReceived connect))
  | .connectionBroken => some s.closePTMConnection
  | .willStartPTM => some s.evWillStartPTM
  | .startTimer t started =>
    if t ∈ s.armed then some (continueIf (s.evStartTimer t started)) else none
  | .noBeaconTimer asked => some (s.evNoBeaconTimer asked)

def next (s : Manager) (e : Event) : Option Manager := if s.running then s.act e else none

def step (s : Manager) (e : Event) (s' : Manager) : Prop := s.next e = some s'

variable {s s' : Manager} {e : Event}

lemma act_of_step (h : s.step e s') : s.act e = some s' := by
  unfold step next at h
  split_ifs at h
  exact h

/-! ## Something will start a PTM -/

/-- There is a connection, or the current start-PTM timer is in the event system. -/
def Watched (s : Manager) : Prop :=
  s.ptmConnection = true ∨ ∃ t, s.timer = some t ∧ t ∈ s.armed

instance (s : Manager) : Decidable s.Watched :=
  decidable_of_iff (s.ptmConnection = true ∨ ∃ t ∈ s.armed, s.timer = some t) <| by
    simp only [Watched, and_comm]

/-- Connecting fails for another reason than lack of memory. -/
def Unconnectable (connect : Option Errors) : Prop :=
  connect.isSome = true ∧ connect ≠ some .errOutOfMemory

instance (connect : Option Errors) : Decidable (Unconnectable connect) :=
  inferInstanceAs (Decidable (_ ∧ _))

/-- The event is not a beacon that a front end without a connection cannot follow. -/
def Followed (s : Manager) : Event → Prop
  | .beacon connect => s.ptmConnection = true ∨ ¬ Unconnectable connect
  | _ => True

instance (s : Manager) (e : Event) : Decidable (s.Followed e) := by
  cases e <;> unfold Followed <;> infer_instance

lemma watched_newTimer (s : Manager) : s.newTimer.Watched := .inr ⟨s.made, rfl, .head _⟩

lemma Watched.closePTMConnection (h : s.Watched) : s.closePTMConnection.Watched := by
  unfold Manager.closePTMConnection
  split_ifs with hc
  · exact watched_newTimer _
  · exact h

lemma Watched.evPTMLocationReceived {connect : Option Errors} (h : s.Watched)
    (hok : s.ptmConnection = true ∨ ¬ Unconnectable connect) :
    (s.evPTMLocationReceived connect).2.Watched := by
  unfold Manager.evPTMLocationReceived
  split_ifs with hc hm
  · exact h
  · subst hm
    exact .inr (h.resolve_left hc)
  · cases connect with
    | none => exact .inl rfl
    | some error =>
      have hb : Unconnectable (some error) := ⟨rfl, hm⟩
      exact absurd hb (hok.resolve_left hc)

lemma Watched.evStartTimer (h : s.Watched) (t : ℕ) (started : Bool) :
    (s.evStartTimer t started).2.Watched := by
  unfold Manager.evStartTimer
  split_ifs with hc
  · exact watched_newTimer _
  · refine h.imp_right fun ⟨t', ht, ha⟩ => ⟨t', ht, ?_⟩
    have hne : t' ≠ t := by
      rintro rfl
      exact hc ht
    exact (List.mem_erase_of_ne hne).mpr ha

lemma Watched.evNoBeaconTimer (h : s.Watched) (asked : Bool) :
    (s.evNoBeaconTimer asked).Watched := by
  unfold Manager.evNoBeaconTimer
  split_ifs
  · apply Watched.closePTMConnection
    exact h
  · exact h
  · exact h.closePTMConnection
  · exact h

/-- **One step keeps the front end watched.** -/
theorem Watched.step (h : s.Watched) (hs : Guarded Followed step s e s') : s'.Watched := by
  obtain ⟨hok, hs⟩ := hs
  replace hs := act_of_step hs
  cases e with
  | beacon connect =>
    cases hs
    exact h.evPTMLocationReceived hok
  | connectionBroken =>
    cases hs
    exact h.closePTMConnection
  | willStartPTM =>
    cases hs
    unfold evWillStartPTM
    split_ifs
    · exact h
    · exact watched_newTimer s
  | startTimer t started =>
    obtain ⟨-, ⟨⟩⟩ := Option.ite_none_right_eq_some.mp hs
    exact h.evStartTimer t started
  | noBeaconTimer asked =>
    cases hs
    exact h.evNoBeaconTimer asked

/-- The options give no address, or one that does not lead to a failed connection. -/
def FollowedAtStart (unicast : Option (Option Errors)) : Prop :=
  ∀ connect, unicast = some connect → ¬ Unconnectable connect

lemma watched_create {unicast : Option (Option Errors)} (hok : FollowedAtStart unicast)
    (h : create unicast = some s) : s.Watched := by
  cases unicast with
  | none =>
    cases h
    exact watched_newTimer _
  | some connect =>
    cases connect with
    | none =>
      cases h
      exact .inl rfl
    | some error =>
      have hm : error = .errOutOfMemory := by
        by_contra hne
        exact hok _ rfl ⟨rfl, by simpa using hne⟩
      subst hm
      exact nomatch h

/-- **A front end without a PTM has a timer that will start one**, in every state of every run in
which no connection is tried in vain, other than for lack of memory: neither when the manager is
made nor when a beacon is heard. -/
theorem watched_of_run {unicast : Option (Option Errors)} {s₀ : Manager} {es : List Event}
    (hstart : create unicast = some s₀) (hfirst : FollowedAtStart unicast)
    (hrun : Run (Guarded Followed step) s₀ es s) : s.Watched :=
  hrun.invariant (fun _ _ _ h hs => h.step hs) (watched_create hfirst hstart)

/-- A front end without an address hears a beacon, loses its PTM, hears that another front end will
start one, and starts one itself when the new timer expires. -/
theorem watched_of_run_restarted :
    ∃ s₀ s, create none = some s₀ ∧ FollowedAtStart none ∧
      Run (Guarded Followed step) s₀ [.beacon none, .connectionBroken, .willStartPTM,
        .startTimer 1 true, .startTimer 2 true] s ∧
      s.ptmConnection = false ∧ s.Watched := by
  have hf : FollowedAtStart none := nofun
  exact ⟨⟨false, some 0, [0], 1, false, false, 0, true⟩, (exists_guarded_of_decide
    (p := fun s : Manager => s.ptmConnection = false) (by decide +kernel)).imp fun s h =>
    ⟨rfl, hf, h.1, h.2, watched_of_run rfl hf h.1⟩⟩

/-- A beacon of a PTM that has just died, heard by a front end that waits for one: afterwards there
is neither a connection nor a timer that is current. -/
theorem deadBeacon_strands :
    ∃ s₀ s, create none = some s₀ ∧
      Run step s₀ [.beacon (some .errSocketConnectError)] s ∧ s.running = true ∧ ¬ s.Watched := by
  refine ⟨_, ⟨false, none, [0], 1, true, false, 0, true⟩, rfl, .cons rfl (.nil _), rfl, ?_⟩
  decide

/-! ## A PTM that falls silent -/

def Heard (s : Manager) : Prop := s.ptmConnection = true → s.beaconRecvd = true

lemma Heard.closePTMConnection (h : s.Heard) : s.closePTMConnection.Heard := by
  unfold Manager.closePTMConnection
  split_ifs
  · exact nofun
  · exact h

/-- **One step keeps the flag of a connected front end set.** -/
theorem Heard.step (h : s.Heard) (hs : s.step e s') : s'.Heard := by
  replace hs := act_of_step hs
  cases e with
  | beacon connect =>
    cases hs
    unfold evPTMLocationReceived
    split_ifs <;> exact fun _ => rfl
  | connectionBroken =>
    cases hs
    exact h.closePTMConnection
  | willStartPTM =>
    cases hs
    unfold evWillStartPTM
    split_ifs <;> exact h
  | startTimer t started =>
    obtain ⟨-, ⟨⟩⟩ := Option.ite_none_right_eq_some.mp hs
    unfold evStartTimer
    split_ifs <;> exact h
  | noBeaconTimer asked =>
    cases hs
    unfold evNoBeaconTimer
    split_ifs with hm
    · exact Heard.closePTMConnection h
    · exact h
    · exact h.closePTMConnection
    · exact fun _ => rfl

lemma heard_create {unicast : Option (Option Errors)} (h : create unicast = some s) : s.Heard := by
  cases unicast with
  | none =>
    cases h
    exact nofun
  | some connect =>
    by_cases hm : connect = some .errOutOfMemory
    · subst hm
      exact nomatch h
    · simp only [create, evPTMLocationReceived, Bool.false_eq_true, if_false, if_neg hm,
        if_true] at h
      cases h
      exact fun _ => rfl

lemma Heard.closings_evNoBeaconTimer (h : s.Heard) (asked : Bool) :
    (s.evNoBeaconTimer asked).closings = s.closings := by
  have hn : ¬ (s.beaconRecvd = false ∧ s.ptmConnection = true) := by
    rintro ⟨hf, hc⟩
    rw [h hc] at hf
    exact nomatch hf
  rw [evNoBeaconTimer, if_neg hn]

lemma closings_closePTMConnection (s : Manager) :
    s.closePTMConnection.closings = s.closings + 1 := by
  unfold closePTMConnection
  split_ifs <;> rfl

def patience (s : Manager) : ℕ := if s.askedForUnicastBeacon then 1 else 2

def Missing (s : Manager) : Prop := s.ptmConnection = true ∧ s.beaconRecvd = false

/-- What a step without a beacon does to a front end that misses one: the connection is closed, or
the front end still misses it and has, after a firing, less patience. -/
lemma Missing.step (h : s.Missing) (hsi : e.isBeacon = false) (hs : s.step e s') :
    s.closings < s'.closings ∨
      s'.Missing ∧ s'.patience + e.isFiring.toNat ≤ s.patience ∧ s'.closings = s.closings := by
  obtain ⟨hc, hf⟩ := h
  replace hs := act_of_step hs
  cases e with
  | beacon connect => exact nomatch hsi
  | connectionBroken =>
    cases hs
    apply Or.inl
    rw [closings_closePTMConnection]
    exact Nat.lt_succ_self _
  | willStartPTM =>
    cases hs
    rw [evWillStartPTM, if_pos hc]
    exact .inr ⟨⟨hc, hf⟩, le_rfl, rfl⟩
  | startTimer t started =>
    obtain ⟨-, ⟨⟩⟩ := Option.ite_none_right_eq_some.mp hs
    unfold evStartTimer
    split_ifs <;> exact .inr ⟨⟨hc, hf⟩, le_rfl, rfl⟩
  | noBeaconTimer asked =>
    cases hs
    rw [evNoBeaconTimer, if_pos ⟨hf, hc⟩]
    split_ifs with ha hw
    · apply Or.inl
      rw [closings_closePTMConnection]
      exact Nat.lt_succ_self _
    · refine .inr ⟨⟨hc, hf⟩, ?_, rfl⟩
      simp [patience, ha, Event.isFiring]
    · apply Or.inl
      rw [closings_closePTMConnection]
      exact Nat.lt_succ_self _

lemma closings_le_step (hs : s.step e s') : s.closings ≤ s'.closings := by
  replace hs := act_of_step hs
  have hc (t : Manager) : t.closings ≤ t.closePTMConnection.closings := by
    rw [closings_closePTMConnection]
    exact Nat.le_succ _
  cases e with
  | beacon connect =>
    cases hs
    unfold evPTMLocationReceived
    split_ifs <;> exact le_rfl
  | connectionBroken =>
    cases hs
    exact hc s
  | willStartPTM =>
    cases hs
    unfold evWillStartPTM
    split_ifs <;> exact le_rfl
  | startTimer t started =>
    obtain ⟨-, ⟨⟩⟩ := Option.ite_none_right_eq_some.mp hs
    unfold evStartTimer
    split_ifs <;> exact le_rfl
  | noBeaconTimer asked =>
    cases hs
    unfold evNoBeaconTimer
    split_ifs
    · exact hc { s with askedForUnicastBeacon := false }
    · exact le_rfl
    · exact hc s
    · exact le_rfl

def Silently : Manager → Event → Manager → Prop := Guarded (fun _ e => e.isBeacon = false) step

lemma closings_le_run {es : List Event} (hrun : Run Silently s es s') : s.closings ≤ s'.closings :=
  hrun.invariant (I := fun t => s.closings ≤ t.closings)
    (fun _ _ _ hle hs => hle.trans (closings_le_step hs.2)) le_rfl

/-- **Silence is noticed** by a front end whose flag is not set. -/
theorem Missing.closings_lt {es : List Event} (hrun : Run Silently s es s') (h : s.Missing)
    (hf : s.patience ≤ es.countP Event.isFiring) : s.closings < s'.closings := by
  induction hrun with
  | nil s =>
    have hpos : 0 < s.patience := by
      unfold patience
      split_ifs <;> decide
    exact absurd hf (by simpa using hpos.ne')
  | cons hs hr ih =>
    rw [List.countP_cons] at hf
    rcases h.step hs.1 hs.2 with hc | ⟨hm, hp, hsa⟩
    · exact lt_of_lt_of_le hc (closings_le_run hr)
    · rw [← hsa]
      apply ih hm
      have hi (b : Bool) : (if b = true then 1 else 0) = b.toNat := by cases b <;> rfl
      rw [hi] at hf
      omega

/-- **When silence is noticed.**  For every state in which the front end is connected: three firings
of the timer without a beacon in between always close the connection, if and only if the flag is not
set.  In every state that is reached from the start, the flag of a connected front end is set, and
the timer closes nothing, however many beacons there were. -/
theorem noticesSilence_iff (s : Manager) :
    (s.running = true → s.ptmConnection = true →
      ((∀ es s', Run Silently s es s' → es.countP Event.isFiring = 3 → s.closings < s'.closings) ↔
        s.beaconRecvd = false)) ∧
    ∀ unicast s₀ es, create unicast = some s₀ → Run step s₀ es s →
      (s.ptmConnection = true → s.beaconRecvd = true) ∧
      ∀ asked s', s.step (.noBeaconTimer asked) s' → s'.closings = s.closings := by
  refine ⟨fun hr hc => ⟨fun ha => ?_, fun hfl es s' hrun hth => ?_⟩,
    fun unicast s₀ es hst hrun => ?_⟩
  · -- a front end whose flag is set sleeps through three firings
    by_contra hfl
    have hse : s.beaconRecvd = true := by simpa using hfl
    have hf (t : Manager) (ht : t.running = true) (hre : t.beaconRecvd = true) :
        Silently t (.noBeaconTimer true)
          { t with beaconRecvd := true, askedForUnicastBeacon := false } := by
      refine ⟨rfl, ?_⟩
      simp [step, next, act, evNoBeaconTimer, ht, hre]
    have hrun := Run.cons (hf s hr hse) (.cons (hf _ hr rfl) (.cons (hf _ hr rfl) (.nil _)))
    have hn := ha _ _ hrun
    exact lt_irrefl _ (hn rfl)
  · apply Missing.closings_lt hrun ⟨hc, hfl⟩
    rw [hth, patience]
    split_ifs <;> decide
  · have hh : s.Heard := hrun.invariant (fun _ _ _ h hs => h.step hs) (heard_create hst)
    refine ⟨hh, fun asked s' hs => ?_⟩
    cases act_of_step hs
    exact hh.closings_evNoBeaconTimer asked

/-- A connected front end that has not heard a beacon asks for one and then gives the PTM up; one
that is reached from the start has heard one. -/
theorem noticesSilence_iff_sample :
    (∃ s' : Manager, Run Silently ⟨true, none, [], 0, false, false, 0, true⟩
      [.noBeaconTimer true, .noBeaconTimer true, .noBeaconTimer true] s' ∧ 0 < s'.closings) ∧
    ∃ s₀ s, create none = some s₀ ∧ Run step s₀ [.beacon none] s ∧ s.ptmConnection = true ∧
      s.beaconRecvd = true := by
  constructor
  · exact (exists_guarded_of_decide (p := fun _ => True) (by decide +kernel)).imp fun s h =>
      ⟨h.1, ((noticesSilence_iff _).1 rfl rfl).mpr rfl _ s h.1 rfl⟩
  · have hrun : Run step ⟨false, some 0, [0], 1, false, false, 0, true⟩ [.beacon none]
        ⟨true, none, [0], 1, true, false, 0, true⟩ := .cons rfl (.nil _)
    exact ⟨_, _, rfl, hrun, rfl, ((noticesSilence_iff _).2 none _ _ rfl hrun).1 rfl⟩

/-- A front end hears one beacon and no more: the timer fires three times, and nothing is closed. -/
theorem silence_unnoticed :
    ∃ s₀ s s', create none = some s₀ ∧ Run step s₀ [.beacon none] s ∧ s.ptmConnection = true ∧
      Run Silently s [.noBeaconTimer true, .noBeaconTimer true, .noBeaconTimer true] s' ∧
      s'.ptmConnection = true ∧ s'.closings = 0 :=
  ⟨_, ⟨true, none, [0], 1, true, false, 0, true⟩, ⟨true, none, [0], 1, true, false, 0, true⟩, rfl,
    .cons rfl (.nil _), rfl,
    .cons ⟨rfl, rfl⟩ (.cons ⟨rfl, rfl⟩ (.cons ⟨rfl, rfl⟩ (.nil _))), rfl, rfl⟩

end Manager

end Glomop.Cache
