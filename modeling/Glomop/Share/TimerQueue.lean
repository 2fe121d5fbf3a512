import Glomop.Lib.Run

/-!
# The timer queue

Timers are queued by the time of their next expiry, in seconds and microseconds.  The fields
`created` and `fired`, when a timer was made and how often it has expired, are not in the code.  The
seconds are `long`: a timer whose expiry is behind the last of them is queued as long past
(`timer_overflows`).  As long as no expiry is, the queue is right in every run (`timer_queue`).
`Share.EventSystem` has this queue with whole numbers for the times.
Source: `eventhan.h`, `eventhan.cc`.
-/

namespace Glomop.Share.TimerQueue

open Lib List Function

/-- A `long` has 32 bits. -/
structure Timeval where
  sec : Int32
  usec : Int32

abbrev Timeval.Normal (t : Timeval) : Prop := 0 ≤ t.usec.toInt ∧ t.usec.toInt < 1000000

def Timeval.total (t : Timeval) : ℤ := 1000000 * t.sec.toInt + t.usec.toInt

/-- The seconds of the sum are a `long`. -/
abbrev Fits (t1 t2 : Timeval) : Prop :=
  1000000 * -2 ^ 31 ≤ t1.total + t2.total ∧ t1.total + t2.total < 1000000 * 2 ^ 31

def compare (t1 t2 : Timeval) : ℤ :=
  if t1.sec < t2.sec then -1
  else if t1.sec = t2.sec ∧ t1.usec < t2.usec then -1
  else if t1.sec = t2.sec ∧ t1.usec = t2.usec then 0
  else 1

/-- `gm_Timer::IncrementTimeout`. -/
def increment (next interval : Timeval) : Timeval :=
  if next.usec + interval.usec ≥ 1000000 then
    ⟨next.sec + 1 + interval.sec, next.usec + interval.usec - 1000000⟩
  else ⟨next.sec + interval.sec, next.usec + interval.usec⟩

/-- `class gm_Timer`. -/
structure Timer where
  timeoutInterval : Timeval
  nextTimeout : Timeval
  repeatMode : Bool
  created : Timeval
  fired : ℕ

/-- The live timers by their addresses, and `ti.queue`. -/
structure State where
  timers : ℕ → Option Timer
  queue : List ℕ

def add (timers : ℕ → Option Timer) (a : ℕ) : List ℕ → List ℕ
  | [] => [a]
  | idx :: queue =>
    if (timers idx).any fun t1 => (timers a).any fun t2 =>
        compare t1.nextTimeout t2.nextTimeout ≥ 0 then
      a :: idx :: queue
    else idx :: add timers a queue

def State.put (s : State) (a : ℕ) (t : Timer) (queue : List ℕ) : State :=
  ⟨update s.timers a (some t), add (update s.timers a (some t)) a queue⟩

inductive Event
  | create (a : ℕ) (interval now : Timeval) (repeatMode : Bool)
  | remove (a : ℕ)
  /-- The `select` for the timer has timed out. -/
  | expire (a : ℕ)

/-- `gm_Timer::gm_Timer`, `gm_Timer::~gm_Timer`, `EventSystem::GetEvent`. -/
def next (s : State) : Event → Option State
  | .create a interval now repeatMode =>
    some (s.put a ⟨interval, increment now interval, repeatMode, now, 0⟩ s.queue)
  | .remove a => some ⟨update s.timers a none, s.queue.erase a⟩
  | .expire a =>
    if s.queue.head? = some a then
      (s.timers a).map fun t =>
        if t.repeatMode then
          s.put a { t with
            nextTimeout := increment t.nextTimeout t.timeoutInterval
            fired := t.fired + 1 } s.queue.tail
        else ⟨update s.timers a (some { t with fired := t.fired + 1 }), s.queue.tail⟩
    else some s

def step (s : State) (e : Event) (s' : State) : Prop := next s e = some s'

/-- A new timer has an address of its own, the interval and what the clock shows are normal, and
every new expiry fits. -/
def Allowed (s : State) : Event → Prop
  | .create a interval now _ =>
    s.timers a = none ∧ interval.Normal ∧ now.Normal ∧ Fits now interval
  | .expire a => s.queue.head? = some a →
    ∀ t, s.timers a = some t → t.repeatMode = true → Fits t.nextTimeout t.timeoutInterval
  | _ => True

/-- It repeats or has not fired yet. -/
def Timer.Waits (t : Timer) : Prop := t.repeatMode = true ∨ t.fired = 0

structure Timer.Scheduled (t : Timer) : Prop where
  interval : t.timeoutInterval.Normal
  normal : t.nextTimeout.Normal
  next_eq : t.Waits →
    t.nextTimeout.total = t.created.total + (t.fired + 1) * t.timeoutInterval.total

def due (timers : ℕ → Option Timer) (a : ℕ) : ℤ := (timers a).elim 0 (·.nextTimeout.total)

structure Queued (s : State) : Prop where
  nodup : s.queue.Nodup
  mem_iff : ∀ a, a ∈ s.queue ↔ ∃ t, s.timers a = some t ∧ t.Waits
  scheduled : ∀ a t, s.timers a = some t → t.Scheduled
  sorted : s.queue.Pairwise (due s.timers · ≤ due s.timers ·)

variable {s s' : State} {timers : ℕ → Option Timer} {a : ℕ} {queue : List ℕ} {t : Timer}
  {t1 t2 : Timeval} {x : Option Timer}

lemma compare_nonneg_iff (h1 : t1.Normal) (h2 : t2.Normal) :
    compare t1 t2 ≥ 0 ↔ t2.total ≤ t1.total := by
  unfold compare Timeval.total
  simp only [Int32.lt_iff_toInt_lt, ← Int32.toInt_inj]
  split_ifs <;> omega

lemma increment_spec (h1 : t1.Normal) (h2 : t2.Normal) (hf : Fits t1 t2) :
    (increment t1 t2).Normal ∧ (increment t1 t2).total = t1.total + t2.total := by
  have hm : (1000000 : Int32).toInt = 1000000 := rfl
  have ho : (1 : Int32).toInt = 1 := rfl
  have hu : (t1.usec + t2.usec).toInt = t1.usec.toInt + t2.usec.toInt := by
    rw [Int32.toInt_add, Int.bmod_eq_of_le (by omega) (by omega)]
  unfold Fits at hf
  unfold increment Timeval.total at *
  split_ifs with hc
  all_goals
    rw [ge_iff_le, Int32.le_iff_toInt_le, hu, hm] at hc
    simp only [Timeval.Normal, Int32.toInt_add, Int32.toInt_sub, hu, hm, ho, Int.bmod_add_bmod]
    rw [Int.bmod_eq_of_le (by omega) (by omega)]
  · rw [Int.bmod_eq_of_le (by omega) (by omega)]
    omega
  · omega

lemma add_eq (hs : ∀ b t, timers b = some t → t.Scheduled) (ha : timers a = some t)
    (hq : ∀ b ∈ queue, ∃ t, timers b = some t) :
    add timers a queue = queue.orderedInsert (due timers · ≤ due timers ·) a := by
  induction queue with
  | nil => rfl
  | cons b queue ih =>
    obtain ⟨u, hb⟩ := hq b (.head _)
    have hc := compare_nonneg_iff (hs b u hb).normal (hs a t ha).normal
    rw [add, orderedInsert_cons, ih fun b hm => hq b (.tail _ hm)]
    refine if_congr ?_ rfl rfl
    simpa [due, ha, hb] using hc

namespace Queued

variable (h : Queued s)
include h

lemma scheduled_update (hx : ∀ t ∈ x, t.Scheduled) (b : ℕ) (t : Timer)
    (hb : update s.timers a x b = some t) : t.Scheduled := by
  by_cases hba : b = a
  · rw [hba, update_self] at hb
    exact hx t hb
  · rw [update_of_ne hba] at hb
    exact h.scheduled b t hb

lemma sorted_update (hq : queue.Sublist s.queue) (ha : a ∉ queue) :
    queue.Pairwise (due (update s.timers a x) · ≤ due (update s.timers a x) ·) := by
  refine (h.sorted.sublist hq).imp_of_mem fun {b c} hb hc hle => ?_
  have hba : b ≠ a := fun heq => ha (heq ▸ hb)
  have hca : c ≠ a := fun heq => ha (heq ▸ hc)
  simpa only [due, update_of_ne hba, update_of_ne hca] using hle

/-- A timer leaves the queue. -/
lemma erase (hx : ∀ t ∈ x, t.Scheduled ∧ ¬ t.Waits) :
    Queued ⟨update s.timers a x, s.queue.erase a⟩ where
  nodup := h.nodup.erase a
  mem_iff b := by
    rw [h.nodup.mem_erase_iff, h.mem_iff]
    dsimp only
    by_cases hb : b = a
    · rw [hb, update_self]
      exact iff_of_false (fun hne => hne.1 rfl) fun ⟨t, ht, hw⟩ => (hx t ht).2 hw
    · rw [update_of_ne hb, and_iff_right hb]
  scheduled := h.scheduled_update fun t ht => (hx t ht).1
  sorted := h.sorted_update erase_sublist h.nodup.not_mem_erase

/-- A timer that waits is put where it belongs. -/
lemma put (ha : s.timers a = none) (ht : t.Scheduled) (hw : t.Waits) :
    Queued (s.put a t s.queue) := by
  have hna : a ∉ s.queue := by simp [h.mem_iff, ha]
  have hs := h.scheduled_update (a := a) (x := some t) (by simpa using ht)
  have hl : ∀ b ∈ s.queue, ∃ u, update s.timers a (some t) b = some u := by
    intro b hb
    obtain ⟨u, hu, -⟩ := (h.mem_iff b).mp hb
    have hne : b ≠ a := fun heq => hna (heq ▸ hb)
    exact ⟨u, (update_of_ne hne _ _).trans hu⟩
  let r (b c : ℕ) := due (update s.timers a (some t)) b ≤ due (update s.timers a (some t)) c
  have : Std.Total r := ⟨fun _ _ => le_total _ _⟩
  have : IsTrans ℕ r := ⟨fun _ _ _ => le_trans⟩
  have hp := perm_orderedInsert r a s.queue
  rw [State.put, add_eq hs (update_self ..) hl]
  refine ⟨hp.nodup_iff.mpr (nodup_cons.mpr ⟨hna, h.nodup⟩), fun b => ?_, hs,
    (h.sorted_update (.refl _) hna).orderedInsert a s.queue⟩
  rw [hp.mem_iff, mem_cons, h.mem_iff]
  by_cases hb : b = a <;> simp [hb, hw]

/-- **One event** keeps the queue. -/
theorem step {e : Event} (hok : Allowed s e) (hst : step s e s') : Queued s' := by
  unfold TimerQueue.step next at hst
  cases e with
  | create a interval now r =>
    obtain ⟨ha, hi, hn, hf⟩ := hok
    cases hst
    obtain ⟨hno, ht⟩ := increment_spec hn hi hf
    exact h.put ha ⟨hi, hno, fun _ => by simp [ht]⟩ (.inr rfl)
  | remove a =>
    cases hst
    exact h.erase nofun
  | expire a =>
    dsimp only at hst
    split_ifs at hst with hh
    · obtain ⟨t, ht, rfl⟩ := Option.map_eq_some_iff.mp hst
      have hsc := h.scheduled a t ht
      have hta : s.queue.tail = s.queue.erase a := by
        obtain ⟨queue, hq⟩ := head?_eq_some_iff.mp hh
        rw [hq, tail_cons, erase_cons_head]
      rw [hta]
      split_ifs with hr
      · obtain ⟨hn, hto⟩ := increment_spec hsc.normal hsc.interval (hok hh t ht hr)
        have hout := (h.erase (a := a) (x := none) nofun).put (update_self ..)
          (t := { t with
            nextTimeout := increment t.nextTimeout t.timeoutInterval, fired := t.fired + 1 })
          ⟨hsc.interval, hn, fun _ => ?_⟩ (.inl hr)
        · rwa [State.put, update_idem] at hout
        · rw [hto, hsc.next_eq (.inl hr)]
          push_cast
          ring
      · refine h.erase fun u hu => ?_
        cases hu
        have hw : ¬ (t.repeatMode = true ∨ t.fired + 1 = 0) := by simp [hr]
        exact ⟨⟨hsc.interval, hsc.normal, fun hwt => absurd hwt hw⟩, hw⟩
    · cases hst
      exact h

end Queued

/-- **The timer queue** is right after any creations, removals and expiries that fit. -/
theorem timer_queue (es : List Event) (s : State)
    (h : Run (Guarded Allowed step) ⟨fun _ => none, []⟩ es s) : Queued s :=
  h.invariant (fun _ _ _ hq hs => hq.step hs.1 hs.2)
    ⟨nodup_nil, fun a => by simp, (fun a t ht => by simp at ht), Pairwise.nil⟩

/-- The first of two timers expires, and is queued behind the second. -/
theorem timer_queue_two : ∃ s, s.queue = [2, 1] ∧ Queued s :=
  ⟨_, rfl, timer_queue [.create 1 ⟨0, 600000⟩ ⟨5, 500000⟩ true,
      .create 2 ⟨0, 900000⟩ ⟨5, 500000⟩ false, .expire 1] _
    (.cons ⟨⟨rfl, by decide, by decide, by decide⟩, rfl⟩ <|
      .cons ⟨⟨rfl, by decide, by decide, by decide⟩, rfl⟩ <|
      .cons ⟨fun _ _ ht _ => Option.some.inj ht ▸ by decide, rfl⟩ (.nil _))⟩

/-- A timer for the longest interval, made at second 5, comes before one for a second. -/
theorem timer_overflows : ∃ s, Run step ⟨fun _ => none, []⟩ [.create 1 ⟨1, 0⟩ ⟨5, 0⟩ true,
    .create 2 ⟨2147483647, 0⟩ ⟨5, 0⟩ true] s ∧ s.queue = [2, 1] ∧ ¬ Queued s := by
  refine ⟨_, .cons rfl (.cons rfl (.nil _)), rfl, fun h => ?_⟩
  exact absurd ((h.scheduled 2 _ rfl).next_eq (.inl rfl)) (by decide)

end Glomop.Share.TimerQueue
