import Glomop.Lib.Ring
import Glomop.Lib.Run

/-!
# The work queue of the threads

The acceptor threads put tasks into a ring with `dispatch`, the workers take them out with
`get_task`, and a worker can put more tasks into it.  One condition variable is for both, and each
successful operation signals it once; a step is what a call does between taking the mutex and
releasing it, or waiting.  A signal for a worker can go to a thread that waits in `dispatch`, and
then nobody takes the tasks (`every_thread_blocked`).  Source: `thr_queue.c`.
-/

namespace Glomop.ThrQueue

open Lib Function
open Option hiding get
open List hiding get

variable {τ : Type} {nthreads acceptors : ℕ}

inductive Place (τ : Type)
  | ready
  | busy
  | getting (woken : Bool)
  | putting (task : τ) (woken : Bool)

open Place

namespace Place

def blocked : Place τ → Bool
  | getting false | putting _ false => true
  | _ => false

def woken : Place τ → Bool
  | getting true | putting _ true => true
  | _ => false

def isPutting : Place τ → Bool
  | putting _ _ => true
  | _ => false

def wake : Place τ → Place τ
  | getting _ => getting true
  | putting task _ => putting task true
  | p => p

end Place

/-- The queue and its threads: the workers are the first `nthreads` of them.  A slot is `none` as
long as nothing has been put into it.  `dispatched` and `handed` record the tasks in the order they
were put into the ring and returned by `get_task`, the latter with the thread; they are not
variables of the code.
`thr_queue.c`, the static variables. -/
structure State (nthreads acceptors : ℕ) (τ : Type) where
  qhead : ℕ
  qtail : ℕ
  task_queue : ℕ → Option τ
  tasks_done : ℤ
  threads : Fin (nthreads + acceptors) → Place τ
  dispatched : List τ
  handed : List (Fin (nthreads + acceptors) × Option τ)

/-- `make_threads`. -/
def start (nthreads acceptors : ℕ) : State nthreads acceptors τ where
  qhead := 0
  qtail := 0
  task_queue := fun _ => none
  tasks_done := nthreads
  threads := fun t => if t < nthreads then .ready else .busy
  dispatched := []
  handed := []

namespace State

variable (s : State nthreads acceptors τ)

def queueEmpty : Prop := s.qhead = s.qtail

def queueFull : Prop := (s.qtail + 1) % nthreads = s.qhead

instance : Decidable s.queueEmpty := inferInstanceAs (Decidable (_ = _))

instance : Decidable s.queueFull := inferInstanceAs (Decidable (_ = _))

end State

/-- `pthread_cond_signal`: a blocked thread is woken up, if there is one. -/
def signal {ι : Type} [DecidableEq ι] [Fintype ι] (threads : ι → Place τ) :
    Option ι → Option (ι → Place τ)
  | none => if ∀ u, ¬ (threads u).blocked then some threads else none
  | some u =>
    if (threads u).blocked then some (Function.update threads u (threads u).wake) else none

/-- The loop of `get_task`, once, and what follows it.  `get_task`. -/
def get (s : State nthreads acceptors τ) (t : Fin (nthreads + acceptors))
    (wake : Option (Fin (nthreads + acceptors))) : Option (State nthreads acceptors τ) :=
  if s.queueEmpty then some { s with threads := Function.update s.threads t (.getting false) }
  else
    (signal (Function.update s.threads t .busy) wake).map fun threads =>
      { s with
        tasks_done := s.tasks_done + 1
        qhead := (s.qhead + 1) % nthreads
        handed := s.handed ++ [(t, s.task_queue s.qhead)]
        threads := threads }

/-- The loop of `dispatch`, once, and what follows it.  `dispatch`. -/
def put (s : State nthreads acceptors τ) (t : Fin (nthreads + acceptors)) (task : τ)
    (wake : Option (Fin (nthreads + acceptors))) : Option (State nthreads acceptors τ) :=
  if s.queueFull then some { s with threads := Function.update s.threads t (.putting task false) }
  else
    (signal (Function.update s.threads t .busy) wake).map fun threads =>
      { s with
        task_queue := Function.update s.task_queue s.qtail (some task)
        qtail := (s.qtail + 1) % nthreads
        dispatched := s.dispatched ++ [task]
        threads := threads }

/-- What happens: a worker calls `get_task`, a thread calls `dispatch`, a thread that was woken up
has the mutex again, a worker is done with its task, or a thread is woken up without a signal. -/
inductive Event (nthreads acceptors : ℕ) (τ : Type)
  | getTask (t : Fin (nthreads + acceptors)) (wake : Option (Fin (nthreads + acceptors)))
  | dispatch (t : Fin (nthreads + acceptors)) (task : τ)
      (wake : Option (Fin (nthreads + acceptors)))
  | resume (t : Fin (nthreads + acceptors)) (wake : Option (Fin (nthreads + acceptors)))
  | release (t : Fin (nthreads + acceptors))
  | spurious (t : Fin (nthreads + acceptors))

/-- `thread_go_proc`, `get_task`, `dispatch`. -/
def next (s : State nthreads acceptors τ) :
    Event nthreads acceptors τ → Option (State nthreads acceptors τ)
  | .getTask t wake =>
    match s.threads t with
    | .ready => get { s with tasks_done := s.tasks_done - 1 } t wake
    | _ => none
  | .dispatch t task wake =>
    match s.threads t with
    | .busy => put s t task wake
    | _ => none
  | .resume t wake =>
    match s.threads t with
    | .getting true => get s t wake
    | .putting task true => put s t task wake
    | _ => none
  | .release t =>
    match s.threads t with
    | .busy =>
      if t < nthreads then some { s with threads := Function.update s.threads t .ready }
      else none
    | _ => none
  | .spurious t =>
    if (s.threads t).blocked then
      some { s with threads := Function.update s.threads t (s.threads t).wake }
    else none

def step (s : State nthreads acceptors τ) (e : Event nthreads acceptors τ)
    (s' : State nthreads acceptors τ) : Prop :=
  next s e = some s'

/-! ## What a step does -/

variable {e : Event nthreads acceptors τ} {p : Place τ} {q : List τ}

section Outcome

variable {s s' : State nthreads acceptors τ} {t : Fin (nthreads + acceptors)}

inductive Gets (s : State nthreads acceptors τ) (t : Fin (nthreads + acceptors)) :
    State nthreads acceptors τ → Prop
  | waits (done : ℤ) : s.queueEmpty →
      Gets s t { s with
        tasks_done := done
        threads := Function.update s.threads t (.getting false) }
  | takes (done : ℤ) (wake : Option (Fin (nthreads + acceptors)))
      (threads : Fin (nthreads + acceptors) → Place τ) : ¬ s.queueEmpty →
      signal (Function.update s.threads t .busy) wake = some threads →
      Gets s t { s with
        tasks_done := done
        qhead := (s.qhead + 1) % nthreads
        handed := s.handed ++ [(t, s.task_queue s.qhead)]
        threads := threads }

inductive Puts (s : State nthreads acceptors τ) (t : Fin (nthreads + acceptors)) (task : τ) :
    State nthreads acceptors τ → Prop
  | waits : s.queueFull →
      Puts s t task { s with threads := Function.update s.threads t (.putting task false) }
  | puts (wake : Option (Fin (nthreads + acceptors)))
      (threads : Fin (nthreads + acceptors) → Place τ) : ¬ s.queueFull →
      signal (Function.update s.threads t .busy) wake = some threads →
      Puts s t task { s with
        task_queue := Function.update s.task_queue s.qtail (some task)
        qtail := (s.qtail + 1) % nthreads
        dispatched := s.dispatched ++ [task]
        threads := threads }

lemma gets_of_get (done : ℤ) {wake : Option (Fin (nthreads + acceptors))}
    (h : get { s with tasks_done := done } t wake = some s') : Gets s t s' := by
  unfold get at h
  split_ifs at h with he
  · cases h
    exact .waits done he
  · obtain ⟨threads, hs, rfl⟩ := map_eq_some_iff.mp h
    exact .takes _ wake threads he hs

lemma puts_of_put {task : τ} {wake : Option (Fin (nthreads + acceptors))}
    (h : put s t task wake = some s') : Puts s t task s' := by
  unfold put at h
  split_ifs at h with hf
  · cases h
    exact .waits hf
  · obtain ⟨threads, hs, rfl⟩ := map_eq_some_iff.mp h
    exact .puts wake threads hf hs

inductive Outcome (s : State nthreads acceptors τ) :
    Event nthreads acceptors τ → State nthreads acceptors τ → Prop
  | gets (e : Event nthreads acceptors τ) (t : Fin (nthreads + acceptors))
      (s' : State nthreads acceptors τ) :
      s.threads t = .ready ∨ s.threads t = .getting true → Gets s t s' → Outcome s e s'
  | dispatches (t : Fin (nthreads + acceptors)) (task : τ)
      (wake : Option (Fin (nthreads + acceptors))) (s' : State nthreads acceptors τ) :
      s.threads t = .busy → Puts s t task s' → Outcome s (.dispatch t task wake) s'
  | putsAgain (e : Event nthreads acceptors τ) (t : Fin (nthreads + acceptors)) (task : τ)
      (s' : State nthreads acceptors τ) :
      s.threads t = .putting task true → Puts s t task s' → Outcome s e s'
  | release (t : Fin (nthreads + acceptors)) :
      s.threads t = .busy →
      Outcome s (.release t) { s with threads := Function.update s.threads t .ready }
  | spurious (t : Fin (nthreads + acceptors)) :
      (s.threads t).blocked →
      Outcome s (.spurious t) { s with threads := Function.update s.threads t (s.threads t).wake }

lemma outcome_of_step (h : step s e s') : Outcome s e s' := by
  cases e with
  | getTask t wake =>
    simp only [step, next] at h
    split at h
    · exact .gets _ t s' (Or.inl ‹_›) (gets_of_get _ h)
    · cases h
  | dispatch t task wake =>
    simp only [step, next] at h
    split at h
    · exact .dispatches t task wake s' ‹_› (puts_of_put h)
    · cases h
  | resume t wake =>
    simp only [step, next] at h
    split at h
    · exact .gets _ t s' (Or.inr ‹_›) (gets_of_get s.tasks_done h)
    · exact .putsAgain _ t _ s' ‹_› (puts_of_put h)
    · cases h
  | release t =>
    simp only [step, next] at h
    split at h
    · split_ifs at h with hw
      cases h
      exact .release t ‹_›
    · cases h
  | spurious t =>
    simp only [step, next] at h
    split_ifs at h with hb
    cases h
    exact .spurious t hb

end Outcome

/-! ## Order -/

section Order

variable {s s' : State nthreads acceptors τ}

structure Ordered (s : State nthreads acceptors τ) (q : List τ) : Prop where
  queued : Queued nthreads s.task_queue s.qhead s.qtail q
  order : s.dispatched.map some = s.handed.map Prod.snd ++ q.map some

lemma ordered_start (hn : 0 < nthreads) : Ordered (start nthreads acceptors : State _ _ τ) [] :=
  ⟨Queued.nil hn _, rfl⟩

lemma Ordered.empty_iff (h : Ordered s q) : s.queueEmpty ↔ q = [] := h.queued.empty_iff

lemma Ordered.full_iff (h : Ordered s q) : s.queueFull ↔ q.length + 1 = nthreads :=
  h.queued.full_iff

lemma Ordered.gets {t : Fin (nthreads + acceptors)} (h : Ordered s q) (hg : Gets s t s') :
    ∃ q', Ordered s' q' ∧ s'.task_queue = s.task_queue := by
  cases hg with
  | waits done _ => exact ⟨q, ⟨h.queued, h.order⟩, rfl⟩
  | takes done wake threads he _ =>
    obtain _ | ⟨task, q⟩ := q
    · exact absurd (h.empty_iff.mpr rfl) he
    · obtain ⟨hs, hq⟩ := h.queued.take
      refine ⟨q, ⟨hq, ?_⟩, rfl⟩
      simp [h.order, hs]

lemma Ordered.puts {q : List τ} {t : Fin (nthreads + acceptors)} {task : τ} (h : Ordered s q)
    (hp : Puts s t task s') :
    ∃ q', Ordered s' q' ∧ ∀ i < q.length,
      s'.task_queue ((s.qhead + i) % nthreads) = s.task_queue ((s.qhead + i) % nthreads) := by
  cases hp with
  | waits _ => exact ⟨q, ⟨h.queued, h.order⟩, fun _ _ => rfl⟩
  | puts wake threads hf _ =>
    have hr : q.length + 1 ≠ nthreads := fun heq => hf (h.full_iff.mpr heq)
    refine ⟨q ++ [task], ⟨h.queued.put hr task, ?_⟩, fun i hi => ?_⟩
    · simp [h.order]
    · exact update_of_ne (h.queued.tail_ne hi) _ _

lemma Ordered.step (h : Ordered s q) (hst : step s e s') :
    ∃ q', Ordered s' q' ∧ ∀ i < q.length,
      s'.task_queue ((s.qhead + i) % nthreads) = s.task_queue ((s.qhead + i) % nthreads) := by
  cases outcome_of_step hst with
  | gets e t s' _ hg =>
    obtain ⟨q', ho, hs⟩ := h.gets hg
    exact ⟨q', ho, fun _ _ => by rw [hs]⟩
  | dispatches t task wake s' _ hp | putsAgain e t task s' _ hp => exact h.puts hp
  | release t _ | spurious t _ => exact ⟨q, ⟨h.queued, h.order⟩, fun _ _ => rfl⟩

lemma ordered_of_run (hn : 0 < nthreads) {es : List (Event nthreads acceptors τ)}
    (hrun : Run step (start nthreads acceptors) es s) : ∃ q, Ordered s q :=
  hrun.invariant (I := fun s => ∃ q, Ordered s q)
    (fun _ _ _ ⟨_, h⟩ hs => (h.step hs).imp fun _ h' => h'.1) ⟨[], ordered_start hn⟩

end Order

/-! ## Wake-ups -/

section Alert

variable {ι : Type} {empty full : Prop} {threads threads' : ι → Place τ}

/-- Somebody will look at the queue: it is empty, or no thread is blocked in `get_task`, or one has
been woken up there, or one has been woken up in `dispatch` and will find a free slot. -/
def Alert (empty full : Prop) (threads : ι → Place τ) : Prop :=
  empty ∨ (∀ u, threads u ≠ .getting false) ∨ (∃ u, threads u = .getting true) ∨
    ¬ full ∧ ∃ u task, threads u = .putting task true

/-- At most one thread waits in `dispatch`. -/
def OnePutting (threads : ι → Place τ) : Prop :=
  ∀ u v, (threads u).isPutting → (threads v).isPutting → u = v

variable [DecidableEq ι] {t : ι}

lemma forall_update_ne {p q : Place τ} (hp : p ≠ q) (h : ∀ u, threads u ≠ q) (u : ι) :
    update threads t p u ≠ q :=
  (forall_update_iff threads fun _ p => p ≠ q).mpr ⟨hp, fun u _ => h u⟩ u

lemma Alert.update (h : Alert empty full threads) (hold : ¬ (threads t).woken)
    (hnw : p ≠ .getting false) : Alert empty full (update threads t p) := by
  have ho {u : ι} {p' : Place τ} (hu : threads u = p') (hw : p'.woken) :
      Function.update threads t p u = p' := by
    have hne : u ≠ t := fun heq => hold (by rw [← heq, hu]; exact hw)
    rw [update_of_ne hne, hu]
  rcases h with he | hn | ⟨u, hu⟩ | ⟨hr, u, task, hu⟩
  · exact Or.inl he
  · exact Or.inr (Or.inl (forall_update_ne hnw hn))
  · exact Or.inr (Or.inr (Or.inl ⟨u, ho hu rfl⟩))
  · exact Or.inr (Or.inr (Or.inr ⟨hr, u, task, ho hu rfl⟩))

lemma Alert.putAgain {task : τ} (h : Alert empty full threads) (hf : full)
    (ht : threads t = .putting task true) :
    Alert empty full (Function.update threads t (.putting task false)) := by
  rcases h with he | hn | ⟨u, hu⟩ | ⟨hr, -⟩
  · exact Or.inl he
  · exact Or.inr (Or.inl (forall_update_ne nofun hn))
  · have hne : u ≠ t := fun heq => by
      rw [heq, ht] at hu
      cases hu
    exact Or.inr (Or.inr (Or.inl ⟨u, by rw [update_of_ne hne, hu]⟩))
  · exact absurd hf hr

lemma Place.eq_of_blocked (h : p.blocked) :
    p = .getting false ∨ ∃ task, p = .putting task false := by
  rcases p with _ | _ | (_ | _) | ⟨task, _ | _⟩
  · cases h
  · cases h
  · exact Or.inl rfl
  · cases h
  · exact Or.inr ⟨task, rfl⟩
  · cases h

lemma Place.isPutting_wake (p : Place τ) : p.wake.isPutting = p.isPutting := by
  cases p <;> rfl

lemma OnePutting.update (h : OnePutting threads)
    (hp : p.isPutting → ∀ u, u ≠ t → ¬ (threads u).isPutting) :
    OnePutting (update threads t p) := by
  intro u v hu hv
  by_cases hut : u = t
  · by_cases hvt : v = t
    · rw [hut, hvt]
    · rw [hut, update_self] at hu
      rw [update_of_ne hvt] at hv
      exact absurd hv (hp hu v hvt)
  · rw [update_of_ne hut] at hu
    by_cases hvt : v = t
    · rw [hvt, update_self] at hv
      exact absurd hu (hp hv u hut)
    · rw [update_of_ne hvt] at hv
      exact h u v hu hv

lemma OnePutting.update_of_eq (h : OnePutting threads)
    (hp : p.isPutting → (threads t).isPutting) : OnePutting (Function.update threads t p) :=
  h.update fun hpu _ hne hu => hne (h _ t hu (hp hpu))

variable [Fintype ι] {wake : Option ι}

/-- A signal wakes up a thread that is blocked in `get_task`, or one in `dispatch`, where there is
none of the former or there is a free slot. -/
lemma alert_of_signal (h : signal threads wake = some threads')
    (hp : full → ∀ u task, threads u ≠ .putting task false) : Alert empty full threads' := by
  cases wake with
  | none =>
    obtain ⟨hb, ⟨⟩⟩ := ite_none_right_eq_some.mp h
    exact Or.inr (Or.inl fun u hu => hb u (by rw [hu]; rfl))
  | some u =>
    obtain ⟨hb, ⟨⟩⟩ := ite_none_right_eq_some.mp h
    obtain hu | ⟨task, hu⟩ := eq_of_blocked hb
    · exact Or.inr (Or.inr (Or.inl ⟨u, by rw [update_self, hu]; rfl⟩))
    · refine Or.inr (Or.inr (Or.inr ⟨fun hf => hp hf u task hu, u, task, ?_⟩))
      rw [update_self, hu]
      rfl

lemma OnePutting.signal (h : OnePutting threads)
    (hs : signal threads wake = some threads') : OnePutting threads' := by
  cases wake with
  | none =>
    simp only [signal, ite_none_right_eq_some, some.injEq] at hs
    exact hs.2 ▸ h
  | some u =>
    obtain ⟨-, ⟨⟩⟩ := ite_none_right_eq_some.mp hs
    exact h.update_of_eq fun hp => isPutting_wake (threads u) ▸ hp

end Alert

/-- `dispatch` is called when no thread is waiting in it. -/
def Alone (s : State nthreads acceptors τ) : Event nthreads acceptors τ → Prop
  | .dispatch _ _ _ => ∀ u, ¬ (s.threads u).isPutting
  | _ => True

/-- The queue holds a task, every worker is blocked, and no wake-up is pending. -/
def Stuck (s : State nthreads acceptors τ) : Prop :=
  ¬ s.queueEmpty ∧ (∀ t, t < nthreads → ∀ h : t < nthreads + acceptors,
    (s.threads ⟨t, h⟩).blocked) ∧
    ∀ t, ¬ (s.threads t).woken

section Safe

variable {s s' : State nthreads acceptors τ}

/-- The invariant of the runs in which nobody calls `dispatch` while another thread waits in it. -/
structure Safe (s : State nthreads acceptors τ) : Prop where
  alert : Alert s.queueEmpty s.queueFull s.threads
  one : OnePutting s.threads

lemma safe_start : Safe (start nthreads acceptors : State _ _ τ) := by
  refine ⟨Or.inl rfl, fun u v hu => ?_⟩
  change (if (u : ℕ) < nthreads then ready else busy : Place τ).isPutting at hu
  split_ifs at hu <;> cases hu

lemma Safe.gets {t : Fin (nthreads + acceptors)} (h : Safe s) (ho : Ordered s q)
    (hg : Gets s t s') : Safe s' := by
  cases hg with
  | waits done he => exact ⟨Or.inl he, h.one.update_of_eq nofun⟩
  | takes done wake threads he hs =>
    refine ⟨alert_of_signal hs fun hf => ?_, (h.one.update_of_eq fun hp => by cases hp).signal hs⟩
    obtain _ | ⟨task, q⟩ := q
    · exact absurd (ho.empty_iff.mpr rfl) he
    · have hl : q.length + 1 = nthreads := ho.queued.take.2.full_iff.mp hf
      have hlt := ho.queued.length_lt
      rw [length_cons] at hlt
      omega

lemma Safe.puts {t : Fin (nthreads + acceptors)} {task : τ} (h : Safe s)
    (ht : s.threads t = .busy ∨ s.threads t = .putting task true)
    (ho : ∀ u, u ≠ t → ¬ (s.threads u).isPutting) (hpu : Puts s t task s') : Safe s' := by
  cases hpu with
  | waits hf =>
    refine ⟨?_, h.one.update fun _ => ho⟩
    obtain hb | hw := ht
    · exact h.alert.update (by simp [hb, woken]) (by simp)
    · exact h.alert.putAgain hf hw
  | puts wake threads hf hs =>
    refine ⟨alert_of_signal hs fun _ u task' hu => ?_,
      (h.one.update_of_eq fun hp => by cases hp).signal hs⟩
    by_cases hut : u = t
    · rw [hut, update_self] at hu
      cases hu
    · rw [update_of_ne hut] at hu
      exact ho u hut (by rw [hu]; rfl)

lemma Safe.step (h : Safe s) (ho : Ordered s q) (ha : Alone s e)
    (hs : step s e s') : Safe s' := by
  cases outcome_of_step hs with
  | gets e t s' _ hg => exact h.gets ho hg
  | dispatches t task wake s' hbu hpu =>
    exact h.puts (Or.inl hbu) (fun u _ => ha u) hpu
  | putsAgain e t task s' hw hpu =>
    refine h.puts (Or.inr hw) (fun u hne hu => hne ?_) hpu
    exact h.one u t hu (by rw [hw]; rfl)
  | release t hbu =>
    exact ⟨h.alert.update (by simp [hbu, woken]) (by simp), h.one.update_of_eq nofun⟩
  | spurious t hb =>
    have hon : OnePutting (update s.threads t (s.threads t).wake) :=
      h.one.update_of_eq fun hp => isPutting_wake (s.threads t) ▸ hp
    refine ⟨h.alert.update ?_ ?_, hon⟩
    · obtain heq | ⟨task, heq⟩ := eq_of_blocked hb <;> simp [heq, woken]
    · obtain heq | ⟨task, heq⟩ := eq_of_blocked hb <;> simp [heq, wake]

lemma Safe.not_stuck (h : Safe s) (ho : Ordered s q) : ¬ Stuck s := by
  rintro ⟨he, hb, hw⟩
  -- two workers are blocked, or there would be no room for a task
  have hl : 0 < q.length := length_pos_iff.mpr fun hni => he (ho.empty_iff.mpr hni)
  have hlt := ho.queued.length_lt
  rcases h.alert with he' | hn | ⟨u, hu⟩ | ⟨-, u, task, hu⟩
  · exact he he'
  · have hp (t : ℕ) (ht : t < nthreads) (ht' : t < nthreads + acceptors) :
        (s.threads ⟨t, ht'⟩).isPutting := by
      obtain heq | ⟨task, heq⟩ := eq_of_blocked (hb t ht ht')
      · exact absurd heq (hn _)
      · rw [heq]
        rfl
    have heq := h.one ⟨0, by omega⟩ ⟨1, by omega⟩ (hp 0 (by omega) _) (hp 1 (by omega) _)
    simp at heq
  all_goals exact hw u (by rw [hu]; rfl)

end Safe

/-- **The work queue.**  In every run the tasks that were handed out are the first ones that were
put in, in the same order; the others are in the ring, and the next step writes to none of their
slots.  If `dispatch` is not called while another thread waits in it, then no state of the run has a
task in the queue, every worker blocked and no wake-up pending. -/
theorem queue_order_and_wakeups (hn : 1 ≤ nthreads) (es : List (Event nthreads acceptors τ))
    (s : State nthreads acceptors τ) :
    (Run step (start nthreads acceptors) es s →
      ∃ q, s.dispatched.map some = s.handed.map Prod.snd ++ q.map some ∧
        Queued nthreads s.task_queue s.qhead s.qtail q ∧
        ∀ e s', step s e s' → ∀ i < q.length,
          s'.task_queue ((s.qhead + i) % nthreads) = s.task_queue ((s.qhead + i) % nthreads)) ∧
      (Run (Guarded Alone step) (start nthreads acceptors) es s → ¬ Stuck s) := by
  refine ⟨fun hrun => ?_, fun hrun => ?_⟩
  · obtain ⟨q, ho⟩ := ordered_of_run hn hrun
    refine ⟨q, ho.order, ho.queued, fun e s' hs => ?_⟩
    obtain ⟨-, -, hsl⟩ := ho.step hs
    exact hsl
  · obtain ⟨⟨q, ho⟩, hsa⟩ := hrun.invariant (I := fun s => (∃ q, Ordered s q) ∧ Safe s)
      (fun _ _ _ ⟨⟨_, ho⟩, hsa⟩ hs =>
        ⟨(ho.step hs.2).imp fun _ h => h.1, hsa.step ho hs.1 hs.2⟩)
      ⟨⟨[], ordered_start hn⟩, safe_start⟩
    exact hsa.not_stuck ho

/-- Two workers and an acceptor: the first worker waits for a task and is handed it, and the second
one is woken up for the next one, which is in the queue at the end. -/
theorem queue_order_and_wakeups_sample :
    ∃ s, Run (Guarded Alone step) (start 2 1) [.getTask 0 none, .dispatch 2 7 (some 0),
        .resume 0 none, .getTask 1 none, .dispatch 2 8 (some 1)] s ∧
      s.handed = [(0, some 7)] ∧ s.dispatched = [7, 8] ∧ ¬ s.queueEmpty ∧ ¬ Stuck s := by
  have hrun : Run (Guarded Alone step) (start 2 1) [.getTask 0 none, .dispatch 2 7 (some 0),
      .resume 0 none, .getTask 1 none, .dispatch 2 8 (some 1)] _ :=
    .cons ⟨trivial, rfl⟩ <| .cons ⟨(by simp only [Alone]; decide), rfl⟩ <|
      .cons ⟨trivial, rfl⟩ <| .cons ⟨trivial, rfl⟩ <|
      .cons ⟨(by simp only [Alone]; decide), rfl⟩ <| .nil _
  exact ⟨_, hrun, rfl, rfl, by decide, (queue_order_and_wakeups (by decide) _ _).2 hrun⟩

lemma stuck_of_replay {es : List (Event nthreads acceptors τ)}
    (h : (replay (fun _ _ => True) next (start nthreads acceptors) es).any (fun s =>
      (∀ t, (s.threads t).blocked) ∧ ¬ s.queueEmpty ∧ ∀ t, ¬ (s.threads t).woken) = true) :
    ∃ s, Run step (start nthreads acceptors) es s ∧ (∀ t, (s.threads t).blocked) ∧ Stuck s := by
  obtain ⟨s, hrun, hb, he, hw⟩ := exists_run_of_decide h
  exact ⟨s, hrun, hb, he, fun _ _ _ => hb _, hw⟩

/-- Two workers and an acceptor: both workers take a task, the acceptor puts in one more, and then
all three wait in `dispatch`.  And two workers and two acceptors, where no task puts in others: a
signal of a worker goes to the first acceptor, whose signal goes to the second one, which waits
again; both workers are waiting. -/
theorem every_thread_blocked :
    (∃ s : State 2 1 ℕ, Run step (start 2 1)
        [.dispatch 2 10 none, .getTask 0 none, .dispatch 2 11 none, .getTask 1 none,
          .dispatch 2 12 none, .dispatch 0 13 none, .dispatch 1 14 none, .dispatch 2 15 none] s ∧
      (∀ t, (s.threads t).blocked) ∧ Stuck s) ∧
    ∃ s : State 2 2 ℕ, Run step (start 2 2)
        [.getTask 0 none, .getTask 1 none, .dispatch 2 10 (some 0), .dispatch 2 11 none,
          .dispatch 3 12 none, .resume 0 (some 2), .release 0, .getTask 0 none, .resume 2 (some 3),
          .resume 3 none, .dispatch 2 13 none] s ∧
      (∀ t, (s.threads t).blocked) ∧ Stuck s := by
  refine ⟨stuck_of_replay ?_, stuck_of_replay ?_⟩
  · decide +kernel
  · decide +kernel

end Glomop.ThrQueue
