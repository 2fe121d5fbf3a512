import Glomop.Lib.ClassQueue
import Glomop.Lib.Run
import Glomop.Share.LinkedList

/-!
# Work queues

`ProducerConsumerQueue` has one list; `PriorityQueue` and `LotteryQueue` have one for each class of
clients.  The calls of any number of threads interleave in any way.  Each kind implements the
abstract queue of `ClassQueue` (`Queue.Implements`), and so does not lose, duplicate or reorder work
(`queue_accounted_of_run`).  Source: `ptmqueue.h`, `ptmqueue.cc`.
-/

namespace Glomop.Share

open Lib LinkedList Function List Prog

abbrev Lists (n : ℕ) (α : Type) := Fin n → LinkedList α

/-- `drand48` returns a 48-bit number, divided by `2 ^ 48`. -/
abbrev Draw := Fin (2 ^ 48)

/-- What a thread that has called `Remove` comes to before it gives the mutex back: it waits for
work, it is drawing still, or it returns work of some class. -/
inductive Removal (n : ℕ) (α : Type)
  | waits
  | draws
  | returns (which : Fin n) (work : Option α)

/-- A kind of queue.  `classOf` is the class of a client's work, which `Add` goes by; the first
argument of `add` is whether there is memory for a node; `remove` gets what `drand48` returns. -/
structure Queue (n : ℕ) (α : Type) where
  classOf : UInt32 → Fin n
  add : Bool → α → UInt32 → Prog (Lists n α) Bool
  remove : List Draw → Prog (Lists n α) (Removal n α)
  getSize : Prog (Lists n α) UInt32

section Code

variable {n : ℕ} {α β : Type}

def onList (c : Fin n) (x : ListProg α β) : Prog (Lists n α) β := fun ls =>
  (x (ls c)).map fun r => (r.1, Function.update ls c r.2)

/-! ## One list -/

namespace ProducerConsumerQueue

def add (memory : Bool) (work : α) (_client_ip : UInt32) : Prog (Lists 1 α) Bool := do
  if ← onList 0 (insertAtTail memory work) then return true
  else return false

def remove : Prog (Lists 1 α) (Removal 1 α) := do
  if ← onList 0 isEmpty then return .waits
  else
    let work ← onList 0 removeFromHead
    return .returns 0 work

def getSize : Prog (Lists 1 α) UInt32 := onList 0 LinkedList.getSize

end ProducerConsumerQueue

def producerConsumerQueue : Queue 1 α where
  classOf _ := 0
  add := ProducerConsumerQueue.add
  remove _ := ProducerConsumerQueue.remove
  getSize := ProducerConsumerQueue.getSize

/-! ## Three lists

`Add` and `getSize` are the same in the two classes. -/

local instance neZero3 : NeZero 3 := ⟨by decide⟩

def theList (h_ip : UInt32) : Fin 3 :=
  if h_ip = 2149590592 then 0
  else if h_ip = 2149590593 then 1
  else 2

/-- The sizes of the lists, which are read at the end of `Add` and of `Remove` and not used. -/
def lengths : Prog (Lists 3 α) Unit := do
  let _highlen ← onList 0 LinkedList.getSize
  let _medlen ← onList 1 LinkedList.getSize
  let _lowlen ← onList 2 LinkedList.getSize

/-- The condition of the loop around `Wait`. -/
def allEmpty : Prog (Lists 3 α) Bool := do
  if ← onList 0 isEmpty then
    if ← onList 1 isEmpty then onList 2 isEmpty
    else return false
  else return false

/-- The loop around `Wait`, and what comes after it. -/
def waitThen (removal : Prog (Lists 3 α) (Removal 3 α)) : Prog (Lists 3 α) (Removal 3 α) := do
  if ← allEmpty then return .waits
  else removal

def takeFrom (c : Fin 3) : Prog (Lists 3 α) (Removal 3 α) := do
  let work ← onList c removeFromHead
  lengths
  return .returns c work

def takeFromOr (c : Fin 3) (other : Prog (Lists 3 α) (Removal 3 α)) :
    Prog (Lists 3 α) (Removal 3 α) := do
  if !(← onList c isEmpty) then takeFrom c
  else other

def addByClass (memory : Bool) (work : α) (h_ip : UInt32) : Prog (Lists 3 α) Bool := do
  if ← onList (theList h_ip) (insertAtTail memory work) then
    lengths
    return true
  else return false

def sumOfSizes : Prog (Lists 3 α) UInt32 := do
  let high ← onList 0 LinkedList.getSize
  let med ← onList 1 LinkedList.getSize
  let low ← onList 2 LinkedList.getSize
  return high + med + low

/-! `ntohl` is a function of the host: the identity, or the one that turns the bytes round. -/

variable (ntohl : UInt32 → UInt32)

namespace PriorityQueue

def add (memory : Bool) (work : α) (client_ip : UInt32) : Prog (Lists 3 α) Bool :=
  addByClass memory work (ntohl client_ip)

def remove : Prog (Lists 3 α) (Removal 3 α) :=
  waitThen <| takeFromOr 0 <| takeFromOr 1 <| takeFrom 2

def getSize : Prog (Lists 3 α) UInt32 := sumOfSizes

end PriorityQueue

def priorityQueue : Queue 3 α where
  classOf client_ip := theList (ntohl client_ip)
  add := PriorityQueue.add ntohl
  remove _ := PriorityQueue.remove
  getSize := PriorityQueue.getSize

namespace LotteryQueue

/-- `LotteryQueue::LotteryQueue`. -/
def tickets : Fin 3 → ℚ := ![80, 60, 10]

/-- `LotteryQueue::LotteryQueue`. -/
def tickTotal : ℚ := 150

/-- The class that is drawn.  The source compares doubles; no 48-bit fraction is as near to `8 / 15`
or to `14 / 15` as these are to the doubles next to them, so that rounding makes no difference.
`LotteryQueue::Remove`. -/
def which (draw : Draw) : Fin 3 :=
  let randnum : ℚ := (draw : ℕ) / 2 ^ 48
  if randnum ≤ tickets 0 / tickTotal then 0
  else if randnum ≤ (tickets 0 + tickets 1) / tickTotal then 1
  else 2

def add (memory : Bool) (work : α) (client_ip : UInt32) : Prog (Lists 3 α) Bool :=
  addByClass memory work (ntohl client_ip)

/-- The loop that draws until there is work of the class that is drawn.  `LotteryQueue::Remove`. -/
def drawing : List Draw → Prog (Lists 3 α) (Removal 3 α)
  | [] => return .draws
  | draw :: draws => takeFromOr (which draw) (drawing draws)

def remove (draws : List Draw) : Prog (Lists 3 α) (Removal 3 α) := waitThen (drawing draws)

def getSize : Prog (Lists 3 α) UInt32 := sumOfSizes

end LotteryQueue

def lotteryQueue : Queue 3 α where
  classOf client_ip := theList (ntohl client_ip)
  add := LotteryQueue.add ntohl
  remove := LotteryQueue.remove
  getSize := LotteryQueue.getSize

end Code

/-! ## Threads -/

/-- A queue, the threads that wait for work, and the thread that is drawing, which has the mutex;
and what has been added and removed so far. -/
structure QueueSystem (n : ℕ) (α : Type) where
  classLists : Lists n α
  waiting : List ℕ
  drawing : Option ℕ
  added : List (Fin n × α)
  removed : List (Fin n × α)

/-- A thread calls `Add` or `Remove`, or it wakes up in `Wait` (after a `Signal` or for no
reason). -/
inductive QueueEvent (α : Type)
  | add (thread : ℕ) (work : α) (client_ip : UInt32) (memory : Bool)
  | remove (thread : ℕ) (draws : List Draw)
  | wake (thread : ℕ) (draws : List Draw)

namespace QueueSystem

variable {n : ℕ} {α : Type}

def new : QueueSystem n α := ⟨fun _ => .new, [], none, [], []⟩

def Possible (s : QueueSystem n α) : QueueEvent α → Prop
  | .add thread _ _ _ => s.drawing = none ∧ thread ∉ s.waiting
  | .remove thread _ => s.drawing = none ∧ thread ∉ s.waiting
  | .wake thread _ => s.drawing = none ∧ thread ∈ s.waiting

instance (s : QueueSystem n α) : DecidablePred s.Possible
  | .add _ _ _ _ => inferInstanceAs (Decidable (_ ∧ _))
  | .remove _ _ => inferInstanceAs (Decidable (_ ∧ _))
  | .wake _ _ => inferInstanceAs (Decidable (_ ∧ _))

end QueueSystem

namespace Queue

variable {n : ℕ} {α : Type}

/-- A thread goes through `Remove` until it gives the mutex back. -/
def attempt (q : Queue n α) (s : QueueSystem n α) (thread : ℕ) (draws : List Draw) :
    Option (QueueSystem n α) := do
  let (removal, classLists) ← q.remove draws s.classLists
  match removal with
  | .waits => some { s with classLists, waiting := thread :: s.waiting.erase thread }
  | .draws =>
    some { s with classLists, waiting := s.waiting.erase thread, drawing := some thread }
  | .returns c work => work.map fun work =>
    { s with
      classLists
      waiting := s.waiting.erase thread
      removed := s.removed ++ [(c, work)] }

def next (q : Queue n α) (s : QueueSystem n α) : QueueEvent α → Option (QueueSystem n α)
  | .add _ work client_ip memory => do
    let (added, classLists) ← q.add memory work client_ip s.classLists
    some { s with
      classLists
      added := if added then s.added ++ [(q.classOf client_ip, work)] else s.added }
  | .remove thread draws => q.attempt s thread draws
  | .wake thread draws => q.attempt s thread draws

def step (q : Queue n α) : QueueSystem n α → QueueEvent α → QueueSystem n α → Prop :=
  Guarded QueueSystem.Possible fun s e s' => q.next s e = some s'

end Queue

/-! ## What the functions do to the queued items -/

section Lists

variable {n : ℕ} {α β : Type} {ls : Lists n α} {queued : Fin n → List α} {c : Fin n}

def HoldAll (ls : Lists n α) (queued : Fin n → List α) : Prop := ∀ c, (ls c).Ready (queued c)

lemma HoldAll.update (h : HoldAll ls queued) {l : LinkedList α} {ds : List α} (hl : l.Ready ds) :
    HoldAll (update ls c l) (update queued c ds) := by
  intro c'
  by_cases hc : c' = c
  · subst hc
    rwa [update_self, update_self]
  · rw [update_of_ne hc, update_of_ne hc]
    exact h c'

lemma onList_run {x : ListProg α β} {r : β} {l : LinkedList α} (h : x (ls c) = some (r, l)) :
    onList c x ls = some (r, update ls c l) := by
  rw [onList, h]
  rfl

lemma onList_read {x : ListProg α β} {r : β} (h : x (ls c) = some (r, ls c)) :
    onList c x ls = some (r, ls) := by
  rw [onList_run h, update_eq_self]

section

variable (h : HoldAll ls queued)

include h

lemma HoldAll.isEmpty (c : Fin n) :
    onList c isEmpty ls = some ((queued c).isEmpty, ls) :=
  onList_read (isEmpty_run (h c))

lemma HoldAll.getSize (c : Fin n) :
    onList c getSize ls = some (UInt32.ofNat (queued c).length, ls) :=
  onList_read (getSize_run (h c))

lemma HoldAll.insertAtTail_false (c : Fin n) (work : α) :
    onList c (insertAtTail false work) ls = some (false, ls) :=
  onList_read (insertAtTail_run (h c) work).1

lemma HoldAll.insertAtTail_true (c : Fin n) (work : α) :
    ∃ ls', onList c (insertAtTail true work) ls = some (true, ls') ∧
      HoldAll ls' (Function.update queued c (queued c ++ [work])) := by
  obtain ⟨l, hrun, hr⟩ := (insertAtTail_run (h c) work).2
  exact ⟨_, onList_run hrun, h.update hr⟩

lemma HoldAll.removeFromHead {work : α} {rest : List α} (hf : queued c = work :: rest) :
    ∃ ls', onList c removeFromHead ls = some (some work, ls') ∧
      HoldAll ls' (Function.update queued c rest) := by
  have hr := h c
  rw [hf] at hr
  obtain ⟨l, hrun, hr'⟩ := removeFromHead_run hr
  exact ⟨_, onList_run hrun, h.update hr'⟩

end

end Lists

section ThreeLists

variable {α : Type} {ls : Lists 3 α} {queued : Fin 3 → List α} {c : Fin 3}

section

variable (h : HoldAll ls queued)

include h

lemma HoldAll.lengths : lengths ls = some ((), ls) :=
  (bind_run (h.getSize 0) _).trans ((bind_run (h.getSize 1) _).trans (bind_run (h.getSize 2) _))

lemma HoldAll.takeFrom {work : α} {rest : List α} (hf : queued c = work :: rest) :
    ∃ ls', takeFrom c ls = some (.returns c (some work), ls') ∧
      HoldAll ls' (Function.update queued c rest) := by
  obtain ⟨ls', hrun, hh⟩ := h.removeFromHead hf
  exact ⟨ls', (bind_run hrun _).trans (bind_run hh.lengths _), hh⟩

lemma HoldAll.allEmpty :
    allEmpty ls =
      some ((queued 0).isEmpty && (queued 1).isEmpty && (queued 2).isEmpty, ls) := by
  refine (bind_run (h.isEmpty 0) _).trans ?_
  cases (queued 0).isEmpty with
  | false => rfl
  | true =>
    refine (bind_run (h.isEmpty 1) _).trans ?_
    cases (queued 1).isEmpty with
    | false => rfl
    | true => exact h.isEmpty 2

lemma HoldAll.sumOfSizes :
    sumOfSizes ls = some (UInt32.ofNat (∑ c, (queued c).length), ls) := by
  refine (bind_run (h.getSize 0) _).trans ((bind_run (h.getSize 1) _).trans
    ((bind_run (h.getSize 2) _).trans ?_))
  rw [Fin.sum_univ_three, UInt32.ofNat_add, UInt32.ofNat_add]
  rfl

end

end ThreeLists

/-! ## The three kinds implement the abstract queue -/

section Implements

variable {n : ℕ} {α : Type}

/-- What `Remove` may come to, by the items that are queued and the classes that may be taken
from. -/
inductive Served (allows : Fin n → Prop) (queued : Fin n → List α) :
    Removal n α → Lists n α → Prop
  | waits {ls : Lists n α} : (∀ c, queued c = []) → HoldAll ls queued →
      Served allows queued .waits ls
  | draws {ls : Lists n α} : HoldAll ls queued → Served allows queued .draws ls
  | returns {ls : Lists n α} {c : Fin n} {work : α} {rest : List α} :
      queued c = work :: rest → allows c → HoldAll ls (Function.update queued c rest) →
      Served allows queued (.returns c (some work)) ls

structure Queue.Implements (q : Queue n α) (allows : (Fin n → List α) → Fin n → Prop) : Prop where
  add_false : ∀ {ls queued}, HoldAll ls queued → ∀ work client_ip,
    q.add false work client_ip ls = some (false, ls)
  add_true : ∀ {ls queued}, HoldAll ls queued → ∀ work client_ip,
    ∃ ls', q.add true work client_ip ls = some (true, ls') ∧
      HoldAll ls' (Function.update queued (q.classOf client_ip)
        (queued (q.classOf client_ip) ++ [work]))
  remove : ∀ {ls queued}, HoldAll ls queued → ∀ draws,
    ∃ removal ls', q.remove draws ls = some (removal, ls') ∧
      Served (allows queued) queued removal ls'
  getSize : ∀ {ls queued}, HoldAll ls queued →
    q.getSize ls = some (UInt32.ofNat (∑ c, (queued c).length), ls)

end Implements

section Kinds

variable {α : Type}

lemma producerConsumerQueue_implements {allows : (Fin 1 → List α) → Fin 1 → Prop}
    (ha : ∀ queued c, allows queued c) : producerConsumerQueue.Implements allows where
  add_false h work _ := bind_run (h.insertAtTail_false 0 work) _
  add_true h work _ := by
    obtain ⟨ls', hrun, hh⟩ := h.insertAtTail_true 0 work
    exact ⟨ls', bind_run hrun _, hh⟩
  remove {ls queued} h _ := by
    have he := h.isEmpty 0
    cases hq : queued 0 with
    | nil =>
      rw [hq] at he
      refine ⟨.waits, ls, bind_run he _, .waits (fun c => ?_) h⟩
      rwa [Subsingleton.elim c 0]
    | cons work rest =>
      rw [hq] at he
      obtain ⟨ls', hrun, hh⟩ := h.removeFromHead hq
      exact ⟨_, ls', (bind_run he _).trans (bind_run hrun _), .returns hq (ha _ _) hh⟩
  getSize h := by
    rw [Fin.sum_univ_one]
    exact h.getSize 0

variable {ls : Lists 3 α} {queued : Fin 3 → List α} {allows : Fin 3 → Prop}

lemma HoldAll.addByClass_false (h : HoldAll ls queued) (work : α) (h_ip : UInt32) :
    addByClass false work h_ip ls = some (false, ls) :=
  bind_run (h.insertAtTail_false (theList h_ip) work) _

lemma HoldAll.addByClass_true (h : HoldAll ls queued) (work : α) (h_ip : UInt32) :
    ∃ ls', addByClass true work h_ip ls = some (true, ls') ∧
      HoldAll ls' (Function.update queued (theList h_ip) (queued (theList h_ip) ++ [work])) := by
  obtain ⟨ls', hrun, hh⟩ := h.insertAtTail_true (theList h_ip) work
  exact ⟨ls', (bind_run hrun _).trans (bind_run hh.lengths _), hh⟩

lemma queued_eq_nil (h0 : queued 0 = []) (h1 : queued 1 = []) (h2 : queued 2 = []) :
    ∀ c, queued c = [] :=
  Fin.forall_fin_succ.mpr ⟨h0, Fin.forall_fin_two.mpr ⟨h1, h2⟩⟩

section

variable (h : HoldAll ls queued)

include h

lemma HoldAll.waitThen_nil (he : ∀ c, queued c = [])
    (removal : Prog (Lists 3 α) (Removal 3 α)) : waitThen removal ls = some (.waits, ls) := by
  have ha := h.allEmpty
  rw [he 0, he 1, he 2] at ha
  exact bind_run ha _

lemma HoldAll.waitThen_cons (hs : ¬ ∀ c, queued c = [])
    (removal : Prog (Lists 3 α) (Removal 3 α)) : waitThen removal ls = removal ls := by
  have ha := h.allEmpty
  have hf : ((queued 0).isEmpty && (queued 1).isEmpty && (queued 2).isEmpty) = false := by
    rw [Bool.eq_false_iff]
    intro ht
    simp only [Bool.and_eq_true, List.isEmpty_iff] at ht
    obtain ⟨⟨h0, h1⟩, h2⟩ := ht
    exact hs (queued_eq_nil h0 h1 h2)
  rw [hf] at ha
  exact bind_run ha _

lemma HoldAll.takeFromOr_nil {c : Fin 3} (hn : queued c = [])
    (other : Prog (Lists 3 α) (Removal 3 α)) : takeFromOr c other ls = other ls := by
  have he := h.isEmpty c
  rw [hn] at he
  exact bind_run he _

lemma HoldAll.takeFromOr_cons {c : Fin 3} {work : α} {rest : List α}
    (hf : queued c = work :: rest) (other : Prog (Lists 3 α) (Removal 3 α)) :
    ∃ ls', takeFromOr c other ls = some (.returns c (some work), ls') ∧
      HoldAll ls' (Function.update queued c rest) := by
  have he := h.isEmpty c
  rw [hf] at he
  obtain ⟨ls', hrun, hh⟩ := h.takeFrom hf
  exact ⟨ls', (bind_run he _).trans hrun, hh⟩

lemma HoldAll.takeFirst (hs : ¬ ∀ c, queued c = [])
    (ha : ∀ c, (∀ c' < c, queued c' = []) → allows c) :
    ∃ removal ls', (takeFromOr 0 <| takeFromOr 1 <| Share.takeFrom 2) ls = some (removal, ls') ∧
      Served allows queued removal ls' := by
  cases h0 : queued 0 with
  | cons work rest =>
    obtain ⟨ls', hrun, hh⟩ := h.takeFromOr_cons h0 (takeFromOr 1 <| Share.takeFrom 2)
    refine ⟨_, ls', hrun, .returns h0 (ha 0 fun c hc => ?_) hh⟩
    exact absurd hc (Fin.not_lt_zero c)
  | nil =>
    rw [h.takeFromOr_nil h0]
    cases h1 : queued 1 with
    | cons work rest =>
      obtain ⟨ls', hrun, hh⟩ := h.takeFromOr_cons h1 (Share.takeFrom 2)
      refine ⟨_, ls', hrun, .returns h1 (ha 1 fun c hc => ?_) hh⟩
      obtain rfl : c = 0 := by omega
      exact h0
    | nil =>
      rw [h.takeFromOr_nil h1]
      cases h2 : queued 2 with
      | cons work rest =>
        obtain ⟨ls', hrun, hh⟩ := h.takeFrom h2
        refine ⟨_, ls', hrun, .returns h2 (ha 2 fun c hc => ?_) hh⟩
        obtain rfl | rfl : c = 0 ∨ c = 1 := by omega
        · exact h0
        · exact h1
      | nil => exact absurd (queued_eq_nil h0 h1 h2) hs

lemma HoldAll.drawing (ha : ∀ c, allows c) (draws : List Draw) :
    ∃ removal ls', LotteryQueue.drawing draws ls = some (removal, ls') ∧
      Served allows queued removal ls' := by
  induction draws with
  | nil => exact ⟨.draws, ls, rfl, .draws h⟩
  | cons draw draws ih =>
    rw [LotteryQueue.drawing]
    cases hq : queued (LotteryQueue.which draw) with
    | nil => rwa [h.takeFromOr_nil hq]
    | cons work rest =>
      obtain ⟨ls', hrun, hh⟩ := h.takeFromOr_cons hq (LotteryQueue.drawing draws)
      exact ⟨_, ls', hrun, .returns hq (ha _) hh⟩

lemma HoldAll.waitThen {removal : Prog (Lists 3 α) (Removal 3 α)}
    (hr : (¬ ∀ c, queued c = []) →
      ∃ r ls', removal ls = some (r, ls') ∧ Served allows queued r ls') :
    ∃ r ls', waitThen removal ls = some (r, ls') ∧ Served allows queued r ls' := by
  by_cases he : ∀ c, queued c = []
  · exact ⟨.waits, ls, h.waitThen_nil he removal, .waits he h⟩
  · rw [h.waitThen_cons he]
    exact hr he

end

variable {ntohl : UInt32 → UInt32} {mayTake : (Fin 3 → List α) → Fin 3 → Prop}

lemma priorityQueue_implements (ha : ∀ queued c, (∀ c' < c, queued c' = []) → mayTake queued c) :
    (priorityQueue ntohl).Implements mayTake where
  add_false h work _ := h.addByClass_false work _
  add_true h work _ := h.addByClass_true work _
  remove h _ := h.waitThen fun hs => h.takeFirst hs (ha _)
  getSize h := h.sumOfSizes

lemma lotteryQueue_implements (ha : ∀ queued c, mayTake queued c) :
    (lotteryQueue ntohl).Implements mayTake where
  add_false h work _ := h.addByClass_false work _
  add_true h work _ := h.addByClass_true work _
  remove h draws := h.waitThen fun _ => h.drawing (ha _) draws
  getSize h := h.sumOfSizes

end Kinds

/-! ## The system refines the abstract queue -/

section Refinement

variable {n : ℕ} {α : Type} {q : Queue n α} {allows : (Fin n → List α) → Fin n → Prop}
  {s s' : QueueSystem n α} {a : ClassQueue (Fin n) α}

structure QueueSystem.Represents (s : QueueSystem n α) (a : ClassQueue (Fin n) α) : Prop where
  holds : HoldAll s.classLists a.queued
  added : s.added = a.added
  removed : s.removed = a.removed

inductive Refined (allows : (Fin n → List α) → Fin n → Prop) (a : ClassQueue (Fin n) α)
    (s' : QueueSystem n α) : Prop
  | stays : s'.Represents a → Refined allows a s'
  | puts (c : Fin n) (work : α) : s'.Represents (a.put c work) → Refined allows a s'
  | takes (c : Fin n) (work : α) (rest : List α) : a.queued c = work :: rest →
      allows a.queued c → s'.Represents (a.take c work rest) → Refined allows a s'

lemma Queue.Implements.attempt (hq : q.Implements allows) (h : s.Represents a) (thread : ℕ)
    (draws : List Draw) : ∃ s', q.attempt s thread draws = some s' ∧ Refined allows a s' := by
  obtain ⟨removal, ls, hrun, hs⟩ := hq.remove h.holds draws
  rw [Queue.attempt, hrun]
  cases hs with
  | waits _ hh | draws hh => exact ⟨_, rfl, .stays ⟨hh, h.added, h.removed⟩⟩
  | returns hf ha hh =>
    refine ⟨_, rfl, .takes _ _ _ hf ha ⟨hh, h.added, ?_⟩⟩
    exact congrArg (· ++ _) h.removed

/-- **Every event has a next state**, whose abstract queue comes from the one before. -/
theorem Queue.Implements.next (hq : q.Implements allows) (h : s.Represents a) (e : QueueEvent α) :
    ∃ s', q.next s e = some s' ∧ Refined allows a s' := by
  cases e with
  | remove thread draws | wake thread draws => exact hq.attempt h thread draws
  | add thread work client_ip memory =>
    cases memory with
    | false =>
      rw [Queue.next, hq.add_false h.holds]
      exact ⟨_, rfl, .stays ⟨h.holds, h.added, h.removed⟩⟩
    | true =>
      obtain ⟨ls, hrun, hh⟩ := hq.add_true h.holds work client_ip
      rw [Queue.next, hrun]
      refine ⟨_, rfl, .puts (q.classOf client_ip) work ⟨hh, ?_, h.removed⟩⟩
      exact congrArg (· ++ _) h.added

lemma Queue.Implements.step (hq : q.Implements allows) (h : s.Represents a) {e : QueueEvent α}
    (hs : q.step s e s') : Refined allows a s' := by
  obtain ⟨s1, hn, hr⟩ := hq.next h e
  cases hn.symm.trans hs.2
  exact hr

lemma Refined.exists_inOrder (h : Refined allows a s') (ha : a.InOrder) :
    ∃ a', s'.Represents a' ∧ a'.InOrder := by
  cases h with
  | stays hs' => exact ⟨a, hs', ha⟩
  | puts c work hs' => exact ⟨_, hs', ha.put c work⟩
  | takes c work rest hf _ hs' => exact ⟨_, hs', ha.take hf⟩

lemma represents_new : (QueueSystem.new : QueueSystem n α).Represents .new :=
  ⟨fun _ => ready_new, rfl, rfl⟩

lemma Queue.Implements.run (hq : q.Implements allows) {es : List (QueueEvent α)}
    (h : Run q.step .new es s) : ∃ a, s.Represents a ∧ a.InOrder := by
  refine h.invariant (I := fun s => ∃ a, s.Represents a ∧ a.InOrder) ?_
    ⟨.new, represents_new, ClassQueue.inOrder_new⟩
  rintro s e s' ⟨a, hs, ha⟩ hst
  exact (hq.step hs hst).exists_inOrder ha

lemma Refined.allows_of_removed (h : Refined allows a s') (hs : s.Represents a) {c : Fin n}
    {work : α} (hr : s'.removed = s.removed ++ [(c, work)]) : allows a.queued c := by
  have hl : a.removed ≠ a.removed ++ [(c, work)] := by simp
  rw [hs.removed] at hr
  cases h with
  | stays hs' | puts _ _ hs' => exact absurd (hs'.removed.symm.trans hr) hl
  | takes c' work' rest hf ha hs' =>
    have hsa := append_cancel_left (hs'.removed.symm.trans hr)
    obtain ⟨rfl, -⟩ := Prod.mk.inj (singleton_inj.mp hsa)
    exact ha

end Refinement

/-! ## Nothing is lost, duplicated or reordered -/

inductive Discipline
  | producerConsumer
  | priority
  | lottery

namespace Discipline

variable {α : Type}

def classes : Discipline → ℕ
  | .producerConsumer => 1
  | .priority => 3
  | .lottery => 3

def queue (ntohl : UInt32 → UInt32) : (d : Discipline) → Queue d.classes α
  | .producerConsumer => producerConsumerQueue
  | .priority => priorityQueue ntohl
  | .lottery => lotteryQueue ntohl

def Allows (d : Discipline) (queued : Fin d.classes → List α) (c : Fin d.classes) : Prop :=
  d = .priority → ∀ c' < c, queued c' = []

lemma implements (d : Discipline) (ntohl : UInt32 → UInt32) :
    (d.queue ntohl : Queue d.classes α).Implements d.Allows := by
  cases d with
  | producerConsumer => exact producerConsumerQueue_implements nofun
  | priority => exact priorityQueue_implements fun _ _ hf _ => hf
  | lottery => exact lotteryQueue_implements nofun

/-- What should hold in a state, where the items `queued` are still queued: in each class what was
removed followed by what is queued is what was added, in this order, and in a
`ProducerConsumerQueue` this is so of all items; altogether, what was removed and what is queued is
what was added; `getSize` is the number of items added and not removed; a `PriorityQueue` removes
nothing from a class while a class before it has items; and every call does its work, without
reading a node that is not there or traversing a list twice. -/
structure Accounted (d : Discipline) (ntohl : UInt32 → UInt32) (s : QueueSystem d.classes α)
    (queued : Fin d.classes → List α) : Prop where
  holds : HoldAll s.classLists queued
  inOrder : ∀ c, inClass c s.removed ++ queued c = inClass c s.added
  inOrder_all : d = .producerConsumer → ∀ c,
    s.removed.map Prod.snd ++ queued c = s.added.map Prod.snd
  conserved : (s.removed.map Prod.snd : Multiset α) + ∑ c, (queued c : Multiset α) =
    (s.added.map Prod.snd : List α)
  removed_le : s.removed.length ≤ s.added.length
  size : (d.queue ntohl).getSize s.classLists =
    some (UInt32.ofNat (s.added.length - s.removed.length), s.classLists)
  priority : d = .priority → ∀ e s' c work, (d.queue ntohl).step s e s' →
    s'.removed = s.removed ++ [(c, work)] → ∀ c' < c, queued c' = []
  returns : ∀ e, s.Possible e → ∃ s', (d.queue ntohl).step s e s'

variable {d : Discipline} {ntohl : UInt32 → UInt32} {s : QueueSystem d.classes α}

lemma inOrder_all_of_inOrder {a : ClassQueue (Fin d.classes) α} (h : a.InOrder)
    (hd : d = .producerConsumer) (c : Fin d.classes) :
    a.removed.map Prod.snd ++ a.queued c = a.added.map Prod.snd := by
  subst hd
  have : Subsingleton (Fin (classes .producerConsumer)) := inferInstanceAs (Subsingleton (Fin 1))
  have hc := h c
  rwa [inClass_of_subsingleton, inClass_of_subsingleton] at hc

lemma accounted_of_represents {a : ClassQueue (Fin d.classes) α} (h : s.Represents a)
    (ha : a.InOrder) : Accounted d ntohl s a.queued := by
  have hq : (d.queue ntohl : Queue d.classes α).Implements d.Allows := implements d ntohl
  have hl := ha.length_queued
  constructor
  case holds => exact h.holds
  case inOrder =>
    rw [h.removed, h.added]
    exact ha
  case inOrder_all =>
    rw [h.removed, h.added]
    exact inOrder_all_of_inOrder ha
  case conserved =>
    rw [h.removed, h.added]
    exact ha.conserved
  case removed_le =>
    rw [h.removed, h.added]
    omega
  case size =>
    rw [hq.getSize h.holds, h.removed, h.added, ← hl, Nat.add_sub_cancel_left]
  case priority =>
    intro hd e s' c work hs hr
    exact (hq.step h hs).allows_of_removed h hr hd
  case returns =>
    intro e hp
    obtain ⟨s', hn, _⟩ := hq.next h e
    exact ⟨s', hp, hn⟩

/-- **Work queues** neither lose nor duplicate nor reorder, whatever any number of threads do and
whatever is drawn. -/
theorem queue_accounted_of_run {es : List (QueueEvent α)} (h : Run (d.queue ntohl).step .new es s) :
    ∃ queued, Accounted d ntohl s queued := by
  obtain ⟨a, hs, ha⟩ := (implements d ntohl).run h
  exact ⟨a.queued, accounted_of_represents hs ha⟩

/-- A thread waits; three items are added, two of one class; and the thread, which draws a class
that has no item and then this one, gets its first item. -/
theorem accounted_of_run_lottery :
    ∃ s, Run (queue id .lottery).step .new [.remove 1 [], .add 2 10 7 true,
        .add 3 20 2149590593 true, .add 2 30 7 true, .wake 1 [0, Fin.last _]] s ∧
      (s.removed.map (fun e => (e.1.val, e.2)) = [(2, 10)] ∧
        s.added.map (fun e => (e.1.val, e.2)) = [(2, 10), (1, 20), (2, 30)]) ∧
      ∃ queued, Accounted .lottery id s queued := by
  exact (exists_guarded_of_decide (by decide +kernel)).imp fun s h =>
    ⟨h.1, h.2, queue_accounted_of_run h.1⟩

end Discipline

end Glomop.Share
