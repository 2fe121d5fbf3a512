import Glomop.Lib.DoublyLinked
import Glomop.Lib.Heap
import Glomop.Lib.Prog

/-!
# The linked list

`List<T>` is a doubly linked list with a counter, and `LockingList<T>` the same under a mutex.
`Ready s ds` says that a list has the elements `ds` and is not being traversed; every function takes
such a list to another one (`insertAtTail_run`, `removeFromHead_run`).  The nodes of a list are its
own, so that each list has a heap here.  Source: `linkedlist.h`.
-/

namespace Glomop.Share

open Lib DList Heap Prog UInt32
open List hiding get modify set

/-- `class List`. -/
structure LinkedList (α : Type) where
  heap : Heap (DNode α)
  head : Option ℕ
  tail : Option ℕ
  count : UInt32
  isTraversing : Bool

abbrev ListProg (α : Type) := Prog (LinkedList α)

namespace LinkedList

variable {α β : Type}

/-- `List::List`. -/
def new : LinkedList α := ⟨.empty, none, none, 0, false⟩

def deref (a : ℕ) : ListProg α (DNode α) := do
  let s ← get
  ofOption (s.heap.cell a)

def assign (a : ℕ) (f : DNode α → DNode α) : ListProg α Unit := do
  let n ← deref a
  modify fun s => { s with heap := s.heap.set a (f n) }

/-- Assign to fields of a node, if the pointer is not `NULL`. -/
def assignIf (r : Option ℕ) (f : DNode α → DNode α) : ListProg α Unit :=
  match r with
  | none => pure ()
  | some a => assign a f

def beginTraversal : ListProg α Unit := do
  let s ← get
  if s.isTraversing then fault else set { s with isTraversing := true }

def endTraversal : ListProg α Unit := do
  let s ← get
  if s.isTraversing then set { s with isTraversing := false } else fault

/-- A function between `BeginTraversal` and `EndTraversal`. -/
def traversing (x : ListProg α β) : ListProg α β := do
  beginTraversal
  let returnValue ← x
  endTraversal
  return returnValue

def isEmpty : ListProg α Bool := traversing do
  let s ← get
  return s.head.isNone && s.tail.isNone

def getSize : ListProg α UInt32 := traversing do
  let s ← get
  return s.count

/-- Put a new node behind the node `idx`, or at the head if that is `NULL`.  `memory`: `new` returns
a node. -/
def insertAfter_WithNULL (memory : Bool) (idx : Option ℕ) (data : α) : ListProg α Bool := do
  if memory then
    let s ← get
    let newNode := s.heap.next
    set { s with heap := s.heap.alloc ⟨data, none, none⟩ }
    match idx with
    | none =>
      assign newNode (·.setNext s.head)
      assignIf s.head (·.setPrev (some newNode))
      modify fun s => { s with
        head := some newNode
        tail := if s.tail = none then some newNode else s.tail }
    | some node =>
      let n ← deref node
      let nextNode := n.next
      assign node (·.setNext (some newNode))
      assign newNode fun m => (m.setNext nextNode).setPrev (some node)
      assignIf nextNode (·.setPrev (some newNode))
      modify fun s => { s with tail := if nextNode = none then some newNode else s.tail }
    modify fun s => { s with count := s.count + 1 }
    return true
  else
    return false

def insertAtTail (memory : Bool) (data : α) : ListProg α Bool := traversing do
  let s ← get
  insertAfter_WithNULL memory s.tail data

def remove_ (idx : Option ℕ) : ListProg α Unit := do
  let s ← get
  match idx with
  | none => pure ()
  | some node =>
    if s.head = none ∧ s.tail = none then pure ()
    else
      let n ← deref node
      let prevNode := n.prev
      let nextNode := n.next
      assignIf prevNode (·.setNext nextNode)
      assignIf nextNode (·.setPrev prevNode)
      modify fun s => { s with
        heap := s.heap.free node
        head := if prevNode = none then nextNode else s.head
        tail := if nextNode = none then prevNode else s.tail
        count := s.count - 1 }

/-- The element that was removed, or `NULL`. -/
def removeFromHead : ListProg α (Option α) := traversing do
  let s ← get
  match s.head with
  | none => return none
  | some node =>
    let n ← deref node
    remove_ (some node)
    return some n.value

/-! ## Reading and writing nodes -/

section Nodes

variable {s s' : LinkedList α} {a : ℕ} {f : DNode α → DNode α} {n : DNode α}

lemma deref_run (h : s.heap.cell a = some n) : deref a s = some (n, s) :=
  (get_bind_run s _).trans (ofOption_eq_some.mpr ⟨h, rfl⟩)

lemma assign_run (h : s.heap.cell a = some n) :
    assign a f s = some ((), { s with heap := s.heap.set a (f n) }) :=
  bind_run (deref_run h) _

lemma traversing_run {x : ListProg α β} {r : β} (hi : s.isTraversing = false)
    (hx : x { s with isTraversing := true } = some (r, s')) (hs' : s'.isTraversing = true) :
    traversing x s = some (r, { s' with isTraversing := false }) := by
  have hb : (beginTraversal : ListProg α Unit) s = some ((), { s with isTraversing := true }) := by
    refine (get_bind_run s _).trans ?_
    rw [if_neg (by simp [hi])]
    rfl
  have he : (endTraversal : ListProg α Unit) s' = some ((), { s' with isTraversing := false }) := by
    refine (get_bind_run s' _).trans ?_
    rw [if_pos hs']
    rfl
  exact (bind_run hb _).trans ((bind_run hx _).trans (bind_run he _))

end Nodes

/-! ## The list behind the nodes -/

/-- The nodes `l` are in memory, in this order. -/
structure Holds (s : LinkedList α) (l : List (ℕ × α)) : Prop where
  rep : Rep s.heap.cell none l
  nodup : (addrs l).Nodup
  head : s.head = first l
  tail : s.tail = last l
  count : s.count = UInt32.ofNat l.length

section Holds

variable {s : LinkedList α} {l : List (ℕ × α)} {a : ℕ} {v data : α}

lemma Holds.next_not_mem (h : s.Holds l) : s.heap.next ∉ addrs l := by
  intro hmem
  obtain ⟨n, hn⟩ := h.rep.exists_cell hmem
  exact lt_irrefl _ (lt_next_of_cell hn)

lemma count_succ (n : ℕ) : ofNat n + 1 = ofNat (n + 1) := (ofNat_add n 1).symm

lemma Holds.concat {s' : LinkedList α} (h : s.Holds l)
    (hn : s'.heap.cell s.heap.next = some ⟨data, none, last l⟩)
    (hold : ∀ b ∈ addrs l, s'.heap.cell b =
      if last l = some b then (s.heap.cell b).map (·.setNext (some s.heap.next))
      else s.heap.cell b)
    (hh : s'.head = first (l ++ [(s.heap.next, data)])) (ht : s'.tail = some s.heap.next)
    (hc : s'.count = s.count + 1) : s'.Holds (l ++ [(s.heap.next, data)]) where
  rep := rep_concat h.rep h.nodup (by rw [hn, Option.or_none]) hold
  nodup := by
    rw [addrs, map_append]
    exact nodup_append_comm.mp (nodup_cons.mpr ⟨h.next_not_mem, h.nodup⟩)
  head := hh
  tail := ht.trans (last_concat _ _).symm
  count := by rw [hc, h.count, count_succ, length_append, length_singleton]

/-- **Insertion** at the tail. -/
theorem Holds.insert_tail (h : s.Holds l) (data : α) :
    ∃ s', insertAfter_WithNULL true s.tail data s = some (true, s') ∧
      s'.Holds (l ++ [(s.heap.next, data)]) ∧ s'.isTraversing = s.isTraversing := by
  let heap1 := s.heap.alloc ⟨data, none, none⟩
  have hnw : heap1.cell s.heap.next = some ⟨data, none, none⟩ := alloc_cell_next
  have hs : insertAfter_WithNULL true s.tail data s = _ := (get_bind_run s _).trans (bind_run rfl _)
  rw [hs]
  dsimp only
  cases ht : s.tail with
  | none =>
    obtain rfl : l = [] := by
      have hl := h.tail.symm.trans ht
      rwa [last, Option.map_eq_none_iff, List.getLast?_eq_none_iff] at hl
    have hh : s.head = none := h.head
    rw [hh]
    refine ⟨_, bind_run (assign_run hnw) _, h.concat ?_ (by rintro _ ⟨⟩) rfl rfl rfl, rfl⟩
    exact set_cell_self hnw
  | some a =>
    have hl : last l = some a := h.tail.symm.trans ht
    have hne : ∀ b ∈ addrs l, b ≠ s.heap.next := fun b hb heq => h.next_not_mem (heq ▸ hb)
    have ha := hne a (mem_addrs_of_last hl)
    obtain ⟨⟨v, _, prev⟩, hn, rfl⟩ := h.rep.exists_last hl
    have hn1 : heap1.cell a = some ⟨v, none, prev⟩ := (alloc_cell_of_ne ha).trans hn
    let heap2 := heap1.set a ⟨v, some s.heap.next, prev⟩
    have hn2 : heap2.cell s.heap.next = some ⟨data, none, none⟩ :=
      (set_cell_of_ne ha.symm).trans hnw
    refine ⟨{ s with
        heap := heap2.set s.heap.next ⟨data, none, some a⟩
        tail := some s.heap.next
        count := s.count + 1 }, ?_, h.concat ?_ (fun b hb => ?_) ?_ rfl rfl, rfl⟩
    · refine (bind_run (deref_run hn1) _).trans ((bind_run (assign_run hn1) _).trans ?_)
      refine (bind_run (assign_run (s := { s with heap := heap2, tail := some a }) hn2) _).trans ?_
      rfl
    · rw [set_cell_self hn2, hl]
    · rw [set_cell_of_ne (hne b hb), hl]
      by_cases hba : b = a
      · rw [hba, set_cell_self hn1, if_pos rfl, hn]
        rfl
      · rw [set_cell_of_ne hba, if_neg fun heq => hba (Option.some.inj heq).symm]
        exact alloc_cell_of_ne (hne b hb)
    · rw [h.head]
      cases l with
      | nil => cases hl
      | cons e l => rfl

/-- **Removal** at the head. -/
theorem Holds.remove_head (h : s.Holds ((a, v) :: l)) :
    ∃ s', remove_ (some a) s = some ((), s') ∧ s'.Holds l ∧ s'.isTraversing = s.isTraversing := by
  obtain ⟨hnd, hr⟩ := h.rep
  obtain ⟨ha, hno⟩ := nodup_cons.mp h.nodup
  have hne : ∀ b ∈ addrs l, b ≠ a := fun b hb heq => ha (heq ▸ hb)
  have hco : s.count - 1 = ofNat l.length := by
    rw [h.count, length_cons, ← count_succ, UInt32.add_sub_cancel]
  have hh : s.head = some a := h.head
  have hs : remove_ (some a) s = _ := get_bind_run s _
  rw [hs]
  dsimp only
  rw [if_neg (by rw [hh]; exact nofun), bind_run (deref_run hnd)]
  cases l with
  | nil =>
    exact ⟨{ s with heap := s.heap.free a, head := none, tail := none, count := s.count - 1 },
      rfl, ⟨trivial, hno, rfl, rfl, hco⟩, rfl⟩
  | cons e l =>
    obtain ⟨b, w⟩ := e
    obtain ⟨n, hn⟩ : ∃ n, s.heap.cell b = some n := ⟨_, hr.1⟩
    refine ⟨{ s with
        heap := (s.heap.set b (n.setPrev none)).free a
        head := some b
        count := s.count - 1 }, ?_,
      ⟨hr.setPrev hno fun c hc => ?_, hno, rfl, ?_, hco⟩, rfl⟩
    · have hnx : assignIf none (·.setNext (some b)) s = some ((), s) := rfl
      have hp : assignIf (some b) (·.setPrev none) s = _ := assign_run hn
      exact (bind_run hnx _).trans (bind_run hp _)
    · rw [free_cell_of_ne (hne c hc)]
      by_cases hcb : c = b
      · rw [hcb, set_cell_self hn, hn]
        exact (if_pos rfl).symm
      · rw [set_cell_of_ne hcb]
        exact (if_neg fun heq => hcb (Option.some.inj heq).symm).symm
    · exact h.tail.trans (last_cons_cons _ _)

end Holds

/-! ## The elements -/

def Ready (s : LinkedList α) (ds : List α) : Prop :=
  s.isTraversing = false ∧ ∃ l, s.Holds l ∧ l.map Prod.snd = ds

section Ready

variable {s : LinkedList α} {ds : List α}

lemma ready_new : (new : LinkedList α).Ready [] :=
  ⟨rfl, [], ⟨trivial, nodup_nil, rfl, rfl, rfl⟩, rfl⟩

lemma Holds.isTraversing {l : List (ℕ × α)} (h : s.Holds l) (b : Bool) :
    Holds { s with isTraversing := b } l :=
  ⟨h.rep, h.nodup, h.head, h.tail, h.count⟩

lemma idle_eq (h : s.isTraversing = false) : { s with isTraversing := false } = s := by
  rw [← h]

lemma isEmpty_run (h : s.Ready ds) : isEmpty s = some (ds.isEmpty, s) := by
  obtain ⟨hi, l, hl, rfl⟩ := h
  have he : (s.head.isNone && s.tail.isNone) = (l.map Prod.snd).isEmpty := by
    rw [hl.head, hl.tail]
    cases l <;> simp [first, last, List.getLast?_cons]
  refine (traversing_run hi (get_bind_run _ _) rfl).trans ?_
  exact congrArg some (Prod.ext he (idle_eq hi))

lemma getSize_run (h : s.Ready ds) : getSize s = some (ofNat ds.length, s) := by
  obtain ⟨hi, l, hl, rfl⟩ := h
  refine (traversing_run hi (get_bind_run _ _) rfl).trans ?_
  rw [length_map]
  exact congrArg some (Prod.ext hl.count (idle_eq hi))

/-- **`InsertAtTail`.** -/
theorem insertAtTail_run (h : s.Ready ds) (data : α) :
    insertAtTail false data s = some (false, s) ∧
      ∃ s', insertAtTail true data s = some (true, s') ∧ s'.Ready (ds ++ [data]) := by
  obtain ⟨hi, l, hl, rfl⟩ := h
  constructor
  · refine (traversing_run hi (get_bind_run _ _) rfl).trans ?_
    exact congrArg some (Prod.ext rfl (idle_eq hi))
  · obtain ⟨s', hrun, hh, ht⟩ := (hl.isTraversing true).insert_tail data
    refine ⟨{ s' with isTraversing := false }, ?_, rfl, _, hh.isTraversing false, by simp⟩
    exact traversing_run hi ((get_bind_run _ _).trans hrun) ht

/-- **`RemoveFromHead`.** -/
theorem removeFromHead_run {d : α} (h : s.Ready (d :: ds)) :
    ∃ s', removeFromHead s = some (some d, s') ∧ s'.Ready ds := by
  obtain ⟨hi, l, hl, hds⟩ := h
  obtain ⟨⟨a, v⟩, l', rfl, rfl, rfl⟩ := map_eq_cons_iff.mp hds
  have hl' := hl.isTraversing true
  obtain ⟨s', hrun, hh, ht⟩ := hl'.remove_head
  have hhe : s.head = some a := hl.head
  have hb : (do
      let n ← deref a
      remove_ (some a)
      return some n.value : ListProg α (Option α)) { s with isTraversing := true } =
      some (some v, s') :=
    (bind_run (deref_run hl'.rep.1) _).trans (bind_run hrun _)
  refine ⟨{ s' with isTraversing := false }, ?_, rfl, l', hh.isTraversing false, rfl⟩
  refine traversing_run hi ((get_bind_run _ _).trans ?_) ht
  dsimp only
  rw [hhe] at hb ⊢
  exact hb

end Ready

end LinkedList

end Glomop.Share
