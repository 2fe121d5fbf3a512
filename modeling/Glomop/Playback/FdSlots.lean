import Glomop.Lib.DoublyLinked

/-!
# The slots of the file descriptors

A simulated client that needs a descriptor gets the slot at the end of a list, which is moved to the
front.  `tail` is not moved with it: the same slot is taken by every call, and from the second one on
it is linked to itself.
Source: `simclient.c`.
-/

namespace Glomop.Playback

open Lib DList List

def NUM_FDS_USED : ℕ := 30

/-- The slots by their numbers, each with `entry_with_fd`, and `is_fd_valid` of the clients; what is
open, and where it is read, is left out. -/
structure SimclientList where
  fdBufPtrs : ℕ → Option (DNode (Option ℕ))
  head : ℕ
  tail : ℕ
  isFdValid : ℕ → Bool
  /-- The slots that were assigned, the last one first. -/
  assigned : List ℕ

namespace SimclientList

def initListOClients : SimclientList where
  fdBufPtrs i := if i < NUM_FDS_USED then
    some ⟨none, if i ≠ NUM_FDS_USED - 1 then some (i + 1) else none,
      if i ≠ 0 then some (i - 1) else none⟩ else none
  head := 0
  tail := NUM_FDS_USED - 1
  isFdValid _ := false
  assigned := []

def assign (s : SimclientList) (a : ℕ) (f : DNode (Option ℕ) → DNode (Option ℕ)) : SimclientList :=
  { s with fdBufPtrs := fun b => if b = a then (s.fdBufPtrs b).map f else s.fdBufPtrs b }

/-- `none`: a pointer that is not to a slot is dereferenced. -/
def getFdForClient (client : ℕ) (s : SimclientList) : Option SimclientList :=
  if s.isFdValid client then some s
  else do
    let fdTmp := s.tail
    let el ← s.fdBufPtrs fdTmp
    let prev ← el.prev
    let s1 := ((s.assign prev (·.setNext none)).assign fdTmp (·.setNext (some s.head))).assign s.head
      (·.setPrev (some fdTmp))
    let isFdValid := match el.value with
      | some tmpE => Function.update s.isFdValid tmpE false
      | none => s.isFdValid
    return { s1.assign fdTmp ({ · with value := some client }) with
      head := fdTmp
      isFdValid := Function.update isFdValid client true
      assigned := fdTmp :: s.assigned }

/-- A call, or the end of a client's file, where `suck_in_buffer_data` closes the descriptor. -/
inductive Event
  | call (client : ℕ)
  | restart (client : ℕ)

def step (s : SimclientList) : Event → Option SimclientList
  | .call client => s.getFdForClient client
  | .restart client => some { s with isFdValid := Function.update s.isFdValid client false }

/-- The list holds each slot once, linked in both directions, from `head` to `tail`. -/
def WellFormed (s : SimclientList) : Prop :=
  ∃ l, Rep s.fdBufPtrs none l ∧ (addrs l).Perm (range NUM_FDS_USED) ∧ first l = some s.head ∧
    last l = some s.tail

/-- Each slot was the least recently assigned one when it was assigned. -/
def LeastRecent (s : SimclientList) : Prop :=
  ∀ newer slot older, s.assigned = newer ++ slot :: older →
    ∀ other < NUM_FDS_USED, older.idxOf other ≤ older.idxOf slot

variable {s s' : SimclientList} {client : ℕ}

/-- **A call that assigns a slot leaves `head` at the slot that `tail` stays at.** -/
lemma head_of_call (hv : s.isFdValid client = false) (h : s.getFdForClient client = some s') :
    s'.head = s'.tail := by
  rw [getFdForClient, if_neg (by simp [hv])] at h
  obtain ⟨el, -, h⟩ := Option.bind_eq_some_iff.mp h
  obtain ⟨p, -, h⟩ := Option.bind_eq_some_iff.mp h
  cases h
  rfl

lemma head_of_run {es : List Event} (hh : s.head = s.tail) (h : es.foldlM step s = some s') :
    s'.head = s'.tail := by
  induction es generalizing s with
  | nil =>
    cases h
    exact hh
  | cons e es ih =>
    obtain ⟨s1, h1, h⟩ := Option.bind_eq_some_iff.mp h
    refine ih ?_ h
    cases e with
    | restart client =>
      cases h1
      exact hh
    | call client =>
      by_cases hv : s.isFdValid client = true
      · cases (if_pos hv).symm.trans h1
        exact hh
      · exact head_of_call (Bool.eq_false_iff.mpr hv) h1

lemma wellFormed_init : initListOClients.WellFormed := by
  refine ⟨(range NUM_FDS_USED).map fun i => (i, none), ?_, by decide, rfl, rfl⟩
  simp [DList.Rep, first, initListOClients, NUM_FDS_USED, range, range.loop]

lemma not_wellFormed (hh : s.head = s.tail) : ¬ s.WellFormed := by
  rintro ⟨l, -, hp, hf, hl⟩
  have hlen := hp.length_eq
  have hn := hp.nodup_iff.mpr nodup_range
  rcases l with _ | ⟨e, _ | ⟨e', l⟩⟩
  · cases hf
  · cases hlen
  · have he : last (e' :: l) = some e.1 := by
      rw [hh, ← hl] at hf
      simpa [first, last] using hf.symm
    exact (nodup_cons.mp hn).1 (mem_addrs_of_last he)

/-- **The list is right only before the first call.** -/
theorem fd_slots_iff (es : List Event) :
    (∃ s, es.foldlM step initListOClients = some s ∧ s.WellFormed ∧ s.LeastRecent) ↔
      ∀ client, .call client ∉ es := by
  induction es with
  | nil =>
    refine iff_of_true ⟨_, rfl, wellFormed_init, fun newer slot older he => ?_⟩ fun _ => not_mem_nil
    simp [initListOClients] at he
  | cons e es ih =>
    cases e with
    | restart client =>
      have hs : initListOClients.step (.restart client) = some initListOClients := by
        simp [step, initListOClients]
      rw [foldlM_cons, hs]
      simpa using ih
    | call client =>
      refine iff_of_false ?_ fun h => h client (.head _)
      rintro ⟨s, h, hw, -⟩
      rw [foldlM_cons] at h
      obtain ⟨s1, h1, h⟩ := Option.bind_eq_some_iff.mp h
      exact not_wellFormed (head_of_run (head_of_call (s := initListOClients) rfl h1) h) hw

/-- Two clients get one slot, which is linked to itself. -/
theorem fd_slots_looped :
    ([.call 1, .call 2].foldlM step initListOClients).map
      (fun s => (s.assigned, (s.fdBufPtrs s.head).map DNode.next, s.head)) =
    some ([29, 29], some (some 29), 29) := by
  decide +kernel

end SimclientList

end Glomop.Playback
