import Mathlib

/-!
# Queues whose items belong to classes

A queue that serves each class of items in order, and the classes in any order.  `InOrder`: in each
class, what was taken out followed by what is queued is what was put in.  Over all classes nothing
is lost or duplicated (`InOrder.conserved`).
-/

namespace Glomop.Lib

open Function List

variable {ι α : Type} [DecidableEq ι]

def inClass (c : ι) (l : List (ι × α)) : List α :=
  l.filterMap fun e => if e.1 = c then some e.2 else none

lemma inClass_append (c : ι) (l l' : List (ι × α)) :
    inClass c (l ++ l') = inClass c l ++ inClass c l' :=
  filterMap_append

lemma inClass_concat_self (c : ι) (l : List (ι × α)) (x : α) :
    inClass c (l ++ [(c, x)]) = inClass c l ++ [x] := by
  rw [inClass_append]
  simp [inClass]

lemma inClass_concat_of_ne {c c' : ι} (h : c' ≠ c) (l : List (ι × α)) (x : α) :
    inClass c (l ++ [(c', x)]) = inClass c l := by
  rw [inClass_append]
  simp [inClass, h]

lemma inClass_of_subsingleton [Subsingleton ι] (c : ι) (l : List (ι × α)) :
    inClass c l = l.map Prod.snd := by
  have ha : (fun e : ι × α => if e.1 = c then some e.2 else none) = fun e => some e.2 := by
    funext e
    rw [if_pos (Subsingleton.elim _ _)]
  rw [inClass, ha]
  exact congrFun filterMap_eq_map l

lemma sum_inClass [Fintype ι] (l : List (ι × α)) :
    ∑ c, (inClass c l : Multiset α) = (l.map Prod.snd : List α) := by
  induction l with
  | nil => simp [inClass]
  | cons e l ih =>
    have hco : ∀ c, (inClass c (e :: l) : Multiset α) =
        (if e.1 = c then {e.2} else 0) + (inClass c l : Multiset α) := by
      intro c
      by_cases hc : e.1 = c <;> simp [inClass, hc]
    simp only [hco, Finset.sum_add_distrib, ih, Finset.sum_ite_eq, Finset.mem_univ, if_true]
    rfl

structure ClassQueue (ι α : Type) where
  queued : ι → List α
  added : List (ι × α)
  removed : List (ι × α)

namespace ClassQueue

def new : ClassQueue ι α := ⟨fun _ => [], [], []⟩

def put (q : ClassQueue ι α) (c : ι) (x : α) : ClassQueue ι α where
  queued := Function.update q.queued c (q.queued c ++ [x])
  added := q.added ++ [(c, x)]
  removed := q.removed

/-- Take the first item of a class, which leaves `rest` there. -/
def take (q : ClassQueue ι α) (c : ι) (x : α) (rest : List α) : ClassQueue ι α where
  queued := Function.update q.queued c rest
  added := q.added
  removed := q.removed ++ [(c, x)]

def InOrder (q : ClassQueue ι α) : Prop :=
  ∀ c, inClass c q.removed ++ q.queued c = inClass c q.added

variable {q : ClassQueue ι α}

lemma inOrder_new : (new : ClassQueue ι α).InOrder := fun _ => rfl

lemma InOrder.put (h : q.InOrder) (c : ι) (x : α) : (q.put c x).InOrder := by
  intro c'
  change inClass c' q.removed ++ update q.queued c _ c' = inClass c' (q.added ++ [(c, x)])
  by_cases hc : c = c'
  · subst hc
    rw [update_self, inClass_concat_self, ← h c, append_assoc]
  · rw [update_of_ne (Ne.symm hc), inClass_concat_of_ne hc, h c']

lemma InOrder.take (h : q.InOrder) {c : ι} {x : α} {rest : List α}
    (hf : q.queued c = x :: rest) : (q.take c x rest).InOrder := by
  intro c'
  change inClass c' (q.removed ++ [(c, x)]) ++ update q.queued c rest c' = inClass c' q.added
  by_cases hc : c = c'
  · subst hc
    rw [update_self, inClass_concat_self, ← h c, hf, append_assoc]
    rfl
  · rw [update_of_ne (Ne.symm hc), inClass_concat_of_ne hc, h c']

/-- **Nothing is lost and nothing is duplicated.** -/
theorem InOrder.conserved [Fintype ι] (h : q.InOrder) :
    (q.removed.map Prod.snd : Multiset α) + ∑ c, (q.queued c : Multiset α) =
      (q.added.map Prod.snd : List α) := by
  rw [← sum_inClass, ← sum_inClass, ← Finset.sum_add_distrib]
  refine Finset.sum_congr rfl fun c _ => ?_
  rw [← h c, Multiset.coe_add]

lemma InOrder.length_queued [Fintype ι] (h : q.InOrder) :
    q.removed.length + ∑ c, (q.queued c).length = q.added.length := by
  have hc := congrArg Multiset.card h.conserved
  rw [Multiset.card_add, Multiset.card_sum] at hc
  simpa using hc

end ClassQueue

end Glomop.Lib
