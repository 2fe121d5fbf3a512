import Mathlib

/-!
# A weighted choice

Every element of a list holds a number of tickets, numbered through from the head of the list on,
and `pick` finds the holder of a ticket.  `pick_isSome_iff` says which numbers are drawn by someone,
and `countP_pick` that an element is drawn by as many numbers as it has tickets.
-/

namespace Glomop.Lib

open Function List

variable {α : Type} (weight : α → ℕ)

def totalWeight (l : List α) : ℕ := (l.map weight).sum

def pick : List α → ℕ → Option α
  | [], _ => none
  | a :: l, ticket => if ticket < weight a then some a else pick l (ticket - weight a)

@[simp] lemma totalWeight_nil : totalWeight weight [] = 0 := rfl

@[simp] lemma totalWeight_cons (a : α) (l : List α) :
    totalWeight weight (a :: l) = weight a + totalWeight weight l :=
  sum_cons

variable {weight}

variable {l : List α}

lemma totalWeight_le {bound : ℕ} (h : ∀ a ∈ l, weight a ≤ bound) :
    totalWeight weight l ≤ bound * l.length := by
  induction l with
  | nil => exact Nat.zero_le _
  | cons a l ih =>
    obtain ⟨ha, hl⟩ := forall_mem_cons.mp h
    rw [totalWeight_cons, length_cons, Nat.mul_succ, Nat.add_comm]
    exact Nat.add_le_add (ih hl) ha

lemma pick_isSome_iff {ticket : ℕ} :
    (pick weight l ticket).isSome = true ↔ ticket < totalWeight weight l := by
  induction l generalizing ticket with
  | nil => simp [pick]
  | cons a l ih =>
    rw [pick, totalWeight_cons]
    by_cases hlt : ticket < weight a
    · rw [if_pos hlt]
      exact ⟨fun _ => by omega, fun _ => rfl⟩
    · rw [if_neg hlt, ih]
      omega

lemma pick_mem {ticket : ℕ} {a : α} (h : pick weight l ticket = some a) : a ∈ l := by
  induction l generalizing ticket with
  | nil => cases h
  | cons b l ih =>
    rw [pick] at h
    split_ifs at h
    · cases h
      exact .head _
    · exact .tail b (ih h)

/-- **Every element is drawn by as many tickets as it holds.** -/
theorem countP_pick [DecidableEq α] (hl : l.Nodup) {a : α} (ha : a ∈ l) :
    (range (totalWeight weight l)).countP (fun ticket => pick weight l ticket = some a) =
      weight a := by
  induction l with
  | nil => cases ha
  | cons b l ih =>
    obtain ⟨hb, hl⟩ := nodup_cons.mp hl
    -- the tickets of the head, and behind them those of the tail
    rw [totalWeight_cons, range_add, countP_append, countP_map]
    have hh : (range (weight b)).countP (fun ticket => pick weight (b :: l) ticket = some a) =
        (range (weight b)).countP (fun _ => b = a) := by
      refine countP_congr fun ticket ht => ?_
      rw [pick, if_pos (mem_range.mp ht)]
      simp
    have hta : (range (totalWeight weight l)).countP
          ((fun ticket => decide (pick weight (b :: l) ticket = some a)) ∘ (weight b + ·)) =
        (range (totalWeight weight l)).countP fun ticket =>
          pick weight l ticket = some a := by
      refine countP_congr fun ticket _ => ?_
      rw [comp_apply, pick, if_neg (by omega), Nat.add_sub_cancel_left]
    rw [hh, hta]
    by_cases heq : b = a
    · subst heq
      have hn : (range (totalWeight weight l)).countP
          (fun ticket => pick weight l ticket = some b) = 0 :=
        countP_eq_zero.mpr fun ticket _ hp => hb (pick_mem (of_decide_eq_true hp))
      rw [hn]
      simp
    · have hmem : a ∈ l := (mem_cons.mp ha).resolve_left (Ne.symm heq)
      rw [ih hl hmem]
      simp [heq]

end Glomop.Lib
