import Mathlib

/-!
# Bucket tables

A table of `n` lists.  What it holds is the concatenation of the lists (`entries`), and the changes
made to one bucket are changes of `entries` up to order.  That every element is where it belongs
(`Placed`) makes a search in one bucket a search of the whole table (`mem_bucket_iff`).
-/

namespace Glomop.Lib

open Function List

/-- A table of `n` lists. -/
abbrev Buckets (n : ℕ) (α : Type) := Fin n → List α

namespace Buckets

variable {n : ℕ} {α : Type}

def entries (b : Buckets n α) : List α := (List.finRange n).flatMap b

def others (b : Buckets n α) (i : Fin n) : List α := ((List.finRange n).erase i).flatMap b

variable {a : α} {b : Buckets n α} {i : Fin n}

@[simp] lemma mem_entries : a ∈ b.entries ↔ ∃ i, a ∈ b i := by
  simp [entries]

lemma mem_others : a ∈ b.others i ↔ ∃ j ≠ i, a ∈ b j := by
  simp [others, Nodup.mem_erase_iff (nodup_finRange n)]

@[simp] lemma entries_empty : entries (fun _ : Fin n => ([] : List α)) = [] := by
  simp [entries]

lemma entries_perm (b : Buckets n α) (i : Fin n) : b.entries.Perm (b i ++ b.others i) := by
  have hp := perm_cons_erase (mem_finRange i)
  exact hp.flatMap_right b

@[simp] lemma others_update (b : Buckets n α) (i : Fin n) (l : List α) :
    others (update b i l) i = b.others i := by
  refine flatMap_congr fun j hj => ?_
  have hne : j ≠ i := ((nodup_finRange n).mem_erase_iff.mp hj).1
  rw [update_of_ne hne]

def push (b : Buckets n α) (i : Fin n) (a : α) : Buckets n α := Function.update b i (a :: b i)

lemma entries_update (b : Buckets n α) (i : Fin n) (l : List α) :
    (entries (update b i l)).Perm (l ++ b.others i) := by
  have hn := entries_perm (update b i l) i
  rwa [update_self, others_update] at hn

lemma entries_push (b : Buckets n α) (i : Fin n) (a : α) :
    (b.push i a).entries.Perm (a :: b.entries) :=
  (entries_update b i (a :: b i)).trans ((entries_perm b i).symm.cons a)

def pushBack (b : Buckets n α) (i : Fin n) (a : α) : Buckets n α :=
  Function.update b i (b i ++ [a])

lemma entries_pushBack (b : Buckets n α) (i : Fin n) (a : α) :
    (b.pushBack i a).entries.Perm (a :: b.entries) := by
  refine (entries_update b i (b i ++ [a])).trans ?_
  rw [append_assoc, singleton_append]
  exact perm_middle.trans ((entries_perm b i).symm.cons a)

def pop (b : Buckets n α) (i : Fin n) : Option (α × Buckets n α) :=
  match b i with
  | [] => none
  | a :: l => some (a, Function.update b i l)

lemma entries_pop {b' : Buckets n α} (h : b.pop i = some (a, b')) :
    b.entries.Perm (a :: b'.entries) := by
  unfold pop at h
  split at h
  next => exact nomatch h
  next a' l hb =>
    obtain ⟨rfl, rfl⟩ := Prod.mk.inj (Option.some.inj h)
    refine (entries_perm b i).trans ?_
    rw [hb, cons_append]
    exact ((entries_update b i l).symm).cons a'

section Pull

variable [DecidableEq α]

def pull (b : Buckets n α) (i : Fin n) (a : α) : Buckets n α :=
  Function.update b i ((b i).erase a)

@[simp] lemma pull_push (b : Buckets n α) (i : Fin n) (a : α) : (b.push i a).pull i a = b := by
  simp [pull, push]

lemma entries_pull (h : a ∉ b.others i) : (b.pull i a).entries.Perm (b.entries.erase a) := by
  have hn := entries_update b i ((b i).erase a)
  have he : (b i ++ b.others i).erase a = (b i).erase a ++ b.others i := by
    by_cases ha : a ∈ b i
    · exact erase_append_left _ ha
    · rw [erase_append_right _ ha, erase_of_not_mem h, erase_of_not_mem ha]
  exact hn.trans (he ▸ ((entries_perm b i).erase a).symm)

end Pull

/-! ## Elements that are where they belong -/

/-- Every element is in the bucket that `place` gives for it. -/
def Placed (place : α → Option (Fin n)) (b : Buckets n α) : Prop :=
  ∀ i, ∀ a ∈ b i, place a = some i

namespace Placed

variable {place : α → Option (Fin n)} {b : Buckets n α} {i : Fin n} {a : α}

lemma not_mem_others (h : b.Placed place) (ha : place a = some i) : a ∉ b.others i := by
  intro hmem
  obtain ⟨j, hne, hj⟩ := mem_others.mp hmem
  exact hne (Option.some.inj ((h j a hj).symm.trans ha))

lemma mem_bucket_iff (h : b.Placed place) (ha : place a = some i) : a ∈ b i ↔ a ∈ b.entries := by
  constructor
  · intro hmem
    exact mem_entries.mpr ⟨i, hmem⟩
  · intro hmem
    obtain ⟨j, hj⟩ := mem_entries.mp hmem
    cases ha.symm.trans (h j a hj)
    exact hj

lemma push (h : b.Placed place) (ha : place a = some i) : (b.push i a).Placed place := by
  intro j c hc
  by_cases hj : j = i
  · subst hj
    rw [push, update_self] at hc
    rcases mem_cons.mp hc with rfl | hc
    · exact ha
    · exact h j c hc
  · rw [Buckets.push, update_of_ne hj] at hc
    exact h j c hc

lemma pull [DecidableEq α] (h : b.Placed place) (i : Fin n) (a : α) :
    (b.pull i a).Placed place := by
  intro j c hc
  by_cases hj : j = i
  · subst hj
    rw [Buckets.pull, update_self] at hc
    exact h j c (mem_of_mem_erase hc)
  · rw [Buckets.pull, update_of_ne hj] at hc
    exact h j c hc

end Placed

end Buckets

end Glomop.Lib
