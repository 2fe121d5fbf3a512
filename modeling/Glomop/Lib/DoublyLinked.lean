import Mathlib

/-!
# Doubly linked lists in memory

A node of a doubly linked list holds a value and the addresses of the nodes after and before it.
A list of addresses and values stands for the nodes in their order, and `Rep cell prev l` says that
the memory `cell` holds them, linked to each other, with `prev` before the first.

A list that is used as a queue changes at its ends: `rep_concat` links a new node behind the last
one, and `Rep.setPrev` makes what is behind the first node a list of its own.
-/

namespace Glomop.Lib

open List

variable {α : Type}

@[ext] structure DNode (α : Type) where
  value : α
  next : Option ℕ
  prev : Option ℕ
deriving DecidableEq

namespace DNode

def setNext (n : DNode α) (p : Option ℕ) : DNode α := { n with next := p }

def setPrev (n : DNode α) (p : Option ℕ) : DNode α := { n with prev := p }

end DNode

namespace DList

variable {cell cell' : ℕ → Option (DNode α)} {l : List (ℕ × α)} {prev prev' : Option ℕ} {a : ℕ}

def first (l : List (ℕ × α)) : Option ℕ := l.head?.map Prod.fst

def last (l : List (ℕ × α)) : Option ℕ := l.getLast?.map Prod.fst

def addrs (l : List (ℕ × α)) : List ℕ := l.map Prod.fst

lemma last_cons_cons (e e' : ℕ × α) : last (e :: e' :: l) = last (e' :: l) := by
  rw [last, getLast?_cons_cons, last]

lemma last_concat (a : ℕ) (v : α) : last (l ++ [(a, v)]) = some a := by simp [last]

lemma mem_addrs_of_last (h : last l = some a) : a ∈ addrs l := by
  obtain ⟨e, he, rfl⟩ := Option.map_eq_some_iff.mp h
  exact mem_map_of_mem (mem_of_getLast? he)

def Rep (cell : ℕ → Option (DNode α)) : Option ℕ → List (ℕ × α) → Prop
  | _, [] => True
  | prev, (a, v) :: l => cell a = some ⟨v, first l, prev⟩ ∧ Rep cell (some a) l

section

variable (h : Rep cell prev l)

include h

lemma Rep.frame (hs : ∀ a ∈ addrs l, cell' a = cell a) : Rep cell' prev l := by
  induction l generalizing prev with
  | nil => trivial
  | cons e l ih =>
    obtain ⟨hf, hr⟩ := forall_mem_cons.mp hs
    exact ⟨hf.trans h.1, ih h.2 hr⟩

lemma Rep.exists_cell (ha : a ∈ addrs l) : ∃ n, cell a = some n := by
  induction l generalizing prev with
  | nil => cases ha
  | cons e l ih =>
    rcases mem_cons.mp ha with rfl | ha
    · exact ⟨_, h.1⟩
    · exact ih h.2 ha

lemma Rep.exists_last (ha : last l = some a) : ∃ n, cell a = some n ∧ n.next = none := by
  induction l generalizing prev with
  | nil => cases ha
  | cons e l ih =>
    cases l with
    | nil =>
      obtain rfl : e.1 = a := Option.some.inj ha
      exact ⟨_, h.1, rfl⟩
    | cons e' l => exact ih h.2 (last_cons_cons e e' ▸ ha)

/-- **A node is linked behind the last one.** -/
theorem rep_concat {b : ℕ} {v : α} (hn : (addrs l).Nodup)
    (hnw : cell' b = some ⟨v, none, (last l).or prev⟩)
    (hold : ∀ a ∈ addrs l,
      cell' a = if last l = some a then (cell a).map (·.setNext (some b)) else cell a) :
    Rep cell' prev (l ++ [(b, v)]) := by
  induction l generalizing prev with
  | nil => exact ⟨hnw, trivial⟩
  | cons e l ih =>
    obtain ⟨hf, hr⟩ := forall_mem_cons.mp hold
    obtain ⟨hne, hn⟩ := nodup_cons.mp hn
    cases l with
    | nil =>
      have hf := hf.trans (if_pos rfl)
      rw [h.1] at hf
      exact ⟨hf, hnw, trivial⟩
    | cons e' l =>
      rw [last_cons_cons] at hnw hf
      rw [if_neg fun hl => hne (mem_addrs_of_last hl), h.1] at hf
      refine ⟨hf, ih h.2 hn ?_ ?_⟩
      · rw [hnw]
        cases hl : last (e' :: l) with
        | none => simp [last, getLast?_cons] at hl
        | some c => rfl
      · intro a ha
        rw [hr a ha, last_cons_cons]

lemma Rep.setPrev (hn : (addrs l).Nodup)
    (hm : ∀ a ∈ addrs l,
      cell' a = if first l = some a then (cell a).map (·.setPrev prev') else cell a) :
    Rep cell' prev' l := by
  cases l with
  | nil => trivial
  | cons e l =>
    obtain ⟨hf, hr⟩ := forall_mem_cons.mp hm
    have hf := hf.trans (if_pos rfl)
    rw [h.1] at hf
    refine ⟨hf, h.2.frame fun b hb => ?_⟩
    have hne : some e.1 ≠ some b := fun heq => (nodup_cons.mp hn).1 (Option.some.inj heq ▸ hb)
    exact (hr b hb).trans (if_neg hne)

end

end DList

end Glomop.Lib
