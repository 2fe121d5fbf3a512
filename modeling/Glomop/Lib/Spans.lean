import Mathlib

/-!
# Spans

A scanner cuts a list where a predicate stops to hold.  `exists_span` is the cut, and
`takeWhile_append_stop` and `dropWhile_append_stop` evaluate `takeWhile` and `dropWhile` on a list
that is already cut there.  `trim` takes what satisfies a predicate away at both ends.
`splitOn_induction` goes through a text piece by piece, from separator to separator.
-/

namespace Glomop.Lib

open List

variable {α : Type} {p : α → Bool} {a b l : List α}

def Stops (p : α → Bool) (l : List α) : Prop := ∀ x ∈ l.head?, p x = false

lemma stops_nil : Stops p [] := nofun

lemma stops_cons {x : α} : Stops p (x :: l) ↔ p x = false := by
  simp [Stops]

lemma Stops.append (ha : Stops p a) (hb : Stops p b) : Stops p (a ++ b) := by
  cases a with
  | nil => exact hb
  | cons x a => exact stops_cons.mpr (stops_cons.mp ha)

lemma takeWhile_append_stop (ha : ∀ x ∈ a, p x = true) (hb : Stops p b) :
    (a ++ b).takeWhile p = a := by
  rw [takeWhile_append_of_pos ha]
  cases b with
  | nil => simp
  | cons x b => simp [stops_cons.mp hb]

lemma dropWhile_append_stop (ha : ∀ x ∈ a, p x = true) (hb : Stops p b) :
    (a ++ b).dropWhile p = b := by
  rw [dropWhile_append_of_pos ha]
  cases b with
  | nil => rfl
  | cons x b => rw [dropWhile_cons_of_neg (by simp [stops_cons.mp hb])]

lemma exists_span (p : α → Bool) (l : List α) :
    ∃ a b, l = a ++ b ∧ (∀ x ∈ a, p x = true) ∧ Stops p b := by
  induction l with
  | nil => exact ⟨[], [], rfl, nofun, stops_nil⟩
  | cons x l ih =>
    by_cases hx : p x = true
    · obtain ⟨a, b, rfl, ha, hb⟩ := ih
      exact ⟨x :: a, b, rfl, forall_mem_cons.mpr ⟨hx, ha⟩, hb⟩
    · exact ⟨[], x :: l, rfl, nofun, stops_cons.mpr (by simpa using hx)⟩

def trim (p : α → Bool) (l : List α) : List α := ((l.dropWhile p).reverse.dropWhile p).reverse

def Trimmed (p : α → Bool) (l : List α) : Prop := Stops p l ∧ Stops p l.reverse

lemma trim_append (ha : ∀ x ∈ a, p x = true) (hl : Trimmed p l) (hb : ∀ x ∈ b, p x = true) :
    trim p (a ++ (l ++ b)) = l := by
  have hb' : ∀ x ∈ b.reverse, p x = true := fun x hx => hb x (mem_reverse.mp hx)
  unfold trim
  by_cases hn : l = []
  · subst hn
    have hal : ∀ x ∈ a ++ b, p x = true := by
      intro x hx
      exact (mem_append.mp hx).elim (ha x) (hb x)
    have hd : (a ++ b).dropWhile p = [] := by simpa using hal
    simp [hd]
  · have hs : Stops p (l ++ b) := by
      obtain ⟨x, l, rfl⟩ := exists_cons_of_ne_nil hn
      exact stops_cons.mpr (stops_cons.mp hl.1)
    rw [dropWhile_append_stop ha hs, reverse_append, dropWhile_append_stop hb' hl.2,
      reverse_reverse]

lemma exists_trim (p : α → Bool) (l : List α) :
    ∃ a b, l = a ++ (trim p l ++ b) ∧ (∀ x ∈ a, p x = true) ∧ (∀ x ∈ b, p x = true) ∧
      Trimmed p (trim p l) := by
  obtain ⟨a, core, rfl, ha, hc⟩ := exists_span p l
  obtain ⟨b, rest, hre, hb, hr⟩ := exists_span p core.reverse
  have hb' : ∀ x ∈ b.reverse, p x = true := fun x hx => hb x (mem_reverse.mp hx)
  obtain rfl : core = rest.reverse ++ b.reverse := by
    rw [← reverse_append, ← hre, reverse_reverse]
  have ht : Trimmed p rest.reverse := by
    refine ⟨?_, by rwa [reverse_reverse]⟩
    by_cases hn : rest.reverse = []
    · rw [hn]
      exact stops_nil
    · obtain ⟨x, l, hl⟩ := exists_cons_of_ne_nil hn
      rw [hl] at hc ⊢
      exact stops_cons.mpr (stops_cons.mp hc)
  have heq := trim_append ha ht hb'
  refine ⟨a, b.reverse, ?_, ha, hb', ?_⟩
  · rw [heq]
  · rwa [heq]

lemma trim_append_right (l : List α) (hb : ∀ x ∈ b, p x = true) : trim p (l ++ b) = trim p l := by
  obtain ⟨a, b', hl, ha, hb', ht⟩ := exists_trim p l
  have hal : ∀ x ∈ b' ++ b, p x = true := by
    intro x hx
    exact (mem_append.mp hx).elim (hb' x) (hb x)
  have hlo : l ++ b = a ++ (trim p l ++ (b' ++ b)) := by
    conv_lhs => rw [hl]
    simp
  rw [hlo, trim_append ha ht hal]

/-! ## The pieces between separators -/

section Pieces

variable [DecidableEq α] {sep : α} {piece rest : List α}

lemma splitOnP_beq_of_not_mem (h : sep ∉ piece) : piece.splitOnP (· == sep) = [piece] := by
  refine splitOnP_eq_singleton fun c hc => ?_
  simpa using fun heq : c = sep => h (heq ▸ hc)

lemma splitOnP_beq_append_cons (h : sep ∉ piece) (rest : List α) :
    (piece ++ sep :: rest).splitOnP (· == sep) = piece :: rest.splitOnP (· == sep) := by
  refine splitOnP_append_cons_of_forall_mem (fun c hc => ?_) sep (by simp) rest
  simpa using fun heq : c = sep => h (heq ▸ hc)

lemma splitOn_induction {P : List α → Prop} (sep : α) (hl : ∀ piece, sep ∉ piece → P piece)
    (hm : ∀ piece rest, sep ∉ piece → P rest → P (piece ++ sep :: rest)) (text : List α) :
    P text := by
  induction hn : text.count sep generalizing text with
  | zero => exact hl text (count_eq_zero.mp hn)
  | succ n ih =>
    have hmem : sep ∈ text := count_pos_iff.mp (by omega)
    obtain ⟨piece, rest, rfl, hp⟩ := eq_append_cons_of_mem hmem
    refine hm piece rest hp (ih rest ?_)
    simpa [count_append, count_eq_zero.mpr hp] using hn

end Pieces

end Glomop.Lib
