import Mathlib

/-!
# Threads and what they are doing

A table of threads gives, for each thread, where it is in the operation that it is carrying out.
`Apart R threads` says that no two threads are at places that are related by `R`, such as two
writers of one object.
-/

namespace Glomop.Lib

variable {α : Type} {threads : ℕ → Option α} {t : ℕ} {x : Option α} {R : α → α → Prop}

lemma of_update {t' : ℕ} {b : α} (h : Function.update threads t x t' = some b) :
    t' = t ∧ x = some b ∨ t' ≠ t ∧ threads t' = some b := by
  by_cases ht : t' = t
  · subst ht
    rw [Function.update_self] at h
    exact Or.inl ⟨rfl, h⟩
  · rw [Function.update_of_ne ht] at h
    exact Or.inr ⟨ht, h⟩

def Apart (R : α → α → Prop) (threads : ℕ → Option α) : Prop :=
  ∀ t a t' a', threads t = some a → threads t' = some a' → R a a' → t' = t

lemma Apart.update (h : Apart R threads)
    (hx : ∀ b, x = some b → ∀ t' a', t' ≠ t → threads t' = some a' → ¬ R b a' ∧ ¬ R a' b) :
    Apart R (Function.update threads t x) := by
  intro t1 a1 t2 a2 h1 h2 hR
  obtain ⟨rfl, hx1⟩ | ⟨hn, ht1⟩ := of_update h1
  · obtain ⟨rfl, -⟩ | ⟨hne, ht2⟩ := of_update h2
    · rfl
    · exact absurd hR (hx a1 hx1 t2 a2 hne ht2).1
  · obtain ⟨rfl, hx2⟩ | ⟨-, ht2⟩ := of_update h2
    · exact absurd hR (hx a2 hx2 t1 a1 hn ht1).2
    · exact h t1 a1 t2 a2 ht1 ht2 hR

lemma Apart.advance {a : α} (h : Apart R threads) (ht : threads t = some a)
    (hx : ∀ b, x = some b → ∀ a', (R b a' → R a a') ∧ (R a' b → R a' a)) :
    Apart R (Function.update threads t x) := by
  refine h.update fun b hb t' a' hne ht' => ⟨fun hR => hne ?_, fun hR => hne ?_⟩
  · exact h t a t' a' ht ht' ((hx b hb a').1 hR)
  · exact (h t' a' t a ht' ht ((hx b hb a').2 hR)).symm

lemma Apart.start (h : Apart R threads)
    (hx : ∀ b, x = some b → ∀ t' a', threads t' = some a' → ¬ R b a' ∧ ¬ R a' b) :
    Apart R (Function.update threads t x) :=
  h.update fun b hb t' a' _ ht' => hx b hb t' a' ht'

end Glomop.Lib
