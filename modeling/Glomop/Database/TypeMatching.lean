import Glomop.Database.Distiller

/-!
# Which requests a type satisfies

A type is a list of components with slashes between them, and a component `*` stands for any other.
`CanSatisfy` compares tokens, and the tokenizer makes an empty one of a slash too many at the end.
-/

namespace Glomop

open Lib List

abbrev wildcard : Bytes := [42]

/-- One list of components is as long as another, and has a `*` or the same component in each
place. -/
abbrev Matches : List Bytes → List Bytes → Prop := List.Forall₂ fun t r => t = wildcard ∨ t = r

def typeComponents (type : DistillerType) : List Bytes := components [slash] type.chars

def EndsInSlashes (type : DistillerType) : Prop := EndsEmpty [slash] type.chars

instance (type : DistillerType) : Decidable (EndsInSlashes type) :=
  inferInstanceAs (Decidable (EndsEmpty _ _))

lemma satisfies_iff {ts rs : List Bytes} : satisfies ts rs = true ↔ Matches ts rs := by
  induction ts generalizing rs with
  | nil => cases rs <;> simp [satisfies]
  | cons t ts ih => cases rs <;> simp [satisfies, ih]

lemma canSatisfy_iff (type request : DistillerType) :
    canSatisfy type request = true ↔
      Matches (typeComponents type ++ if EndsInSlashes type then [[]] else [])
        (typeComponents request ++ if EndsInSlashes request then [[]] else []) := by
  unfold canSatisfy
  rw [satisfies_iff, tokens_eq_components, tokens_eq_components]
  rfl

section Matches

variable {ts rs : List Bytes} {t r : Bytes}

lemma Matches.refl (ts : List Bytes) : Matches ts ts := forall₂_same.mpr fun _ _ => .inr rfl

lemma Matches.eq (h : Matches ts rs) (hf : wildcard ∉ ts) : ts = rs := by
  induction h with
  | nil => rfl
  | cons hh _ ih =>
    rw [mem_cons, not_or] at hf
    rw [hh.resolve_left (Ne.symm hf.1), ih hf.2]

lemma matches_concat_iff :
    Matches (ts ++ [t]) (rs ++ [r]) ↔ (t = wildcard ∨ t = r) ∧ Matches ts rs := by
  unfold Matches
  rw [← forall₂_reverse_iff, reverse_concat, reverse_concat, forall₂_cons, forall₂_reverse_iff]

lemma not_matches_concat_nil (ts : List Bytes) (hrs : ∀ r ∈ rs, r ≠ []) :
    ¬ Matches (ts ++ [[]]) rs := by
  intro h
  rcases eq_nil_or_concat' rs with rfl | ⟨init, r, rfl⟩
  · simp at h
  · obtain ⟨hw | hn, -⟩ := matches_concat_iff.mp h
    · exact absurd hw (by decide)
    · exact hrs r (by simp) hn.symm

lemma matches_nil_concat_iff (rs : List Bytes) (hts : ∀ t ∈ ts, t ≠ []) :
    Matches ts (rs ++ [[]]) ↔ ∃ init, ts = init ++ [wildcard] ∧ Matches init rs := by
  constructor
  · intro h
    rcases eq_nil_or_concat' ts with rfl | ⟨init, t, rfl⟩
    · simp at h
    · obtain ⟨hl, hi⟩ := matches_concat_iff.mp h
      obtain rfl := hl.resolve_right (hts t (by simp))
      exact ⟨init, rfl, hi⟩
  · rintro ⟨init, rfl, hi⟩
    exact matches_concat_iff.mpr ⟨.inl rfl, hi⟩

end Matches

/-! ## The comparison of types -/

lemma ne_nil_of_mem_typeComponents (type : DistillerType) : ∀ t ∈ typeComponents type, t ≠ [] :=
  fun _ => ne_nil_of_mem_components

lemma canSatisfy_iff_matches_iff (type request : DistillerType) :
    (canSatisfy type request = true ↔ Matches (typeComponents type) (typeComponents request)) ↔
      (EndsInSlashes type ↔ EndsInSlashes request) ∨
        ¬ Matches (typeComponents type) (typeComponents request) ∧
          (EndsInSlashes type ∨ ¬ ∃ init, typeComponents type = init ++ [wildcard] ∧
            Matches init (typeComponents request)) := by
  rw [canSatisfy_iff]
  by_cases ht : EndsInSlashes type <;> by_cases hr : EndsInSlashes request
  · rw [if_pos ht, if_pos hr, matches_concat_iff]
    simp [ht, hr]
  · -- the type has an empty token and satisfies nothing
    have hf := not_matches_concat_nil (typeComponents type) (ne_nil_of_mem_typeComponents request)
    rw [if_pos ht, if_neg hr, append_nil]
    simp [ht, hr, hf]
  · -- the request has one, which a `*` takes for a component
    have hw := matches_nil_concat_iff (typeComponents request) (ne_nil_of_mem_typeComponents type)
    have hl : (∃ init, typeComponents type = init ++ [wildcard] ∧
        Matches init (typeComponents request)) →
        ¬ Matches (typeComponents type) (typeComponents request) := by
      rintro ⟨init, heq, hi⟩ hm
      have hlen := Forall₂.length_eq hm
      rw [heq, length_append, Forall₂.length_eq hi] at hlen
      simp at hlen
    rw [if_neg ht, if_pos hr, append_nil, hw]
    simp only [ht, hr, false_or, iff_true]
    constructor
    · intro hif
      have hno : ¬ Matches (typeComponents type) (typeComponents request) :=
        fun hm => hl (hif.mpr hm) hm
      exact ⟨hno, fun hex => hno (hif.mp hex)⟩
    · rintro ⟨hno, hn⟩
      exact iff_of_false hn hno
  · rw [if_neg ht, if_neg hr, append_nil, append_nil]
    simp [ht, hr]

lemma canSatisfy_refl (type : DistillerType) : canSatisfy type type = true := by
  rw [canSatisfy_iff]
  exact Matches.refl _

lemma canSatisfy_trans {type middle request : DistillerType}
    (hfr : wildcard ∉ typeComponents middle) (hf : canSatisfy type middle = true)
    (hs : canSatisfy middle request = true) : canSatisfy type request = true := by
  have hn : wildcard ∉ typeComponents middle ++ if EndsInSlashes middle then [[]] else [] := by
    rw [mem_append, not_or]
    refine ⟨hfr, ?_⟩
    split_ifs <;> decide
  rw [canSatisfy_iff] at hf hs ⊢
  rwa [hs.eq hn] at hf

/-- **Type matching.**  For every two types: the components of the one match those of the other
exactly if `CanSatisfy` says so, if and only if both types or neither ends in an empty token, or it
makes no difference.  And `CanSatisfy` is reflexive, and transitive over types without a `*`. -/
theorem canSatisfy_correct_iff (type request : DistillerType) :
    ((canSatisfy type request = true ↔ Matches (typeComponents type) (typeComponents request)) ↔
      (EndsInSlashes type ↔ EndsInSlashes request) ∨
        ¬ Matches (typeComponents type) (typeComponents request) ∧
          (EndsInSlashes type ∨ ¬ ∃ init, typeComponents type = init ++ [wildcard] ∧
            Matches init (typeComponents request))) ∧
    canSatisfy type type = true ∧
    ∀ middle, wildcard ∉ typeComponents middle → canSatisfy type middle = true →
      canSatisfy middle request = true → canSatisfy type request = true :=
  ⟨canSatisfy_iff_matches_iff type request, canSatisfy_refl type,
    fun _ hfr hf hs => canSatisfy_trans hfr hf hs⟩

/-- The types `*/b`, `a/b` and `//a//b/`. -/
theorem canSatisfy_correct_iff_sample :
    let type : DistillerType := ⟨[42, 47, 98], by decide, by decide⟩
    let middle : DistillerType := ⟨[97, 47, 98], by decide, by decide⟩
    let request : DistillerType := ⟨[47, 47, 97, 47, 47, 98, 47], by decide, by decide⟩
    canSatisfy middle request = true ∧ Matches (typeComponents type) (typeComponents request) ∧
      canSatisfy type request = true := by
  intro type middle request
  have h := canSatisfy_correct_iff type request
  have ha : EndsInSlashes type ↔ EndsInSlashes request := by decide
  have hm : canSatisfy middle request = true := by decide
  have hs := h.2.2 middle (by decide) (by decide) hm
  exact ⟨hm, (h.1.mpr (.inl ha)).mp hs, hs⟩

/-- `a` has the same components as `a//` and does not satisfy it; `a/*` has one more and does. -/
theorem canSatisfy_slashes :
    let a : DistillerType := ⟨[97], by decide, by decide⟩
    let aStar : DistillerType := ⟨[97, 47, 42], by decide, by decide⟩
    let aSlashes : DistillerType := ⟨[97, 47, 47], by decide, by decide⟩
    typeComponents a = [[97]] ∧ typeComponents aSlashes = [[97]] ∧
      canSatisfy a aSlashes = false ∧ canSatisfy aSlashes a = false ∧
      typeComponents aStar = [[97], [42]] ∧ canSatisfy aStar aSlashes = true := by
  decide

end Glomop
