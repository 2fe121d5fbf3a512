import Mathlib

/-!
# Tables of owners

A table is a list whose entries are named by their positions; entries are added at the end and
replaced, never removed.  Each entry owns some references, a multiset of names.  What the whole
table owns changes by what the replaced entry gives up and what the new one takes (`owned_set_add`),
so that "the counter of `x` is the number of references to `x`" can be followed through a program
reference by reference, without a look at the other owners.
-/

namespace Glomop.Lib

open List

variable {α ι : Type}

def owned (f : α → Multiset ι) (l : List α) : Multiset ι := (l.map f).sum

variable {f : α → Multiset ι} {l : List α} {i j : ℕ} {a b : α}

@[simp] lemma owned_nil : owned f [] = 0 := rfl

lemma owned_cons : owned f (a :: l) = f a + owned f l := by
  simp [owned]

lemma owned_append (l' : List α) : owned f (l ++ l') = owned f l + owned f l' := by
  simp [owned]

lemma owned_concat : owned f (l ++ [a]) = owned f l + f a := by
  rw [owned_append, owned_cons, owned_nil, add_zero]

/-- **Replacing an entry**: the old entry's references for the new one's. -/
theorem owned_set_add (h : l[i]? = some a) : owned f (l.set i b) + f a = owned f l + f b := by
  induction l generalizing i with
  | nil => exact nomatch h
  | cons c l ih =>
    cases i with
    | zero =>
      cases h
      rw [set_cons_zero, owned_cons, owned_cons, add_comm (f b), add_assoc,
        add_comm (f b), ← add_assoc, add_comm (owned f l)]
    | succ i =>
      rw [set_cons_succ, owned_cons, owned_cons, add_assoc, ih h, add_assoc]

/-- Replacing an entry while the references in `X` are loose, and afterwards those in `X'`: what was
loose or owned by the old entry is loose or owned by the new one. -/
lemma owned_set_move {X X' : Multiset ι} (h : l[i]? = some a) (hX : X + f a = X' + f b) :
    owned f (l.set i b) + X' = owned f l + X := by
  apply add_right_cancel (b := f a)
  rw [add_right_comm, owned_set_add h, add_right_comm, add_assoc, ← hX, add_assoc]

lemma le_owned (h : l[i]? = some a) : f a ≤ owned f l :=
  le_sum_of_mem (mem_map_of_mem (mem_of_getElem? h))

lemma owned_eq_zero (h : ∀ a ∈ l, f a = 0) : owned f l = 0 := by
  apply sum_eq_zero
  intro x hx
  obtain ⟨a, ha, rfl⟩ := mem_map.mp hx
  exact h a ha

lemma count_add_singleton_add [DecidableEq ι] (A X : Multiset ι) (x : ι) :
    (A + ({x} + X)).count x = (A + X).count x + 1 := by
  rw [add_left_comm, Multiset.count_add, Multiset.count_singleton_self, add_comm]

lemma count_owned_ite [DecidableEq ι] {p : α → Prop} [DecidablePred p] {g : α → ι} (l : List α)
    (x : ι) : (owned (fun a => if p a then {g a} else 0) l).count x =
      l.countP fun a => p a ∧ g a = x := by
  induction l with
  | nil => rfl
  | cons a l ih =>
    rw [owned_cons, Multiset.count_add, ih, countP_cons, add_comm]
    congr 1
    by_cases hp : p a
    · rw [if_pos hp, Multiset.count_singleton]
      simp [hp, eq_comm]
    · rw [if_neg hp]
      simp [hp]

/-! ## Looking an entry up -/

lemma lt_of_getElem? (h : l[i]? = some a) : i < l.length := (List.getElem?_eq_some_iff.mp h).1

lemma getElem?_set_inv (h : (l.set i b)[j]? = some a) : i = j ∧ a = b ∨ i ≠ j ∧ l[j]? = some a := by
  rw [getElem?_set] at h
  split_ifs at h with hij hlt
  · exact .inl ⟨hij, (Option.some.inj h).symm⟩
  · exact .inr ⟨hij, h⟩

lemma getElem?_set_or {c : α} (b : α) (hi : l[i]? = some a) (hj : l[j]? = some c) :
    i = j ∧ a = c ∧ (l.set i b)[j]? = some b ∨ (l.set i b)[j]? = some c := by
  by_cases hij : i = j
  · subst hij
    exact .inl ⟨rfl, Option.some.inj (hi.symm.trans hj), getElem?_set_self (lt_of_getElem? hi)⟩
  · exact .inr ((getElem?_set_ne hij).trans hj)

lemma getElem?_of_set (h : (l.set i b)[j]? = some a) (hne : a ≠ b) : l[j]? = some a :=
  ((getElem?_set_inv h).resolve_left fun hb => hne hb.2).2

lemma getElem?_concat_inv (h : (l ++ [b])[j]? = some a) :
    j = l.length ∧ a = b ∨ l[j]? = some a := by
  rw [getElem?_append] at h
  split_ifs at h with hlt
  · exact .inr h
  · obtain ⟨hl', hb⟩ := List.getElem?_eq_some_iff.mp h
    have hz : j - l.length = 0 := Nat.lt_one_iff.mp hl'
    exact .inl ⟨by omega, by simpa [hz] using hb.symm⟩

end Glomop.Lib
