import Mathlib

/-!
# Election by elimination

Parties are ranked by a key in a linear order; a party that hears of a larger key than its own gives
up.  Messages come in any order, any number of copies, and may be lost.  Which parties remain
depends only on which messages were delivered (`mem_survivors`), so the two facts about such an
election need no induction over its runs.
-/

namespace Glomop.Lib.Election

variable {ι κ : Type} [LinearOrder κ]

/-- The parties that remain after a message from `m.1` reached `m.2`. -/
def deliver (key : ι → κ) (alive : Set ι) (m : ι × ι) : Set ι :=
  {k | k ∈ alive ∧ ¬ (k = m.2 ∧ key m.2 < key m.1)}

def survivors (key : ι → κ) (deliveries : List (ι × ι)) : Set ι :=
  deliveries.foldl (deliver key) Set.univ

variable {key : ι → κ}

variable {deliveries : List (ι × ι)}

private lemma mem_foldl_deliver {alive : Set ι} {k : ι} :
    k ∈ deliveries.foldl (deliver key) alive ↔
      k ∈ alive ∧ ∀ i, (i, k) ∈ deliveries → key i ≤ key k := by
  induction deliveries generalizing alive with
  | nil => simp
  | cons m deliveries ih =>
    rw [List.foldl_cons, ih]
    constructor
    · rintro ⟨⟨ha, hm⟩, hr⟩
      refine ⟨ha, fun i hi => ?_⟩
      rcases List.mem_cons.mp hi with rfl | hi
      · exact not_lt.mp fun hlt => hm ⟨rfl, hlt⟩
      · exact hr i hi
    · rintro ⟨ha, hal⟩
      refine ⟨⟨ha, ?_⟩, fun i hi => hal i (.tail _ hi)⟩
      rintro ⟨rfl, hlt⟩
      exact absurd (hal m.1 (.head _)) (not_le.mpr hlt)

lemma mem_survivors {k : ι} :
    k ∈ survivors key deliveries ↔ ∀ i, (i, k) ∈ deliveries → key i ≤ key k := by
  rw [survivors, mem_foldl_deliver]
  simp

lemma survivors_subsingleton (hkey : Function.Injective key)
    (he : ∀ i ∈ survivors key deliveries, ∀ j ∈ survivors key deliveries, i ≠ j →
      (i, j) ∈ deliveries) : (survivors key deliveries).Subsingleton := by
  intro i hi j hj
  by_contra hne
  have hij : key i ≤ key j := mem_survivors.mp hj i (he i hi j hj hne)
  have hji : key j ≤ key i := mem_survivors.mp hi j (he j hj i hi (Ne.symm hne))
  exact hne (hkey (le_antisymm hij hji))

end Glomop.Lib.Election
