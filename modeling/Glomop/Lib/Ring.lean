import Mathlib

/-!
# Rings

* The loop `do { b = f(b, idx); idx = (idx + 1) % n; } while (idx != start);` visits every position
  of the ring once: `ringScan_of_invariant`.
* A ring that is always full, in which the newest element takes the place of the oldest:
  `rotate_set_succ`.
* `Queued n slots head tail q`: the slots from `head` up to `tail` hold the elements of the queue
  `q`; one slot is always free.
-/

namespace Glomop.Lib

open Function List

variable {β : Type}

/-- At most `fuel` rounds of the loop; `none` if `f` fails or the loop has not stopped. -/
def ringScan (f : β → ℕ → Option β) (n start : ℕ) : ℕ → ℕ → β → Option β
  | 0, _, _ => none
  | fuel + 1, idx, b =>
    (f b idx).bind fun b =>
      if (idx + 1) % n = start then some b else ringScan f n start fuel ((idx + 1) % n) b

variable {f : β → ℕ → Option β} {n start : ℕ}

lemma add_mod_eq_start_iff (hs : start < n) {k : ℕ} (hk : 0 < k) (hle : k ≤ n) :
    (start + k) % n = start ↔ k = n := by
  constructor
  · intro hb
    by_contra hne
    rcases Nat.lt_or_ge (start + k) n with hlt | hge
    · rw [Nat.mod_eq_of_lt hlt] at hb
      omega
    · rw [Nat.mod_eq_sub_mod hge, Nat.mod_eq_of_lt (by omega)] at hb
      omega
  · rintro rfl
    rw [Nat.add_mod_right, Nat.mod_eq_of_lt hs]

variable {i : ℕ}

lemma exists_add_mod_eq (hs : start < n) (hi : i < n) : ∃ k < n, (start + k) % n = i := by
  rcases Nat.lt_or_ge i start with hlt | hge
  · refine ⟨n - start + i, by omega, ?_⟩
    rw [show start + (n - start + i) = n + i by omega, Nat.add_mod_left, Nat.mod_eq_of_lt hi]
  · refine ⟨i - start, by omega, ?_⟩
    rw [show start + (i - start) = i by omega, Nat.mod_eq_of_lt hi]

/-- **The rule for the loop.**  What holds at the start and is handed on from position to position
holds at the end, and `n` rounds are enough to get there. -/
theorem ringScan_of_invariant {I : ℕ → β → Prop} (hs : start < n)
    (hst : ∀ k b, k < n → I k b → ∃ b', f b ((start + k) % n) = some b' ∧ I (k + 1) b')
    {b : β} (h : I 0 b) {fuel : ℕ} (hfu : n ≤ fuel) :
    ∃ b', ringScan f n start fuel start b = some b' ∧ I n b' := by
  -- after `k` positions, the rest of the loop is another scan, of one round less
  have hr : ∀ m k fuel b, k < n → k + m = n → m ≤ fuel → I k b →
      ∃ b', ringScan f n start fuel ((start + k) % n) b = some b' ∧ I n b' := by
    intro m
    induction m with
    | zero =>
      intro k fuel b hk hsu _ _
      omega
    | succ m ih =>
      intro k fuel b hk hsu hfu hb
      obtain ⟨fuel, rfl⟩ : ∃ fuel', fuel = fuel' + 1 := ⟨fuel - 1, by omega⟩
      obtain ⟨b1, hf, hb1⟩ := hst k b hk hb
      have hi : ((start + k) % n + 1) % n = (start + (k + 1)) % n := by
        rw [Nat.mod_add_mod, Nat.add_assoc]
      simp only [ringScan, hf, Option.bind_some, hi]
      by_cases hl : k + 1 = n
      · rw [if_pos ((add_mod_eq_start_iff hs (Nat.succ_pos k) hl.le).mpr hl)]
        exact ⟨b1, rfl, hl ▸ hb1⟩
      · rw [if_neg fun hba =>
          hl ((add_mod_eq_start_iff hs (Nat.succ_pos k) (by omega)).mp hba)]
        exact ih (k + 1) fuel b1 (by omega) (by omega) (by omega) hb1
  have hfi := hr n 0 fuel b (by omega) (by omega) hfu h
  rwa [Nat.add_zero, Nat.mod_eq_of_lt hs] at hfi

lemma ringScan_preserves {I : β → Prop} (hst : ∀ b idx b', I b → f b idx = some b' → I b')
    {fuel idx : ℕ} {b b' : β} (h : I b) (hs : ringScan f n start fuel idx b = some b') : I b' := by
  induction fuel generalizing idx b with
  | zero => cases hs
  | succ fuel ih =>
    obtain ⟨b1, hf, hr⟩ := Option.bind_eq_some_iff.mp hs
    have hb1 := hst b idx b1 h hf
    split_ifs at hr with hb
    · cases hr
      exact hb1
    · exact ih hb1 hr

/-! ### A window in a ring

A ring that is always full: `l.rotate i` is what it holds, the oldest first, if `i` is the position
of the oldest. -/

lemma rotate_set_succ {α : Type} {l : List α} (hi : i < l.length) (a : α) :
    (l.set i a).rotate ((i + 1) % l.length) = (l.rotate i).tail ++ [a] := by
  have hr : (l.set i a).rotate ((i + 1) % l.length) = (l.set i a).rotate (i + 1) := by
    rw [← rotate_mod (l.set i a) (i + 1), length_set]
  rw [hr, rotate_eq_drop_append_take (by rw [length_set]; omega),
    rotate_eq_drop_append_take hi.le, drop_set_of_lt (Nat.lt_succ_self i),
    drop_eq_getElem_cons hi, cons_append, tail_cons, append_assoc]
  congr 1
  rw [take_set, take_succ_eq_append_getElem hi, set_append_right _ _ (by simp)]
  simp [hi.le]

/-! ### A queue in a ring -/

section Queue

variable {α : Type} {slots : ℕ → Option α} {head tail : ℕ} {q : List α}

structure Queued (n : ℕ) (slots : ℕ → Option α) (head tail : ℕ) (q : List α) : Prop where
  head_lt : head < n
  length_lt : q.length < n
  tail_eq : tail = (head + q.length) % n
  slot : ∀ i < q.length, slots ((head + i) % n) = q[i]?

lemma add_mod_inj {j : ℕ} (hi : i < n) (hj : j < n) (h : (start + i) % n = (start + j) % n) :
    i = j := by
  have hm : i ≡ j [MOD n] := Nat.ModEq.add_left_cancel' start h
  rwa [Nat.ModEq, Nat.mod_eq_of_lt hi, Nat.mod_eq_of_lt hj] at hm

namespace Queued

lemma nil (hn : 0 < n) (slots : ℕ → Option α) : Queued n slots 0 0 [] :=
  ⟨hn, hn, (Nat.zero_mod n).symm, nofun⟩

section

variable (h : Queued n slots head tail q)

include h

lemma empty_iff : head = tail ↔ q = [] := by
  constructor
  · intro heq
    have hb : (head + q.length) % n = (head + 0) % n := by
      rw [← h.tail_eq, ← heq, Nat.add_zero, Nat.mod_eq_of_lt h.head_lt]
    have hl := add_mod_inj h.length_lt (Nat.zero_lt_of_lt h.head_lt) hb
    exact length_eq_zero_iff.mp hl
  · rintro rfl
    rw [h.tail_eq, length_nil, Nat.add_zero, Nat.mod_eq_of_lt h.head_lt]

lemma full_iff : (tail + 1) % n = head ↔ q.length + 1 = n := by
  rw [h.tail_eq, Nat.mod_add_mod, Nat.add_assoc]
  exact add_mod_eq_start_iff h.head_lt (Nat.succ_pos _) h.length_lt

lemma tail_ne (hi : i < q.length) : (head + i) % n ≠ tail := by
  intro heq
  rw [h.tail_eq] at heq
  have := add_mod_inj (hi.trans h.length_lt) h.length_lt heq
  omega

lemma put (hr : q.length + 1 ≠ n) (a : α) :
    Queued n (update slots tail (some a)) head ((tail + 1) % n) (q ++ [a]) where
  head_lt := h.head_lt
  length_lt := by
    have := h.length_lt
    rw [length_append, length_singleton]
    omega
  tail_eq := by
    rw [h.tail_eq, Nat.mod_add_mod, length_append, length_singleton, Nat.add_assoc]
  slot := fun i hi => by
    rw [length_append, length_singleton, Nat.lt_succ_iff_lt_or_eq] at hi
    obtain hi | rfl := hi
    · rw [update_of_ne (h.tail_ne hi), getElem?_append_left hi]
      exact h.slot i hi
    · rw [← h.tail_eq, update_self, getElem?_concat_length]

end

lemma take {a : α} (h : Queued n slots head tail (a :: q)) :
    slots head = some a ∧ Queued n slots ((head + 1) % n) tail q := by
  refine ⟨?_, ?_⟩
  · have hs := h.slot 0 (Nat.succ_pos _)
    rwa [Nat.add_zero, Nat.mod_eq_of_lt h.head_lt] at hs
  · refine ⟨Nat.mod_lt _ (Nat.zero_lt_of_lt h.head_lt), Nat.lt_of_succ_lt h.length_lt, ?_,
      fun i hi => ?_⟩
    · rw [h.tail_eq, Nat.mod_add_mod, length_cons, Nat.add_assoc, Nat.add_comm 1]
    · have hs := h.slot (i + 1) (Nat.succ_lt_succ hi)
      rwa [Nat.add_comm i 1, ← Nat.add_assoc, ← Nat.mod_add_mod, Nat.add_comm 1 i,
        getElem?_cons_succ] at hs

end Queued

end Queue

end Glomop.Lib
