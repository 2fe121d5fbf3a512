import Glomop.Lib.CText

/-!
# Sums of characters

Adding up the characters of a text in a 32-bit word is how this program makes both its checksums and
its hashes.  A `char` is signed, so a character of 128 or more takes something away from the sum.

A change of one character always changes the sum (`charSum_set_ne`), and the sum of a text that is
not enormous stays near zero as a signed word, away from `2 ^ 31` (`charSum_ne_of_length_lt`).
-/

namespace Glomop.Lib

open UInt32

/-- `(UINT32) c` for a `char`. -/
def charWord (c : UInt8) : UInt32 := UInt32.ofInt c.toInt8.toInt

def charSum (s : Bytes) : UInt32 := s.foldl (fun sum c => sum + charWord c) 0

lemma toNat_ofInt (z : ℤ) : (ofInt z).toNat = (z % 2 ^ 32).toNat := by
  have hpos := Int.emod_nonneg z (b := 2 ^ 32) (by decide)
  have hlt := Int.emod_lt_of_pos z (b := 2 ^ 32) (by decide)
  unfold ofInt
  rw [toNat_ofNat']
  omega

lemma charWord_injective : Function.Injective charWord := by
  intro c d h
  have hc := c.toInt8.le_toInt
  have hc' := c.toInt8.toInt_lt
  have hd := d.toInt8.le_toInt
  have hd' := d.toInt8.toInt_lt
  have hn := congrArg UInt32.toNat h
  simp only [charWord, toNat_ofInt] at hn
  have hint : c.toInt8.toInt = d.toInt8.toInt := by omega
  have hi : c.toInt8 = d.toInt8 := Int8.toInt_inj.mp hint
  simpa using congrArg Int8.toUInt8 hi

lemma foldl_charWord (s : Bytes) (start : UInt32) :
    s.foldl (fun sum c => sum + charWord c) start = start + charSum s := by
  unfold charSum
  induction s generalizing start with
  | nil => simp
  | cons c s ih =>
    rw [List.foldl_cons, List.foldl_cons, ih, ih (0 + charWord c), zero_add, add_assoc]

@[simp] lemma charSum_nil : charSum [] = 0 := rfl

@[simp] lemma charSum_cons (c : UInt8) (s : Bytes) : charSum (c :: s) = charWord c + charSum s := by
  have h : charSum (c :: s) = s.foldl (fun sum c => sum + charWord c) (0 + charWord c) := rfl
  rw [h, foldl_charWord, zero_add]

@[simp] lemma charSum_append (s t : Bytes) : charSum (s ++ t) = charSum s + charSum t := by
  have h : charSum (s ++ t) = t.foldl (fun sum c => sum + charWord c) (charSum s) :=
    List.foldl_append
  rw [h, foldl_charWord]

/-- **A change of one character changes the sum.** -/
theorem charSum_set_ne {s : Bytes} {i : ℕ} {c : UInt8} (hi : i < s.length) (hc : c ≠ s[i]) :
    charSum (s.set i c) ≠ charSum s := by
  intro heq
  have hs : s = s.take i ++ s[i] :: s.drop (i + 1) := by simp
  have hse : s.set i c = s.take i ++ c :: s.drop (i + 1) := List.set_eq_take_append_cons_drop.trans
    (if_pos hi)
  rw [hse] at heq
  nth_rewrite 3 [hs] at heq
  simp only [charSum_append, charSum_cons, add_right_inj, add_left_inj] at heq
  exact hc (charWord_injective heq)

lemma charSum_eq_ofInt (s : Bytes) :
    ∃ z : ℤ, charSum s = ofInt z ∧ -(128 * s.length : ℤ) ≤ z ∧ z ≤ 128 * s.length := by
  induction s with
  | nil => exact ⟨0, rfl, by simp, by simp⟩
  | cons c s ih =>
    obtain ⟨z, hz, hl, hh⟩ := ih
    have hc := c.toInt8.le_toInt
    have hc' := c.toInt8.toInt_lt
    refine ⟨c.toInt8.toInt + z, ?_, ?_, ?_⟩
    · rw [charSum_cons, hz, charWord, ofInt_add]
    all_goals
      push_cast [List.length_cons]
      omega

lemma charSum_ne_of_length_lt {s : Bytes} (h : s.length < 2 ^ 24) : charSum s ≠ 0x80000000 := by
  obtain ⟨z, hz, hlo, hh⟩ := charSum_eq_ofInt s
  intro hb
  have hn := congrArg UInt32.toNat (hz.symm.trans hb)
  rw [toNat_ofInt] at hn
  have hl : (0x80000000 : UInt32).toNat = 2147483648 := rfl
  omega

end Glomop.Lib
