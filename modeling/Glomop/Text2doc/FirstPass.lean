import Glomop.Text2doc.Compress

/-!
# Doc compression: the room for the first pass

The first pass writes to a block of 6000 bytes, and `makedoc` compresses up to 4096 characters at a
time.  A code has at most two bytes for each character it stands for, so that 3000 characters always
fit; where all characters are high and no three stand twice, every one of them takes two bytes.
Source: `text2doc.c`.
-/

namespace Glomop.Text2doc

open Lib List Option Code

/-- All characters are high, and no three in a row stand in two places. -/
def Incompressible (buf : Bytes) : Prop :=
  (∀ b ∈ buf, 0x80 ≤ b) ∧
    ∀ i k, i < k → k + 2 < buf.length → ∃ j < 3, buf[i + j]? ≠ buf[k + j]?

variable {c : Code} {codes : List Code} {text text' buf : Bytes} {dist n : ℕ}

lemma copyBack_spec (hd : 1 ≤ dist ∧ dist ≤ text.length) :
    ∃ new, copyBack dist n text = text ++ new ∧ new.length = n ∧
      ∀ j < n, (text ++ new)[text.length - dist + j]? = (text ++ new)[text.length + j]? := by
  induction n generalizing text with
  | zero => exact ⟨[], (append_nil _).symm, rfl, nofun⟩
  | succ n ih =>
    have hlt : text.length - dist < text.length := by omega
    obtain ⟨new, hc, hn, hs⟩ := @ih (text ++ [text.getD (text.length - dist) 0]) (by simp; omega)
    rw [append_assoc] at hc hs
    refine ⟨_, hc, by simp [hn], fun j hj => ?_⟩
    cases j with
    | zero => simp [getElem?_append_left hlt, getElem?_eq_getElem hlt]
    | succ j =>
      have hsj := hs j (by omega)
      rw [length_append, length_singleton] at hsj
      rw [show text.length - dist + (j + 1) = text.length + 1 - dist + j by omega, hsj]
      congr 1
      omega

/-- **What a code costs**: at most two bytes for each character. -/
lemma Code.cost (h : c.apply text = some text') :
    text <+: text' ∧ c.bytes.length + 2 * text.length ≤ 2 * text'.length ∧
      (c.Single → text' <+: buf → Incompressible buf →
        c.bytes.length + 2 * text.length = 2 * text'.length) := by
  cases c with
  | literal b hb =>
    cases h
    refine ⟨prefix_append _ _, by simp [bytes]; omega, fun _ hp hi => ?_⟩
    exact absurd hb.1 (UInt8.not_lt.mpr (hi.1 b (hp.subset (by simp))))
  | group bs hb =>
    cases h
    refine ⟨prefix_append _ _, by simp [bytes]; omega, fun hs _ _ => ?_⟩
    simp [bytes, show bs.length = 1 from hs]
    omega
  | copy dist count hb =>
    rw [apply] at h
    split_ifs at h with hd
    cases h
    obtain ⟨new, hc, hn, hs⟩ := @copyBack_spec text dist count hd
    rw [hc]
    refine ⟨prefix_append _ _, by simp [bytes, hn]; omega, fun _ hp hi => ?_⟩
    -- the three characters that are copied first stand in two places
    obtain ⟨rest, rfl⟩ := hp
    have hl : (text ++ new).length = text.length + count := by rw [length_append, hn]
    obtain ⟨j, hj, hne⟩ := hi.2 (text.length - dist) text.length (by omega) (by
      rw [length_append]
      omega)
    rw [getElem?_append_left (show text.length - dist + j < (text ++ new).length by omega),
      getElem?_append_left (show text.length + j < (text ++ new).length by omega)] at hne
    exact absurd (hs j (by omega)) hne
  | space b hb =>
    cases h
    refine ⟨prefix_append _ _, by simp [bytes]; omega, fun _ hp hi => ?_⟩
    exact absurd (hi.1 32 (hp.subset (by simp))) (by decide)

lemma codes_cost (h : textOf codes text = some buf) :
    text <+: buf ∧ (codes.flatMap bytes).length + 2 * text.length ≤ 2 * buf.length ∧
      ((∀ c ∈ codes, c.Single) → Incompressible buf →
        (codes.flatMap bytes).length + 2 * text.length = 2 * buf.length) := by
  induction codes generalizing text with
  | nil =>
    cases h
    simp
  | cons c codes ih =>
    obtain ⟨text1, h1, h⟩ := bind_eq_some_iff.mp h
    obtain ⟨hp, hle, heq⟩ := @Code.cost c text text1 buf h1
    obtain ⟨hp', hle', heq'⟩ := ih h
    rw [flatMap_cons, length_append]
    refine ⟨hp.trans hp', by omega, fun hs hi => ?_⟩
    obtain ⟨hc, hs⟩ := forall_mem_cons.mp hs
    have hc := heq hc hp' hi
    have hcs := heq' hs hi
    omega

/-- **What the first pass writes**: at most two bytes for each character, and exactly two if all
characters are high and no three stand twice. -/
theorem first_pass_room (buf : Bytes) :
    ∃ s, walk buf (12 * buf.length + 12) ⟨0, 0, 1, [], false⟩ = some s ∧
      (s.out ++ held s.bSpace).length ≤ 2 * buf.length ∧
      (Incompressible buf → s.out.length = 2 * buf.length) := by
  obtain ⟨s, hw, codes, text, hs, ho, ht, hb⟩ := @Walking.walk buf (12 * buf.length + 12) _
    (walking_start buf) (by simp [Walk.toGo])
  obtain ⟨-, hle, heq⟩ := codes_cost ht
  rw [take_length] at hb
  refine ⟨s, hw, ?_, fun hi => ?_⟩
  · rw [← hb, length_append, length_append, ho]
    omega
  · -- no space is held back at the end
    have hf : s.bSpace = false := by
      rw [Bool.eq_false_iff]
      intro hsp
      refine absurd (hi.1 32 ?_) (by decide)
      simp [← hb, held, hsp]
    rw [hf, held, if_neg (by decide), append_nil] at hb
    subst hb
    rw [ho]
    exact heq hs hi

def pairAt (i : ℕ) : ℕ := if i % 2 = 0 then 128 + i / 128 else 192 + i / 2 % 64

/-- A record of 4096 characters, in pairs that count. -/
def pairs : Bytes := (range 4096).map fun i => .ofNat (pairAt i)

lemma getElem?_pairs {i : ℕ} (hi : i < 4096) : pairs[i]?.map UInt8.toNat = some (pairAt i) := by
  rw [pairs, getElem?_map, getElem?_range hi, Option.map_some, Option.map_some, UInt8.toNat_ofNat',
    Nat.mod_eq_of_lt]
  unfold pairAt
  split_ifs <;> omega

/-- A record that takes more than the 6000 bytes there are. -/
theorem first_pass_overrun :
    ∃ s, walk pairs (12 * pairs.length + 12) ⟨0, 0, 1, [], false⟩ = some s ∧
      s.out.length = 8192 := by
  obtain ⟨s, hw, -, he⟩ := first_pass_room pairs
  have hl : pairs.length = 4096 := by simp only [pairs, length_map, length_range]
  refine ⟨s, hw, (he ⟨fun b hb => ?_, fun i k hik hk => ?_⟩).trans (by rw [hl])⟩
  · obtain ⟨i, hi, he⟩ := getElem_of_mem hb
    have hp := getElem?_pairs (hl ▸ hi)
    rw [getElem?_eq_getElem hi, he, Option.map_some, some.injEq] at hp
    rw [UInt8.le_iff_toNat_le, hp, pairAt]
    simp only [UInt8.reduceToNat]
    split_ifs <;> omega
  · by_contra hc
    simp only [not_exists, not_and, not_not, ne_eq] at hc
    rw [hl] at hk
    have hat : ∀ j < 3, (i + j) % 2 = (k + j) % 2 ∧ if (i + j) % 2 = 0 then
        (i + j) / 128 = (k + j) / 128 else (i + j) / 2 % 64 = (k + j) / 2 % 64 := by
      intro j hj
      have hm := congrArg (Option.map UInt8.toNat) (hc j hj)
      rw [getElem?_pairs (by omega), getElem?_pairs (by omega)] at hm
      rw [some.injEq, pairAt, pairAt] at hm
      split_ifs at hm ⊢ <;> omega
    have h0 := hat 0 (by omega)
    have h1 := hat 1 (by omega)
    have h2 := hat 2 (by omega)
    split_ifs at h0 h1 h2 <;> omega

end Glomop.Text2doc
