import Glomop.Lib.CText

/-!
# Doc compression: the format

Compressed text is a sequence of codes.

* 0 and 9 to 0x7F stand for themselves.
* 1 to 8 are followed by that many bytes, which stand for themselves.
* 0x80 to 0xBF and the next byte are a copy: of the 14 bits below the top two, the lowest three are
  the number of bytes less three, and the others are how far back in the text they are.
* 0xC0 to 0xFF stand for a space and the byte with its top bit cleared.

`decode` reads bytes by these rules, and a `Code` is a code that obeys them.
-/

namespace Glomop.Text2doc

open Lib UInt8
open List hiding set

/-! ## Decoding -/

def copyBack (dist : ℕ) : ℕ → Bytes → Bytes
  | 0, text => text
  | n + 1, text => copyBack dist n (text ++ [text.getD (text.length - dist) 0])

/-- The text after the codes `bytes`, where `text` is what came before; `none` where the bytes end
too early or a copy goes back too far. -/
def decode (text : Bytes) : Bytes → Option Bytes
  | [] => some text
  | c :: bytes =>
    if c = 0 ∨ 9 ≤ c ∧ c ≤ 0x7F then decode (text ++ [c]) bytes
    else if c ≤ 8 then
      if c.toNat ≤ bytes.length then decode (text ++ bytes.take c.toNat) (bytes.drop c.toNat)
      else none
    else if c ≤ 0xBF then
      let compound := (c.toNat - 0x80) * 256 + (bytes.headD 0).toNat
      if bytes ≠ [] ∧ 1 ≤ compound / 8 ∧ compound / 8 ≤ text.length then
        decode (copyBack (compound / 8) (compound % 8 + 3) text) bytes.tail
      else none
    else decode (text ++ [32, c ^^^ 0x80]) bytes
termination_by bytes => bytes.length
decreasing_by all_goals simp

/-! ## Codes -/

def Plain (b : UInt8) : Prop := b < 0x80 ∧ (b = 0 ∨ 8 < b)

instance (b : UInt8) : Decidable (Plain b) := inferInstanceAs (Decidable (_ ∧ _))

inductive Code
  | literal (b : UInt8) (h : Plain b)
  | group (bs : Bytes) (h : 1 ≤ bs.length ∧ bs.length ≤ 8)
  | copy (dist count : ℕ) (h : dist < 2048 ∧ 3 ≤ count ∧ count ≤ 10)
  | space (b : UInt8) (h : 0x40 ≤ b ∧ b ≤ 0x7F)

namespace Code

def bytes : Code → Bytes
  | literal b _ => [b]
  | group bs _ => UInt8.ofNat bs.length :: bs
  | copy dist count _ =>
    [UInt8.ofNat (0x80 + (dist * 8 + (count - 3)) / 256),
      UInt8.ofNat ((dist * 8 + (count - 3)) % 256)]
  | space b _ => [b ^^^ 0x80]

def apply (text : Bytes) : Code → Option Bytes
  | literal b _ => some (text ++ [b])
  | group bs _ => some (text ++ bs)
  | copy dist count _ =>
    if 1 ≤ dist ∧ dist ≤ text.length then some (copyBack dist count text) else none
  | space b _ => some (text ++ [32, b])

lemma space_byte {b : UInt8} (h : 0x40 ≤ b ∧ b ≤ 0x7F) :
    0xC0 ≤ b ^^^ 0x80 ∧ (b ^^^ 0x80) ^^^ 0x80 = b := by
  have ha : ∀ n : Fin 256, 0x40 ≤ ofFin n ∧ ofFin n ≤ 0x7F →
      0xC0 ≤ ofFin n ^^^ 0x80 ∧ (ofFin n ^^^ 0x80) ^^^ 0x80 = ofFin n := by
    decide +kernel
  exact ha b.toFin h

lemma decode_append (c : Code) (text rest : Bytes) :
    decode text (c.bytes ++ rest) = (c.apply text).bind fun text => decode text rest := by
  cases c with
  | literal b h =>
    have hp : b = 0 ∨ 9 ≤ b ∧ b ≤ 0x7F := by
      refine h.2.imp_right fun hl => ?_
      have hh := h.1
      rw [lt_iff_toNat_lt] at hl hh
      rw [le_iff_toNat_le, le_iff_toNat_le]
      exact ⟨hl, Nat.le_of_lt_succ hh⟩
    rw [bytes, singleton_append, decode, if_pos hp]
    rfl
  | group bs h =>
    have hna : (ofNat bs.length).toNat = bs.length := by
      rw [toNat_ofNat', Nat.mod_eq_of_lt (by omega)]
    have hn : ¬ (ofNat bs.length = 0 ∨ 9 ≤ ofNat bs.length ∧ ofNat bs.length ≤ 0x7F) := by
      rw [← UInt8.toNat_inj, le_iff_toNat_le, hna]
      simp only [reduceToNat]
      omega
    have hl : ofNat bs.length ≤ 8 := by
      rw [le_iff_toNat_le, hna]
      exact h.2
    rw [bytes, cons_append, decode, if_neg hn, if_pos hl, hna,
      if_pos (by simp), take_left, drop_left]
    rfl
  | copy dist count h =>
    set compound := dist * 8 + (count - 3) with hc
    have hf : (ofNat (0x80 + compound / 256)).toNat = 0x80 + compound / 256 := by
      rw [toNat_ofNat', Nat.mod_eq_of_lt (by omega)]
    have hs : (ofNat (compound % 256)).toNat = compound % 256 := by
      rw [toNat_ofNat', Nat.mod_eq_of_lt (by omega)]
    have hn : ¬ (ofNat (0x80 + compound / 256) = 0 ∨
        9 ≤ ofNat (0x80 + compound / 256) ∧ ofNat (0x80 + compound / 256) ≤ 0x7F) := by
      rw [← UInt8.toNat_inj, le_iff_toNat_le, le_iff_toNat_le, hf]
      simp only [reduceToNat]
      omega
    have hn' : ¬ ofNat (0x80 + compound / 256) ≤ 8 := by
      rw [le_iff_toNat_le, hf]
      simp only [reduceToNat]
      omega
    have hl : ofNat (0x80 + compound / 256) ≤ 0xBF := by
      rw [le_iff_toNat_le, hf]
      simp only [reduceToNat]
      omega
    have hb : (0x80 + compound / 256 - 0x80) * 256 + compound % 256 = compound := by omega
    have hd : compound / 8 = dist := by omega
    have hco : compound % 8 + 3 = count := by omega
    rw [bytes, ← hc, cons_append, singleton_append, decode, if_neg hn, if_neg hn', if_pos hl]
    simp only [headD_cons, tail_cons, hf, hs, hb, hd,
      hco, apply, ne_eq, reduceCtorEq, not_false_eq_true, true_and]
    split_ifs <;> rfl
  | space b h =>
    obtain ⟨hh, hcl⟩ := space_byte h
    rw [le_iff_toNat_le] at hh
    have hn : ¬ (b ^^^ 0x80 = 0 ∨ 9 ≤ b ^^^ 0x80 ∧ b ^^^ 0x80 ≤ 0x7F) := by
      rw [← UInt8.toNat_inj, le_iff_toNat_le, le_iff_toNat_le]
      simp only [reduceToNat] at hh ⊢
      omega
    have hn' : ¬ b ^^^ 0x80 ≤ 8 := by
      rw [le_iff_toNat_le]
      simp only [reduceToNat] at hh ⊢
      omega
    have hn'' : ¬ b ^^^ 0x80 ≤ 0xBF := by
      rw [le_iff_toNat_le]
      simp only [reduceToNat] at hh ⊢
      omega
    rw [bytes, singleton_append, decode, if_neg hn, if_neg hn', if_neg hn'', hcl]
    rfl

end Code

def textOf (codes : List Code) (text : Bytes) : Option Bytes := codes.foldlM Code.apply text

/-- **Decoding the bytes of some codes is carrying them out.** -/
theorem decode_codes (codes : List Code) (text : Bytes) :
    decode text (codes.flatMap Code.bytes) = textOf codes text := by
  induction codes generalizing text with
  | nil => rw [flatMap_nil, decode]; rfl
  | cons c codes ih =>
    rw [flatMap_cons, c.decode_append, textOf, foldlM_cons]
    exact congrArg _ (funext ih)

lemma textOf_append (codes codes' : List Code) (text : Bytes) :
    textOf (codes ++ codes') text = (textOf codes text).bind (textOf codes') :=
  foldlM_append

lemma copyBack_take {text : Bytes} {pos dist : ℕ} (hd : 1 ≤ dist) (hle : dist ≤ pos) {n : ℕ}
    (he : pos + n ≤ text.length) (hs : ∀ j < n, text[pos - dist + j]? = text[pos + j]?) :
    copyBack dist n (text.take pos) = text.take (pos + n) := by
  induction n generalizing pos with
  | zero => rfl
  | succ n ih =>
    have hl : (text.take pos).length = pos := by
      rw [length_take]
      omega
    have hlt : pos < text.length := by omega
    have hb : (text.take pos).getD ((text.take pos).length - dist) 0 = text[pos] := by
      have hf := hs 0 (Nat.succ_pos n)
      rw [Nat.add_zero, Nat.add_zero, getElem?_eq_getElem hlt] at hf
      rw [hl, getD_eq_getElem?_getD, getElem?_take_of_lt (by omega), hf, Option.getD_some]
    rw [copyBack, hb, take_concat_get' _ _ hlt, ih (by omega) (by omega) fun j hj => ?_]
    · rw [Nat.add_assoc, Nat.add_comm 1 n]
    · have hn := hs (j + 1) (by omega)
      rw [show pos + 1 - dist + j = pos - dist + (j + 1) by omega, hn]
      congr 1
      omega

end Glomop.Text2doc
