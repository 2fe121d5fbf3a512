import Glomop.Frontend.Headers

/-!
# Headers that are found

`lookup` is the header line that a name stands for.  `get_header_value` has one candidate, the first
place where the name occurs at all: it finds the right line exactly if that place is the line's, and
reports that there is none exactly if no colon follows the place (`header_lookup_right_iff`).
-/

namespace Glomop.Headers

open Lib List

/-- A header line `Name: value`. -/
structure HeaderLine where
  name : Bytes
  blanks : Bytes
  value : Bytes
  name_plain : ∀ c ∈ name, c ≠ 58 ∧ isEndOfLine c = false ∧ c ≠ 0
  isBlank_of_mem : ∀ c ∈ blanks, isBlank c = true
  isValue : IsValue value

open HeaderLine

def HeaderLine.text (l : HeaderLine) : Bytes :=
  l.name ++ 58 :: (l.blanks ++ (l.value ++ [13, 10]))

def blankLine (present : Bool) : Bytes := if present then [13, 10] else []

def blockOf (start : Bytes) (lines : List HeaderLine) (present : Bool) : Bytes :=
  start ++ [13, 10] ++ lines.flatMap HeaderLine.text ++ blankLine present

/-- **The header a name stands for**: the place and the value of the first line with that name,
ignoring case. -/
def lookup (which : Bytes) : ℕ → List HeaderLine → Option (ℕ × Bytes)
  | _, [] => none
  | place, l :: lines =>
    if l.name.map lower = which.map lower then some (place, l.value)
    else lookup which (place + l.text.length) lines

variable {which start block : Bytes} {lines : List HeaderLine} {place : ℕ} {value : Bytes}

lemma exists_of_lookup {n : ℕ} (h : lookup which n lines = some (place, value)) :
    ∃ before l after, lines = before ++ l :: after ∧ l.value = value ∧
      l.name.map lower = which.map lower ∧
      (∀ b ∈ before, b.name.map lower ≠ which.map lower) ∧
      place = n + (before.flatMap text).length := by
  induction lines generalizing n with
  | nil => cases h
  | cons l lines ih =>
    rw [lookup] at h
    split_ifs at h with hn
    · cases h
      exact ⟨[], l, lines, rfl, rfl, hn, nofun, rfl⟩
    · obtain ⟨before, l', after, rfl, hv, hl, hb, hp⟩ := ih h
      refine ⟨l :: before, l', after, rfl, hv, hl, forall_mem_cons.mpr ⟨hn, hb⟩, ?_⟩
      rw [hp, flatMap_cons, length_append, Nat.add_assoc]

lemma ne_of_lookup {n : ℕ} (h : lookup which n lines = none) :
    ∀ l ∈ lines, l.name.map lower ≠ which.map lower := by
  induction lines generalizing n with
  | nil => nofun
  | cons l lines ih =>
    rw [lookup] at h
    split_ifs at h with hn
    exact forall_mem_cons.mpr ⟨hn, ih h⟩

lemma noNul_text (l : HeaderLine) : (0 : UInt8) ∉ l.text := by
  have hn : (0 : UInt8) ∉ l.name := fun h => (l.name_plain 0 h).2.2 rfl
  simp [text, hn, not_mem_of_isBlank l.isBlank_of_mem, l.isValue.noNul]

lemma cString_blockOf (hs : (0 : UInt8) ∉ start) (lines : List HeaderLine) (present : Bool) :
    cString (blockOf start lines present) = blockOf start lines present := by
  refine cString_eq_self ?_
  cases present <;> simp [blockOf, blankLine, hs, noNul_text]

lemma exists_blockOf (start : Bytes) (lines : List HeaderLine) (present : Bool) :
    ∃ front, blockOf start lines present = front ++ [10] := by
  rw [blockOf]
  cases present with
  | true => exact ⟨start ++ [13, 10] ++ lines.flatMap text ++ [13], by simp [blankLine]⟩
  | false =>
    rcases eq_nil_or_concat lines with rfl | ⟨lines, l, rfl⟩
    · exact ⟨start ++ [13], by simp [blankLine]⟩
    · exact ⟨start ++ [13, 10] ++ lines.flatMap text ++ (l.name ++ 58 :: (l.blanks ++
        (l.value ++ [13]))), by simp [blankLine, text]⟩

/-- **What is not found**: a name that occurs nowhere, or first without a colon. -/
theorem getHeaderValue_eq_none_iff {front : Bytes} (hb : cString block = front ++ [10]) :
    getHeaderValue block which = none ↔
      ∀ place, strcasestr which (cString block) = some place →
        (cString block)[place + which.length]? ≠ some 58 := by
  have hne : block ≠ [] := by
    rintro rfl
    simp [cString] at hb
  rw [getHeaderValue, if_neg hne]
  cases hst : strcasestr which (cString block) with
  | none => simp
  | some place =>
    simp only [Option.bind_some, Option.some.injEq, forall_eq']
    rw [← head?_drop]
    cases hd : (cString block).drop (place + which.length) with
    | nil => simp
    | cons c tmp =>
      simp only [head?_cons, ne_eq, Option.some.injEq, ite_eq_left_iff, not_or, not_not,
        reduceCtorEq, imp_false, not_and, not_le]
      refine forall_congr' fun hc => iff_of_false (not_not.mpr ?_) id
      subst hc
      -- the blanks stop at the end of the last line
      have hs : 58 :: tmp <:+ front ++ [10] := by
        rw [← hd, ← hb]
        exact drop_suffix _ _
      have hmem : 10 ∈ tmp := by
        obtain hn | ⟨t, ht, -⟩ := suffix_concat_iff.mp hs
        · cases hn
        · cases t with
          | nil => simp at ht
          | cons x t => simp [(List.cons.inj ht).2]
      have hle := takeWhile_sublist (l := tmp) isBlank
      refine lt_of_le_of_ne hle.length_le fun heq => ?_
      exact absurd (takeWhile_eq_self_iff.mp (hle.eq_of_length heq) 10 hmem) (by decide)

/-- **Header lookup as it should be.** -/
def LookupRight (start : Bytes) (lines : List HeaderLine) (present : Bool) (which : Bytes) : Prop :=
  match lookup which (start.length + 2) lines with
  | none => getHeaderValue (blockOf start lines present) which = none
  | some (place, value) => ∃ totallen,
      getHeaderValue (blockOf start lines present) which = some ⟨place, totallen, value⟩

/-- The name occurs first where it should be found; or if it should not, no colon follows its first
occurrence. -/
def OccursRight (start : Bytes) (lines : List HeaderLine) (present : Bool) (which : Bytes) : Prop :=
  match lookup which (start.length + 2) lines with
  | none => ∀ place, strcasestr which (blockOf start lines present) = some place →
      (blockOf start lines present)[place + which.length]? ≠ some 58
  | some (place, _) => strcasestr which (blockOf start lines present) = some place

lemma length_front (start : Bytes) (before : List HeaderLine) :
    (start ++ [13, 10] ++ before.flatMap text).length =
      start.length + 2 + (before.flatMap text).length := by
  rw [length_append, length_append]
  rfl

lemma getHeaderValue_line {before after : List HeaderLine} {l : HeaderLine} {present : Bool}
    (hstart : (0 : UInt8) ∉ start) (hn : l.name.map lower = which.map lower)
    (hst : strcasestr which (blockOf start (before ++ l :: after) present) =
      some (start.length + 2 + (before.flatMap text).length)) :
    getHeaderValue (blockOf start (before ++ l :: after) present) which =
      some ⟨start.length + 2 + (before.flatMap text).length,
        which.length + 1 + l.blanks.length, l.value⟩ := by
  have hc := cString_blockOf hstart (before ++ l :: after) present
  rw [← length_front] at hst ⊢
  have hs : blockOf start (before ++ l :: after) present =
      start ++ [13, 10] ++ before.flatMap text ++ (l.name ++ 58 :: (l.blanks ++
        (l.value ++ 13 :: (10 :: (after.flatMap text ++ blankLine present))))) := by
    simp [blockOf, text]
  have hl : l.name.length = which.length := by simpa using congrArg List.length hn
  exact getHeaderValue_at (hc.symm ▸ hst) hl l.isBlank_of_mem l.isValue (hc.trans hs)

/-- **When a header is looked up right**: exactly if its name occurs first where it stands. -/
theorem header_lookup_right_iff (start : Bytes) (hstart : (0 : UInt8) ∉ start)
    (lines : List HeaderLine) (present : Bool) (which : Bytes) :
    LookupRight start lines present which ↔ OccursRight start lines present which := by
  have hc := cString_blockOf hstart lines present
  unfold LookupRight OccursRight
  cases hl : lookup which (start.length + 2) lines with
  | none =>
    obtain ⟨front, hfr⟩ := exists_blockOf start lines present
    dsimp only
    rw [getHeaderValue_eq_none_iff (hc.trans hfr), hc]
  | some found =>
    obtain ⟨place, value⟩ := found
    dsimp only
    constructor
    · rintro ⟨totallen, hf⟩
      rw [getHeaderValue, hc] at hf
      split_ifs at hf
      obtain ⟨hdr, hst, hf⟩ := Option.bind_eq_some_iff.mp hf
      rw [hst]
      split at hf
      · cases hf
      · dsimp only at hf
        split_ifs at hf
        obtain ⟨rfl, -⟩ := Found.mk.inj (Option.some.inj hf)
        rfl
    · intro hst
      obtain ⟨before, l, after, rfl, rfl, hlo, -, rfl⟩ := exists_of_lookup hl
      exact ⟨_, getHeaderValue_line hstart hlo hst⟩

/-- The lines without the first one of a name. -/
def without (which : Bytes) (lines : List HeaderLine) : List HeaderLine :=
  lines.eraseP fun l => l.name.map lower = which.map lower

/-- **Deleting a header** that is looked up right takes its line out. -/
theorem deleteHeader_blockOf (hstart : (0 : UInt8) ∉ start)
    (h : OccursRight start lines true which) :
    deleteHeader (blockOf start lines true) which =
      some (blockOf start (without which lines) true) := by
  have hr := (header_lookup_right_iff start hstart lines true which).mpr h
  unfold OccursRight at h
  unfold LookupRight at hr
  cases hl : lookup which (start.length + 2) lines with
  | none =>
    rw [hl] at hr
    rw [deleteHeader, hr, without, eraseP_of_forall_not (by simpa using ne_of_lookup hl)]
  | some found =>
    obtain ⟨place, value⟩ := found
    rw [hl] at h
    obtain ⟨before, l, after, rfl, rfl, hn, hb, rfl⟩ := exists_of_lookup hl
    have hlen : l.name.length = which.length := by simpa using congrArg List.length hn
    have hs : blockOf start (before ++ l :: after) true = (start ++ [13, 10] ++
        before.flatMap text) ++ (l.text ++ (after.flatMap text ++ [13, 10])) := by
      simp [blockOf, blankLine]
    have ht : which.length + 1 + l.blanks.length + l.value.length + 2 = l.text.length := by
      simp [text, hlen]
      omega
    have he : without which (before ++ l :: after) = before ++ after := by
      rw [without, eraseP_append_right _ (by simpa using hb),
        eraseP_cons_of_pos (by simpa using hn)]
    rw [deleteHeader, getHeaderValue_line hstart hn h, he]
    dsimp only
    rw [ht, ← length_front, hs, if_pos (by simp only [length_append]; omega), take_left,
      ← drop_drop, drop_left, drop_left]
    simp [blockOf, blankLine]

lemma isBlank_of_mem_blank : ∀ c ∈ ([32] : Bytes), isBlank c = true := by simp [isBlank]

/-- A line with one blank behind the colon. -/
def headerLine (name value : Bytes) (hn : ∀ c ∈ name, c ≠ 58 ∧ isEndOfLine c = false ∧ c ≠ 0)
    (hv : IsValue value) : HeaderLine := ⟨name, [32], value, hn, isBlank_of_mem_blank, hv⟩

/-- The line `A: x`. -/
def lineA : HeaderLine := headerLine [65] [120] (by simp [isEndOfLine])
  ⟨by simp [isBlank], by simp [isEndOfLine], by decide⟩

/-- The line `XA: y`, whose name has the other one in it. -/
def lineXA : HeaderLine := headerLine [88, 65] [121] (by simp [isEndOfLine])
  ⟨by simp [isBlank], by simp [isEndOfLine], by decide⟩

theorem header_lookup_right_first :
    (0 : UInt8) ∉ [71] ∧ LookupRight [71] [lineA, lineXA] true [97] :=
  ⟨by decide, (header_lookup_right_iff [71] (by decide) [lineA, lineXA] true [97]).mpr
    (show strcasestr [97] (blockOf [71] [lineA, lineXA] true) = some 3 by decide)⟩

/-- **The value of another header**: in the block with `XA: y` and `A: x`, the name `A` has the
value `y`. -/
theorem header_of_longer_name :
    lookup [65] 3 [lineXA, lineA] = some (10, [120]) ∧
      getHeaderValue (blockOf [71] [lineXA, lineA] true) [65] = some ⟨4, 3, [121]⟩ := by
  decide

end Glomop.Headers
