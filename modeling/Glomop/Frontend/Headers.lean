import Glomop.Lib.CText
import Glomop.Lib.Spans

/-!
# Header blocks

The front end keeps headers as one block of text and looks into it with `strcasestr`: a header is
wherever its name stands first in the block, be it inside another header's value.  `Carries block
name value` describes a block that has a header as its reader sees it; adding a header makes such a
block, adding another one keeps it, and deleting the header leaves the text around it.
-/

namespace Glomop.Headers

open Lib Option
open List hiding set

/-! ## Text -/

/-- `tolower`. -/
def lower (c : UInt8) : UInt8 := if 65 ≤ c ∧ c ≤ 90 then c + 32 else c

/-- `strncasecmp(text, sub, strlen(sub)) == 0`. -/
def startsWith (sub text : Bytes) : Bool := (text.take sub.length).map lower == sub.map lower

/-- The place of the first occurrence of `sub`, ignoring case.
`utils.c`. -/
def strcasestr (sub : Bytes) : Bytes → Option ℕ
  | [] => if startsWith sub [] then some 0 else none
  | c :: cs => if startsWith sub (c :: cs) then some 0 else (strcasestr sub cs).map (· + 1)

def isBlank (c : UInt8) : Bool := c == 32 || c == 9

def isEndOfLine (c : UInt8) : Bool := c == 13 || c == 10

/-- What `get_header_value` finds: the place of the header, the length of the line in front of the
value, and the value. -/
structure Found where
  hdr : ℕ
  totallen : ℕ
  value : Bytes
deriving DecidableEq

def getHeaderValue (block which : Bytes) : Option Found :=
  if block = [] then none
  else
    (strcasestr which (cString block)).bind fun hdr =>
      match (cString block).drop (hdr + which.length) with
      | [] => none
      | c :: tmp =>
        let ndx := (tmp.takeWhile isBlank).length
        if c ≠ 58 ∨ tmp.length ≤ ndx then none
        else
          some ⟨hdr, which.length + 1 + ndx, (tmp.drop ndx).takeWhile (!isEndOfLine ·)⟩

/-- The line is taken to end with two characters.  If they are not there, the rest of the block has
a negative length, and `memmove` runs out of it.
`httpsupport.c`. -/
def deleteHeader (block str : Bytes) : Option Bytes :=
  match getHeaderValue block str with
  | none => some block
  | some found =>
    let totallen := found.totallen + found.value.length + 2
    if found.hdr + totallen ≤ block.length then
      some (block.take found.hdr ++ block.drop (found.hdr + totallen))
    else none

/-- The headers of an empty block, `HTTP/1.0 200 OK` and a blank line. -/
def dummyHeaders : Bytes :=
  [72, 84, 84, 80, 47, 49, 46, 48, 32, 50, 48, 48, 32, 79, 75, 13, 10, 13, 10]

def headerText (str value : Bytes) : Bytes := str ++ 58 :: 32 :: value ++ [13, 10, 13, 10]

def appendHeader (block str value : Bytes) : Option Bytes :=
  if block = [] then some (dummyHeaders.take (dummyHeaders.length - 2) ++ headerText str value)
  else if block.length = 1 then none
  else some (block.take (block.length - 2) ++ headerText str value)

def insertHeader (block str value : Bytes) (replace : Bool) : Option Bytes :=
  if replace then (deleteHeader block str).bind (appendHeader · str value)
  else appendHeader block str value

/-! ## Occurrences -/

variable {a sub name after block value before : Bytes}

lemma startsWith_append {text : Bytes} (h : startsWith sub text = true) (rest : Bytes) :
    startsWith sub (text ++ rest) = true := by
  unfold startsWith at h ⊢
  rw [beq_iff_eq] at h ⊢
  have hl : sub.length ≤ text.length := by
    have := congrArg length h
    simp only [length_map, length_take] at this
    omega
  rw [take_append_of_le_length hl, h]

lemma startsWith_self_append (hn : name.map lower = sub.map lower) (rest : Bytes) :
    startsWith sub (name ++ rest) = true := by
  have hl : name.length = sub.length := by simpa using congrArg length hn
  rw [startsWith, ← hl, take_left, hn, beq_self_eq_true]

lemma strcasestr_eq_none_of_append {b : Bytes} (h : strcasestr sub (a ++ b) = none) :
    strcasestr sub a = none := by
  induction a with
  | nil =>
    by_cases hsu : startsWith sub [] = true
    · have hf := startsWith_append hsu b
      cases b with
      | nil => exact h
      | cons c b => simp_all [strcasestr]
    · rw [strcasestr, if_neg hsu]
  | cons c a ih =>
    rw [cons_append, strcasestr] at h
    split_ifs at h with hs
    have hn : ¬ startsWith sub (c :: a) = true := fun hc => hs (startsWith_append hc b)
    rw [strcasestr, if_neg hn, ih (map_eq_none_iff.mp h), map_none]

def HeadUnique (sub : Bytes) : Prop :=
  ∃ c rest, sub = c :: rest ∧ ∀ d ∈ rest, lower d ≠ lower c

/-- **The first occurrence** of a word behind a text that does not contain it. -/
theorem strcasestr_append {b : Bytes} (hsu : HeadUnique sub) (ha : strcasestr sub a = none)
    (hb : startsWith sub b = true) : strcasestr sub (a ++ b) = some a.length := by
  obtain ⟨x, xs, rfl, hx⟩ := hsu
  induction a with
  | nil =>
    cases b with
    | nil | cons => exact if_pos hb
  | cons c a ih =>
    rw [strcasestr] at ha
    split_ifs at ha with hs
    have hno : ¬ startsWith (x :: xs) (c :: (a ++ b)) = true := by
      intro ho
      rw [startsWith, beq_iff_eq, ← cons_append, take_append, map_append] at ho
      by_cases hle : xs.length ≤ a.length
      · -- the word lies in the text
        refine hs ?_
        rw [startsWith, beq_iff_eq]
        have hz : (x :: xs).length - (c :: a).length = 0 := by
          simp only [length_cons]
          omega
        rwa [hz, take_zero, map_nil, append_nil] at ho
      · -- its first letter comes again where the other occurrence begins
        obtain ⟨d, b', rfl⟩ : ∃ d b', b = d :: b' := by
          cases b with
          | nil => simp [startsWith] at hb
          | cons d b' => exact ⟨d, b', rfl⟩
        have hd : lower d = lower x := by
          rw [startsWith, beq_iff_eq, length_cons, take_succ_cons, map_cons,
            map_cons, cons.injEq] at hb
          exact hb.1
        obtain ⟨n, hn⟩ : ∃ n, (x :: xs).length - (c :: a).length = n + 1 :=
          ⟨xs.length - a.length - 1, by simp only [length_cons]; omega⟩
        have ht : (c :: a).take (x :: xs).length = c :: a :=
          take_of_length_le (by simp only [length_cons]; omega)
        rw [hn, ht, take_succ_cons, map_cons, map_cons, map_cons,
          cons_append, cons.injEq] at ho
        have hmem : lower d ∈ xs.map lower := by
          rw [← ho.2]
          simp
        obtain ⟨y, hy, hl⟩ := mem_map.mp hmem
        exact hx y hy (hl.trans hd)
    rw [cons_append, strcasestr, if_neg hno, ih (map_eq_none_iff.mp ha)]
    simp

/-! ## Blocks that carry a header -/

structure IsValue (value : Bytes) : Prop where
  noBlank : ∀ c ∈ value.head?, isBlank c = false
  noEnd : ∀ c ∈ value, isEndOfLine c = false
  noNul : (0 : UInt8) ∉ value

/-- **Where a header is found**: behind a colon and blanks. -/
lemma exists_of_getHeaderValue {which : Bytes} {found : Found}
    (h : getHeaderValue block which = some found) :
    ∃ before blanks rest, block = before ++ (58 :: blanks ++ found.value) ++ rest ∧
      found.hdr + found.totallen + found.value.length =
        (before ++ (58 :: blanks ++ found.value)).length ∧
      (∀ c ∈ blanks, isBlank c = true) ∧ IsValue found.value := by
  unfold getHeaderValue at h
  split_ifs at h
  obtain ⟨hdr, -, h⟩ := bind_eq_some_iff.mp h
  split at h
  · cases h
  · next c tmp ht =>
      obtain ⟨blanks, b, rfl, hbl, hb⟩ := exists_span isBlank tmp
      obtain ⟨value, rest, rfl, hv, hr⟩ := exists_span (!isEndOfLine ·) b
      obtain ⟨behind, hbe⟩ := takeWhile_prefix (p := (· ≠ (0 : UInt8))) (l := block)
      dsimp only at h
      rw [takeWhile_append_stop hbl hb, drop_left, takeWhile_append_stop hv hr] at h
      split_ifs at h with hco
      rw [not_or, not_not] at hco
      obtain ⟨rfl, -⟩ := hco
      cases h
      have hlen := congrArg length ht
      have hmem : (0 : UInt8) ∉ (cString block).drop (hdr + which.length) :=
        fun h => cString_noNul block (mem_of_mem_drop h)
      simp only [ht, mem_cons, mem_append, not_or] at hmem
      simp only [length_drop, length_cons, length_append] at hlen
      refine ⟨(cString block).take (hdr + which.length), blanks, rest ++ behind, ?_, ?_, hbl,
        ⟨fun c hc => hb c ?_, by simpa using hv, hmem.2.2.1⟩⟩
      · calc block = cString block ++ behind := hbe.symm
          _ = (cString block).take (hdr + which.length) ++ 58 :: (blanks ++ (value ++ rest)) ++
              behind := by rw [← ht, take_append_drop]
          _ = _ := by simp
      · simp only [length_append, length_cons, length_take]
        omega
      · rw [head?_append, mem_def.mp hc]
        rfl

/-- The block has the header `name` with the given value, between `before` and `after`. -/
structure CarriesAt (block name value before after : Bytes) : Prop where
  isValue : IsValue value
  free : strcasestr name before = none
  noNul : (0 : UInt8) ∉ before
  blankLine : 2 ≤ after.length
  eq : ∃ name' blanks, name'.map lower = name.map lower ∧ (0 : UInt8) ∉ name' ∧
    (∀ c ∈ blanks, isBlank c = true) ∧
      block = before ++ (name' ++ 58 :: (blanks ++ (value ++ 13 :: 10 :: after)))

lemma takeWhile_blanks {blanks : Bytes} (hb : ∀ c ∈ blanks, isBlank c = true)
    (hv : ∀ c ∈ value.head?, isBlank c = false) (rest : Bytes) :
    (blanks ++ (value ++ 13 :: rest)).takeWhile isBlank = blanks := by
  rw [takeWhile_append_of_pos hb]
  cases value with
  | nil => simp [isBlank]
  | cons c value => simp [hv c rfl]

lemma takeWhile_value {rest : Bytes} (hv : ∀ c ∈ value, isEndOfLine c = false) :
    (value ++ 13 :: rest).takeWhile (!isEndOfLine ·) = value := by
  rw [takeWhile_append_of_pos fun c hc => by simp [hv c hc]]
  simp [isEndOfLine]

lemma cString_append (ha : (0 : UInt8) ∉ a) (b : Bytes) : cString (a ++ b) = a ++ cString b := by
  unfold cString
  refine takeWhile_append_of_pos fun c hc => ?_
  have hne : c ≠ 0 := fun h => ha (h ▸ hc)
  simpa using hne

lemma not_mem_of_isBlank {blanks : Bytes} (h : ∀ c ∈ blanks, isBlank c = true) :
    (0 : UInt8) ∉ blanks := by
  intro hmem
  exact absurd (h 0 hmem) (by decide)

lemma getHeaderValue_at {name' blanks rest : Bytes}
    (hs : strcasestr name (cString block) = some before.length) (hl : name'.length = name.length)
    (hb : ∀ c ∈ blanks, isBlank c = true) (hv : IsValue value)
    (hc : cString block = before ++ (name' ++ 58 :: (blanks ++ (value ++ 13 :: rest)))) :
    getHeaderValue block name = some ⟨before.length, name.length + 1 + blanks.length, value⟩ := by
  have hne : block ≠ [] := by
    rintro rfl
    simp [cString] at hc
  have hd : (cString block).drop (before.length + name.length) =
      58 :: (blanks ++ (value ++ 13 :: rest)) := by
    rw [hc, ← hl, ← append_assoc, ← length_append, drop_left]
  have hn := takeWhile_blanks hb hv.noBlank rest
  rw [getHeaderValue, if_neg hne, hs, bind_some, hd]
  simp [hn, takeWhile_value hv.noEnd]

/-- **Looking up a header** that a block carries. -/
theorem CarriesAt.getHeaderValue (hna : HeadUnique name)
    (h : CarriesAt block name value before after) :
    ∃ totallen, getHeaderValue block name = some ⟨before.length, totallen, value⟩ ∧
      block = before ++ block.drop before.length ∧
      block.drop (before.length + (totallen + value.length + 2)) = after ∧
      before.length + (totallen + value.length + 2) ≤ block.length := by
  obtain ⟨name', blanks, hlo, hn, hbl, hb⟩ := h.eq
  have hl : name'.length = name.length := by simpa using congrArg length hlo
  have hbn := not_mem_of_isBlank hbl
  set rest := cString after
  have hc : cString block = before ++ (name' ++ 58 :: (blanks ++ (value ++ 13 :: 10 :: rest))) := by
    rw [hb, cString_append h.noNul, cString_append hn]
    congr 2
    rw [show (58 : UInt8) :: (blanks ++ (value ++ 13 :: 10 :: after)) =
        [58] ++ (blanks ++ (value ++ ([13, 10] ++ after))) from rfl,
      cString_append (by decide), cString_append hbn, cString_append h.isValue.noNul,
      cString_append (by decide)]
    rfl
  have hst : strcasestr name (cString block) = some before.length := by
    rw [hc]
    exact strcasestr_append hna h.free (startsWith_self_append hlo _)
  refine ⟨name.length + 1 + blanks.length, getHeaderValue_at hst hl hbl h.isValue hc, ?_, ?_, ?_⟩
  · conv_rhs => rw [hb, drop_left]
    exact hb
  · have hs : block = (before ++ (name' ++ 58 :: (blanks ++ (value ++ [13, 10])))) ++ after := by
      rw [hb]
      simp
    have hco : before.length + (name.length + 1 + blanks.length + value.length + 2) =
        (before ++ (name' ++ 58 :: (blanks ++ (value ++ [13, 10])))).length := by
      simp [hl]
      omega
    rw [hco, hs, drop_left]
  · rw [hb]
    simp [hl]
    omega

lemma CarriesAt.deleteHeader (hn : HeadUnique name) (h : CarriesAt block name value before after) :
    deleteHeader block name = some (before ++ after) := by
  obtain ⟨totallen, hf, hb, ha, hfi⟩ := h.getHeaderValue hn
  have ht : block.take before.length = before := by
    rw [hb, take_left]
  simp only [Headers.deleteHeader, hf, if_pos hfi, ht, ha]

lemma CarriesAt.appendHeader (h : CarriesAt block name value before after) (str value' : Bytes) :
    ∃ block', appendHeader block str value' = some block' ∧
      CarriesAt block' name value before
        (after.take (after.length - 2) ++ headerText str value') := by
  obtain ⟨name', blanks, hlo, hn, hbl, hb⟩ := h.eq
  have hbn := h.blankLine
  have hl : block.length =
      (before ++ (name' ++ 58 :: (blanks ++ (value ++ [13, 10])))).length + after.length := by
    rw [hb]
    simp
    omega
  have hne : block ≠ [] := ne_nil_of_length_pos (by omega)
  have ho : block.length ≠ 1 := by omega
  have ht : block.take (block.length - 2) =
      (before ++ (name' ++ 58 :: (blanks ++ (value ++ [13, 10])))) ++
        after.take (after.length - 2) := by
    have hs : block = (before ++ (name' ++ 58 :: (blanks ++ (value ++ [13, 10])))) ++ after := by
      rw [hb]
      simp
    rw [hl, Nat.add_sub_assoc hbn]
    conv_lhs => rw [hs]
    exact take_length_add_append _
  refine ⟨block.take (block.length - 2) ++ headerText str value', ?_, h.isValue, h.free, h.noNul,
    ?_, name', blanks, hlo, hn, hbl, ?_⟩
  · rw [Headers.appendHeader, if_neg hne, if_neg ho]
  · simp [headerText]
    omega
  · rw [ht]
    simp

/-- A block into which a header can be written so that it is found: no NUL, no occurrence of its
name, and not the one length that has no room for a blank line. -/
structure Plain (name block : Bytes) : Prop where
  noNul : (0 : UInt8) ∉ block
  free : strcasestr name block = none
  room : block.length ≠ 1

instance (name block : Bytes) : Decidable (Plain name block) :=
  decidable_of_iff ((0 : UInt8) ∉ block ∧ strcasestr name block = none ∧ block.length ≠ 1)
    ⟨fun h => ⟨h.1, h.2.1, h.2.2⟩, fun h => ⟨h.noNul, h.free, h.room⟩⟩

/-- **Adding a header** makes a block that carries it. -/
theorem Plain.appendHeader (h : Plain name block) (hd : strcasestr name dummyHeaders = none)
    (name' : Bytes) (hl : name'.map lower = name.map lower) (hn : (0 : UInt8) ∉ name')
    (hv : IsValue value) :
    ∃ block' before, appendHeader block name' value = some block' ∧
      CarriesAt block' name value before [13, 10] := by
  have hc (front : Bytes) (hf : strcasestr name front = none) (hnu : (0 : UInt8) ∉ front) :
      CarriesAt (front.take (front.length - 2) ++ headerText name' value) name value
        (front.take (front.length - 2)) [13, 10] := by
    refine ⟨hv, ?_, fun hmem => hnu (mem_of_mem_take hmem), le_refl _,
      name', [32], hl, hn, by simp [isBlank], ?_⟩
    · refine strcasestr_eq_none_of_append (b := front.drop (front.length - 2)) ?_
      rw [take_append_drop]
      exact hf
    · simp [headerText]
  by_cases hni : block = []
  · refine ⟨_, _, ?_, hc dummyHeaders hd (by decide)⟩
    rw [Headers.appendHeader, if_pos hni]
  · refine ⟨_, _, ?_, hc block h.free h.noNul⟩
    rw [Headers.appendHeader, if_neg hni, if_neg h.room]

end Glomop.Headers
