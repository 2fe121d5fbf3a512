import Glomop.Frontend.Headers
import Glomop.Share.Strtok

/-!
# The headers and the content of an answer

`get_header_content` cuts what a server has sent behind the first blank line, which it looks for
with two scans that stop early in some cases (`split_eq`).  `canonicalize_headers` turns every run
of line ends into one and appends another.  An answer that *begins* with a line end keeps an empty
line in front of its headers (`content_right_iff`).
-/

namespace Glomop.ClientLib.HeaderContent

open Lib Headers List

/-- The scan for `CRCR` and `CRLFCRLF`: how much of the text stands in front of the split. -/
def crSplit : Bytes → Option ℕ
  | [] => none
  | c :: rest =>
    if c = 13 then
      if rest.length > 0 then
        if rest.head? = some 13 then some 2
        else if rest.length ≥ 3 then
          if [10, 13, 10] <+: rest then some 4 else (crSplit rest).map (· + 1)
        else none
      else none
    else (crSplit rest).map (· + 1)

/-- The scan for `LFLF`. -/
def lfSplit : Bytes → Option ℕ
  | [] => none
  | c :: rest =>
    if c = 10 then
      if rest.length > 0 then
        if rest.head? = some 10 then some 2 else (lfSplit rest).map (· + 1)
      else none
    else (lfSplit rest).map (· + 1)

/-- The smaller one of the two, or the one that is not `NULL`. -/
def split (data : Bytes) : Option ℕ :=
  match crSplit data, lfSplit data with
  | none, lf => lf
  | cr, none => cr
  | some cr, some lf => some (min cr lf)

/-- The loop of `canonicalize_headers`; `inRun` says that a line end has just been written. -/
def collapse : Bool → Bytes → Bytes
  | _, [] => []
  | inRun, c :: rest =>
    if isEndOfLine c then (if inRun then [] else [13, 10]) ++ collapse true rest
    else c :: collapse false rest

/-- The text that is written, unless it and its NUL do not fit into the memory allocated.
`clib.c`. -/
def canonicalizeHeaders (headerData : Bytes) : Option Bytes :=
  let retHdr := collapse false headerData ++ [13, 10]
  if retHdr.length + 1 ≤ 2 * headerData.length + 1 then some retHdr else none

structure HeadersAndContent where
  mimeHeaders : Bytes
  mimeSize : ℕ
  content : Bytes
deriving DecidableEq

/-- The headers and the content, or `NULL` for both; `none` if the headers are written outside their
memory.
`clib.c`. -/
def getHeaderContent (data : Bytes) : Option (Option HeadersAndContent) :=
  match split data with
  | none => some none
  | some n => (canonicalizeHeaders (data.take n)).map fun mimeHeaders =>
    some ⟨mimeHeaders, (cString mimeHeaders).length, data.drop n⟩

/-! ## What it should do -/

/-- The length of a blank line at the beginning of a text: `CRCR`, `CRLFCRLF` or `LFLF`. -/
def blankLineAt (text : Bytes) : Option ℕ :=
  if [13, 13] <+: text then some 2
  else if [13, 10, 13, 10] <+: text then some 4
  else if [10, 10] <+: text then some 2
  else none

def headerLength : Bytes → Option ℕ
  | [] => none
  | c :: rest =>
    match blankLineAt (c :: rest) with
    | some k => some k
    | none => (headerLength rest).map (· + 1)

/-- **Canonical headers**: the lines that are not empty, each with a line end, and a blank line. -/
def canonical (headerData : Bytes) : Bytes :=
  (components [13, 10] headerData).flatMap (· ++ [13, 10]) ++ [13, 10]

/-- **The headers and the content of an answer as they should be.**  Its headers can be made
canonical once more without a change. -/
def Right (data : Bytes) : Prop :=
  match headerLength data with
  | none => getHeaderContent data = some none
  | some n => getHeaderContent data =
        some (some ⟨canonical (data.take n), (canonical (data.take n)).length, data.drop n⟩) ∧
      canonicalizeHeaders (canonical (data.take n)) = some (canonical (data.take n))

variable {data text : Bytes} {c d : UInt8} {n : ℕ}

/-! ## The split -/

lemma crSplit_cons (h : blankLineAt (c :: text) = none) :
    crSplit (c :: text) = (crSplit text).map (· + 1) := by
  by_cases hc : c = 13
  · subst hc
    unfold blankLineAt at h
    split_ifs at h with h1 h2 h3
    have hh : text.head? ≠ some 13 := by
      intro hh
      cases text with
      | nil => cases hh
      | cons d text =>
        cases hh
        exact h1 (by simp)
    have hlf : ¬ [10, 13, 10] <+: text := fun hp => h2 (by simpa using hp)
    rw [crSplit, if_pos rfl, if_neg hh, if_neg hlf]
    split_ifs with hpos hlen
    · rfl
    · -- behind a carriage return, two characters are too few
      match text, hh with
      | [d], hd => simp_all [crSplit]
      | [d, e], hd =>
        have hd1 : d ≠ 13 := fun h => hd (by rw [h]; rfl)
        simp [crSplit, hd1]
      | d :: e :: f :: text, _ => simp at hlen
    · rw [length_eq_zero_iff.mp (Nat.eq_zero_of_not_pos hpos)]
      rfl
  · rw [crSplit, if_neg hc]

lemma lfSplit_cons (h : blankLineAt (c :: text) = none) :
    lfSplit (c :: text) = (lfSplit text).map (· + 1) := by
  by_cases hc : c = 10
  · subst hc
    cases text with
    | nil => rfl
    | cons d text =>
      have hd : d ≠ 10 := by
        rintro rfl
        simp [blankLineAt] at h
      simp [lfSplit, hd]
  · rw [lfSplit, if_neg hc]

lemma lfSplit_pos (h : lfSplit text = some n) : 1 ≤ n := by
  cases text with
  | nil => cases h
  | cons c text =>
    rw [lfSplit] at h
    split_ifs at h
    · cases h
      decide
    all_goals
      obtain ⟨m, -, rfl⟩ := Option.map_eq_some_iff.mp h
      exact Nat.le_add_left 1 m

/-- **The two scans** find the first blank line. -/
theorem split_eq (data : Bytes) : split data = headerLength data := by
  induction data with
  | nil => rfl
  | cons c rest ih =>
    rw [headerLength]
    cases hb : blankLineAt (c :: rest) with
    | none =>
      rw [← ih, split, split, crSplit_cons hb, lfSplit_cons hb]
      cases crSplit rest <;> cases lfSplit rest <;> simp
    | some k =>
      unfold blankLineAt at hb
      split_ifs at hb with h1 h2 h3
      · obtain ⟨rest, hr⟩ := h1
        cases hr
        cases hb
        cases hlf : lfSplit rest <;> simp [split, crSplit, lfSplit, hlf]
      · obtain ⟨rest, hr⟩ := h2
        cases hr
        cases hb
        have hcr : crSplit (13 :: 10 :: 13 :: 10 :: rest) = some 4 := by simp [crSplit]
        have hl : lfSplit (13 :: 10 :: 13 :: 10 :: rest) =
            (((lfSplit (10 :: rest)).map (· + 1)).map (· + 1)).map (· + 1) := rfl
        change split (13 :: 10 :: 13 :: 10 :: rest) = some 4
        rw [split, hcr, hl]
        cases hlf : lfSplit (10 :: rest) with
        | none => rfl
        | some m =>
          have hm := lfSplit_pos hlf
          exact congrArg some (min_eq_left (show 4 ≤ m + 1 + 1 + 1 by omega))
      · obtain ⟨rest, hr⟩ := h3
        cases hr
        cases hb
        cases hcr : crSplit rest <;> simp [split, crSplit, lfSplit, hcr]

/-! ## The headers -/

lemma mem_lineEnds : c ∈ [13, 10] ↔ isEndOfLine c = true := by
  simp [isEndOfLine]

lemma collapse_separators (h : ∀ c ∈ text, c ∈ [13, 10]) (rest : Bytes) :
    collapse true (text ++ rest) = collapse true rest := by
  induction text with
  | nil => rfl
  | cons c text ih =>
    obtain ⟨hc, ht⟩ := forall_mem_cons.mp h
    rw [cons_append, collapse, if_pos (mem_lineEnds.mp hc), if_pos rfl, nil_append, ih ht]

lemma collapse_token (h : ∀ c ∈ text, c ∉ [13, 10]) (hne : text ≠ []) (inRun : Bool)
    (rest : Bytes) : collapse inRun (text ++ rest) = text ++ collapse false rest := by
  induction text generalizing inRun with
  | nil => exact absurd rfl hne
  | cons c text ih =>
    obtain ⟨hc, ht⟩ := forall_mem_cons.mp h
    rw [cons_append, collapse, if_neg fun he => hc (mem_lineEnds.mpr he)]
    by_cases hn : text = []
    · subst hn
      rfl
    · rw [ih ht hn, cons_append]

/-- **The lines of a text** that ends with a line end, or that is empty. -/
theorem collapse_eq (h : ∀ c ∈ text.getLast?, c ∈ [13, 10]) :
    collapse true text = (components [13, 10] text).flatMap (· ++ [13, 10]) := by
  induction hn : text.length using Nat.strong_induction_on generalizing text with
  | _ n ih =>
    rcases exists_first_component [13, 10] text with
      hs | ⟨seps, token, hs, hne, ht, rfl | ⟨c, hc, rest, rfl⟩⟩
    · rw [components_of_separators hs, ← append_nil text, collapse_separators hs]
      rfl
    · -- the last character of a line is no line end
      have hl : (seps ++ token).getLast? = some (token.getLast hne) := by
        simp [getLast?_append, getLast?_eq_some_getLast hne]
      exact absurd (h _ hl) (ht _ (getLast_mem hne))
    · rw [collapse_separators hs, collapse_token ht hne, components_append_left hs,
        components_token_cons ht hne hc, collapse, if_pos (mem_lineEnds.mp hc)]
      have hr : ∀ x ∈ rest.getLast?, x ∈ [13, 10] := by
        intro x hx
        refine h x ?_
        rw [Option.mem_def] at hx ⊢
        simp [getLast?_append, getLast?_cons, hx]
      have hlt : rest.length < n := by
        rw [← hn]
        simp
        omega
      rw [ih _ hlt hr rfl]
      simp

lemma collapse_false (text : Bytes) :
    collapse false text =
      (if ∃ c ∈ text.head?, isEndOfLine c = true then [13, 10] else []) ++ collapse true text := by
  cases text with
  | nil => rfl
  | cons c text =>
    by_cases hc : isEndOfLine c = true <;> simp [collapse, hc]

lemma components_flatMap {lines : List Bytes} (h : ∀ l ∈ lines, l ≠ [] ∧ ∀ c ∈ l, c ∉ [13, 10]) :
    components [13, 10] (lines.flatMap (· ++ [13, 10]) ++ [13, 10]) = lines := by
  induction lines with
  | nil => decide
  | cons l lines ih =>
    obtain ⟨⟨hne, hl⟩, hli⟩ := forall_mem_cons.mp h
    rw [flatMap_cons, append_assoc, append_assoc, cons_append,
      components_token_cons hl hne (by decide), components_append_left (by simp), ih hli]

lemma length_collapse_le (h : ∀ x ∈ [d, c], isEndOfLine x = true) (inRun : Bool) :
    (collapse inRun (text ++ [d, c])).length ≤ 2 * text.length + 2 := by
  induction text generalizing inRun with
  | nil => cases inRun <;> simp_all [collapse]
  | cons x text ih =>
    have ht := ih true
    have hf := ih false
    rw [cons_append, collapse, length_cons]
    split_ifs
    · simp only [nil_append]
      omega
    · simp only [length_append, length_cons, length_nil]
      omega
    · rw [length_cons]
      omega

lemma mem_collapse {inRun : Bool} (h : c ∈ collapse inRun text) : c ∈ text ∨ c ∈ [13, 10] := by
  induction text generalizing inRun with
  | nil => cases h
  | cons x text ih =>
    rw [collapse] at h
    split_ifs at h
    · exact (ih h).imp_left (mem_cons_of_mem x)
    · rcases mem_append.mp h with h | h
      · exact .inr h
      · exact (ih h).imp_left (mem_cons_of_mem x)
    · rcases mem_cons.mp h with rfl | h
      · exact .inl (.head _)
      · exact (ih h).imp_left (mem_cons_of_mem x)

/-- **Canonical headers** of a text that ends with two line ends. -/
theorem canonicalizeHeaders_eq (h : ∀ x ∈ [d, c], isEndOfLine x = true) :
    canonicalizeHeaders (text ++ [d, c]) =
      some ((if ∃ x ∈ (text ++ [d, c]).head?, isEndOfLine x = true then [13, 10] else []) ++
        canonical (text ++ [d, c])) := by
  have hlen : (collapse false (text ++ [d, c])).length ≤ 2 * text.length + 2 :=
    length_collapse_le h false
  have hl : ∀ x ∈ (text ++ [d, c]).getLast?, x ∈ [13, 10] := by
    intro x hx
    obtain rfl : c = x := by simpa using hx
    exact mem_lineEnds.mpr (h _ (by simp))
  simp only [canonicalizeHeaders, canonical]
  rw [if_pos, collapse_false, collapse_eq hl, append_assoc]
  simp only [length_append, length_cons, length_nil] at hlen ⊢
  omega

lemma lines_plain {l : Bytes} (h : l ∈ components [13, 10] text) :
    l ≠ [] ∧ ∀ c ∈ l, c ∉ [13, 10] := by
  refine ⟨ne_nil_of_mem_components h, ?_⟩
  induction hn : text.length using Nat.strong_induction_on generalizing text with
  | _ n ih =>
    rcases exists_first_component [13, 10] text with
      hs | ⟨seps, token, hs, hne, ht, rfl | ⟨c, hc, rest, rfl⟩⟩
    · rw [components_of_separators hs] at h
      cases h
    · rw [components_append_left hs, components_token ht hne, mem_singleton] at h
      exact h ▸ ht
    · rw [components_append_left hs, components_token_cons ht hne hc] at h
      rcases mem_cons.mp h with rfl | h
      · exact ht
      · refine ih rest.length ?_ h rfl
        rw [← hn]
        simp
        omega

lemma canonicalizeHeaders_canonical (h : ¬ ∃ c ∈ (canonical text).head?, isEndOfLine c = true) :
    canonicalizeHeaders (canonical text) = some (canonical text) := by
  have hli : canonical (canonical text) = canonical text := by
    have hs : components [13, 10] (canonical text) = components [13, 10] text :=
      components_flatMap fun l hl => lines_plain hl
    rw [canonical, hs]
    rfl
  have ha : canonicalizeHeaders (canonical text) = _ :=
    canonicalizeHeaders_eq (by simp [isEndOfLine])
  rw [ha]
  exact congrArg some ((if_neg h).symm ▸ hli)

lemma exists_take (h : headerLength data = some n) :
    ∃ front d c, data.take n = front ++ [d, c] ∧ ∀ x ∈ [d, c], isEndOfLine x = true := by
  induction data generalizing n with
  | nil => cases h
  | cons x data ih =>
    rw [headerLength] at h
    cases hb : blankLineAt (x :: data) with
    | none =>
      rw [hb] at h
      obtain ⟨m, hm, rfl⟩ := Option.map_eq_some_iff.mp h
      obtain ⟨front, d, c, ht, he⟩ := ih hm
      exact ⟨x :: front, d, c, by rw [take_succ_cons, ht]; rfl, he⟩
    | some k =>
      rw [hb] at h
      cases h
      unfold blankLineAt at hb
      split_ifs at hb with h1 h2 h3
      · obtain ⟨rest, hr⟩ := h1
        cases hr
        cases hb
        exact ⟨[], 13, 13, rfl, by simp [isEndOfLine]⟩
      · obtain ⟨rest, hr⟩ := h2
        cases hr
        cases hb
        exact ⟨[13, 10], 13, 10, rfl, by simp [isEndOfLine]⟩
      · obtain ⟨rest, hr⟩ := h3
        cases hr
        cases hb
        exact ⟨[], 10, 10, rfl, by simp [isEndOfLine]⟩

/-- **When the headers and the content are right**: exactly if the answer has no blank line, or does
not begin with a line end. -/
theorem content_right_iff (data : Bytes)
    (hnul : ∀ n, headerLength data = some n → 0 ∉ data.take n) :
    Right data ↔ (headerLength data = none ∨ ¬ ∃ c ∈ data.head?, isEndOfLine c = true) := by
  unfold Right getHeaderContent
  rw [split_eq]
  cases hl : headerLength data with
  | none => simp
  | some n =>
    obtain ⟨front, d, c, ht, he⟩ := exists_take hl
    have hh : (data.take n).head? = data.head? := by
      have hn : n ≠ 0 := by
        rintro rfl
        simp at ht
      rw [head?_take, if_neg hn]
    have hc : canonicalizeHeaders (front ++ [d, c]) = _ := canonicalizeHeaders_eq he
    rw [← ht, hh] at hc
    simp only [hc, Option.map_some, Option.some.injEq, HeadersAndContent.mk.injEq,
      reduceCtorEq, false_or]
    split_ifs with hb
    · refine iff_of_false ?_ (not_not.mpr hb)
      rintro ⟨⟨hs, -⟩, -⟩
      have hlen := congrArg List.length hs
      rw [length_append, length_cons] at hlen
      omega
    · refine iff_of_true ?_ hb
      rw [nil_append]
      have hla : ∀ x ∈ (data.take n).getLast?, x ∈ [13, 10] := by
        intro x hx
        obtain rfl : c = x := by simpa [ht] using hx
        exact mem_lineEnds.mpr (he _ (by simp))
      have hco : canonical (data.take n) = collapse false (data.take n) ++ [13, 10] := by
        rw [canonical, collapse_false, hh, if_neg hb, nil_append, collapse_eq hla]
      have hno : (0 : UInt8) ∉ canonical (data.take n) := by
        rw [hco, mem_append, not_or]
        exact ⟨fun hmem => (mem_collapse hmem).elim (hnul n hl) (by decide), by decide⟩
      refine ⟨⟨rfl, by rw [cString_eq_self hno], trivial⟩, canonicalizeHeaders_canonical ?_⟩
      rw [hco]
      cases hte : data.take n with
      | nil => simp [hte] at ht
      | cons x rest =>
        have hx : ¬ isEndOfLine x = true := by
          refine fun hx => hb ⟨x, ?_, hx⟩
          rw [← hh, hte]
          rfl
        rw [collapse, if_neg hx]
        simpa using hx

/-- `A`, two line feeds and `B`. -/
theorem content_right_line :
    (∀ n, headerLength [65, 10, 10, 66] = some n → 0 ∉ ([65, 10, 10, 66] : Bytes).take n) ∧
      Right [65, 10, 10, 66] := by
  have hn : ∀ n, headerLength [65, 10, 10, 66] = some n →
      0 ∉ ([65, 10, 10, 66] : Bytes).take n := by
    rintro n ⟨⟩
    decide
  exact ⟨hn, (content_right_iff _ hn).mpr (.inr (by decide))⟩

/-- **An empty line in front**: a line feed, `A` and two line feeds. -/
theorem content_begins_with_line :
    getHeaderContent [10, 65, 10, 10] = some (some ⟨[13, 10, 65, 13, 10, 13, 10], 7, []⟩) ∧
      canonical [10, 65, 10, 10] = [65, 13, 10, 13, 10] := by
  decide

end Glomop.ClientLib.HeaderContent
