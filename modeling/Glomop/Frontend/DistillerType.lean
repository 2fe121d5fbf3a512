import Glomop.Frontend.Dispatch

/-!
# The bounds of a distiller's type

The type comes from a route, from the URL of an aggregator or from the MIME type, and none of the
three checks its length.
-/

namespace Glomop.Dispatch

open Lib Headers Rpc List

lemma two_le_of_blankLine {front before blanks value rest : Bytes}
    (hbl : ∀ c ∈ blanks, isBlank c = true) (hv : ∀ c ∈ value, isEndOfLine c = false)
    (h : front ++ [13, 10, 13, 10] = before ++ (58 :: blanks ++ value) ++ rest) :
    2 ≤ rest.length := by
  -- what stands in front of the rest does not end a line
  have hl (c : UInt8) (text : Bytes) (hc : isEndOfLine c = true) :
      before ++ (58 :: blanks ++ value) ≠ text ++ [c] := by
    intro heq
    have hmem : (58 :: blanks ++ value).getLast (by simp) = c := by
      have := congrArg getLast? heq
      rw [getLast?_append_of_ne_nil _ (by simp), getLast?_concat] at this
      exact Option.some.inj ((getLast?_eq_some_getLast _).symm.trans this)
    have hin := getLast_mem (l := 58 :: blanks ++ value) (by simp)
    rw [hmem, cons_append, mem_cons, mem_append] at hin
    rcases hin with rfl | hin | hin
    · exact absurd hc (by decide)
    · have hb := hbl c hin
      simp only [isBlank, isEndOfLine, Bool.or_eq_true, beq_iff_eq] at hb hc
      rcases hb with rfl | rfl <;> exact absurd hc (by decide)
    · rw [hv c hin] at hc
      cases hc
  rcases rest with _ | ⟨c, _ | ⟨d, rest⟩⟩
  · refine absurd ?_ (hl 10 (front ++ [13, 10, 13]) rfl)
    rw [append_nil] at h
    rw [← h, append_assoc]
    rfl
  · refine absurd ?_ (hl 13 (front ++ [13, 10]) rfl)
    have hs : before ++ (58 :: blanks ++ value) ++ [c] = front ++ [13, 10, 13] ++ [10] := by
      rw [← h, append_assoc]
      rfl
    rw [append_inj_left' hs rfl]
    simp
  · simp

/-- A header is deleted from a block with a blank line at its end. -/
lemma deleteHeader_isSome (front which : Bytes) :
    (deleteHeader (front ++ [13, 10, 13, 10]) which).isSome = true := by
  unfold deleteHeader
  cases hf : getHeaderValue (front ++ [13, 10, 13, 10]) which with
  | none => rfl
  | some found =>
    obtain ⟨before, blanks, rest, heq, hlen, hb, hv⟩ := exists_of_getHeaderValue hf
    have htw := two_le_of_blankLine hb hv.noEnd heq
    have ht := congrArg List.length heq
    rw [@length_append _ _ rest] at ht
    dsimp only
    rw [if_pos (by omega)]
    rfl

/-- **The type is bounded**: everything that is read and written is inside its string or buffer, and
`dtype` holds a string. -/
def Bounded (req : Request) (block : Bytes) : Prop :=
  ∃ type block', setDistillerType req block = some (some type, block') ∧
    type.length < MAXDISTILLER_TYPE_STRING

/-- The text that the type is taken from is short and terminated: a route of one component by two
characters of the block, and the type in a URL by a slash. -/
def TypeFits (req : Request) (block : Bytes) : Prop :=
  match getHeaderValue block xRoute with
  | some found =>
    (firstComponent found.value).length < MAXDISTILLER_TYPE_STRING ∧
      (59 ∉ found.value → found.hdr + found.totallen + found.value.length + 2 ≤ block.length)
  | none =>
    if startsWith req.aggString req.url then
      let tail := req.url.drop req.aggString.length
      (47 ∈ tail ∨ req.aggString.length ≤ 1) ∧
        (tail.takeWhile (· ≠ 47)).length < MAXDISTILLER_TYPE_STRING
    else
      ((if req.user = [] then [] else req.user ++ [47]) ++
        ((getHeaderValue block contentType).map Found.value).getD textHtml).length <
        MAXDISTILLER_TYPE_STRING

lemma distillerType_eq_some {str type : Bytes} :
    distillerType str = some type ↔ str = type ∧ type.length < MAXDISTILLER_TYPE_STRING := by
  unfold distillerType
  split_ifs with hlt
  · rw [Option.some.injEq]
    exact ⟨fun heq => ⟨heq, heq ▸ hlt⟩, And.left⟩
  · exact iff_of_false (by simp) fun h => hlt (h.1 ▸ h.2)

lemma exists_distillerType {o : Option DistillerType} {str block : Bytes} {p : Prop} [Decidable p]
    (ho : o = if p then some (distillerType str) else none) :
    (∃ type block', o.map (·, block) = some (some type, block') ∧
      type.length < MAXDISTILLER_TYPE_STRING) ↔ p ∧ str.length < MAXDISTILLER_TYPE_STRING := by
  subst ho
  split_ifs with hp
  · simp [distillerType_eq_some, hp]
  · simp [hp]

/-- **When the construction of the type is bounded.** -/
theorem distiller_type_bounded_iff (req : Request) (block : Bytes) :
    Bounded req block ↔ TypeFits req block := by
  unfold Bounded TypeFits setDistillerType
  cases hr : getHeaderValue block xRoute with
  | some found =>
    obtain ⟨before, blanks, rest, hb, hlen, -⟩ := exists_of_getHeaderValue hr
    dsimp only
    split_ifs with hs
    · -- the line that is added ends the block
      have hl : ¬ block.length ≤ 1 := by
        rw [hb]
        have := length_pos_of_mem hs
        simp only [length_append, length_cons]
        omega
      obtain ⟨block', hd⟩ := Option.isSome_iff_exists.mp (deleteHeader_isSome
        (block.take (block.length - 2) ++ (xRoute ++ 58 :: 32 :: otherComponents found.value))
        xRoute)
      have hi : insertHeader block xRoute (otherComponents found.value) false =
          some (block.take (block.length - 2) ++ (xRoute ++ 58 :: 32 :: otherComponents found.value)
            ++ [13, 10, 13, 10]) := by
        rw [insertHeader, if_neg Bool.false_ne_true, appendHeader,
          if_neg fun h => hl (by simp [h]), if_neg fun h => hl h.le, headerText]
        simp
      rw [hi, Option.bind_some, hd]
      simp [distillerType_eq_some, hs]
    · rw [firstComponent_of_not_mem hs, deleteHeader, hr]
      dsimp only
      rw [← Nat.add_assoc, ← Nat.add_assoc]
      split_ifs with hf <;> simp [distillerType_eq_some, hs, hf]
  | none =>
    dsimp only
    by_cases ha : startsWith req.aggString req.url = true
    · rw [if_pos ha, if_pos ha, exists_distillerType (o := aggregatorType req) rfl]
      refine ⟨fun h => ⟨h.1.1, h.2⟩, fun h => ⟨⟨h.1, ?_⟩, h.2⟩⟩
      split_ifs with hsl
      · exact h.2.trans (by decide)
      · -- the type is all that follows the name of the aggregator
        have hal : (req.url.drop req.aggString.length).takeWhile (· ≠ 47) =
            req.url.drop req.aggString.length :=
          takeWhile_eq_self_iff.mpr fun c hc => decide_eq_true fun heq => hsl (heq ▸ hc)
        have ho := h.1.resolve_left hsl
        have hlt := h.2
        rw [hal, length_drop] at hlt
        unfold MAXDISTILLER_TYPE_STRING at hlt
        omega
    · rw [if_neg ha, if_neg ha]
      unfold setDistillerTypeGeneric
      cases getHeaderValue block contentType with
      | none => simp [distillerType_eq_some]
      | some found =>
        dsimp only
        rw [exists_distillerType rfl]
        exact and_iff_right_of_imp fun h => (le_of_lt h).trans (by decide)

/-- **A URL without a slash**: for the aggregator `agg`, the URL `aggx` is read past its end. -/
theorem aggregator_url_without_slash :
    setDistillerType ⟨[97, 103, 103, 120], [117], [97, 103, 103], 3⟩ [] = none := by
  decide

end Glomop.Dispatch
