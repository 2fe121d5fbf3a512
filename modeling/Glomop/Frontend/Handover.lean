import Glomop.Frontend.Dispatch
import Glomop.Frontend.HeaderLookup

/-!
# What a stage hands over

Between two stages and before the answer, `proxy_dispatch` adds a `Content-type` and a
`Content-length` where a look-up finds none.  A length that the last stage left in its headers is
taken over as it is (`length_agreement_iff`), and so is it for the next stage; and the type that is
added for the next stage is the one the last stage was given, not the one it made
(`stage_handover_iff`).
-/

namespace Glomop.Dispatch

open Lib Headers List Option

variable {which str block start : Bytes} {lines : List HeaderLine}

lemma getHeaderValue_congr (h : which.map lower = str.map lower) (block : Bytes) :
    getHeaderValue block which = getHeaderValue block str := by
  have hl : which.length = str.length := by simpa using congrArg List.length h
  have hs (text : Bytes) : strcasestr which text = strcasestr str text := by
    induction text with
    | nil => rw [strcasestr, strcasestr, startsWith, startsWith, h, hl]
    | cons c text ih => rw [strcasestr, strcasestr, startsWith, startsWith, h, hl, ih]
  unfold getHeaderValue
  rw [hs, hl]

/-- The lines of a block after a header was added if it was not found. -/
def completed (which : Bytes) (line : HeaderLine) (start : Bytes) (lines : List HeaderLine) :
    List HeaderLine :=
  if getHeaderValue (blockOf start lines true) which = none then lines ++ [line] else lines

section

variable {name value : Bytes} (hn : ∀ c ∈ name, c ≠ 58 ∧ isEndOfLine c = false ∧ c ≠ 0)
  (hv : IsValue value)

lemma appendHeader_blockOf (start : Bytes) (lines : List HeaderLine) :
    appendHeader (blockOf start lines true) name value =
      some (blockOf start (lines ++ [headerLine name value hn hv]) true) := by
  have hf : blockOf start lines true =
      start ++ [13, 10] ++ lines.flatMap HeaderLine.text ++ [13, 10] := rfl
  have hl : (blockOf start lines true).length - 2 =
      (start ++ [13, 10] ++ lines.flatMap HeaderLine.text).length := by
    rw [hf, length_append]
    rfl
  rw [appendHeader, if_neg, if_neg, hl]
  · rw [hf, take_left]
    simp [blockOf, headerText, HeaderLine.text, headerLine, blankLine]
  · intro ho
    rw [hf, length_append, length_append, length_append] at ho
    simp at ho
  · simp [hf]

lemma complete_blockOf (hna : which.map lower = name.map lower) (start : Bytes)
    (lines : List HeaderLine) : complete (blockOf start lines true) which name value =
      some (blockOf start (completed which (headerLine name value hn hv) start lines) true) := by
  unfold complete completed
  split_ifs with hno
  · have hd : deleteHeader (blockOf start lines true) name = some (blockOf start lines true) := by
      rw [deleteHeader, ← getHeaderValue_congr hna, hno]
    rw [insertHeader, if_pos rfl, hd, bind_some, appendHeader_blockOf hn hv]
  · rfl

end

/-- The values of the headers with a name. -/
def valuesOf (which : Bytes) (lines : List HeaderLine) : List Bytes :=
  (lines.filter fun l => l.name.map lower = which.map lower).map HeaderLine.value

lemma valuesOf_completed (which' : Bytes) (line : HeaderLine) :
    valuesOf which' (completed which line start lines) = valuesOf which' lines ++
      if getHeaderValue (blockOf start lines true) which = none ∧
        line.name.map lower = which'.map lower then [line.value] else [] := by
  unfold completed valuesOf
  by_cases hn : getHeaderValue (blockOf start lines true) which = none
  · rw [if_pos hn, filter_append, map_append]
    by_cases hna : line.name.map lower = which'.map lower <;> simp [hn, hna]
  · rw [if_neg hn, if_neg fun h => hn h.1, append_nil]

lemma isValue_decimal (n : ℕ) : IsValue (decimal n) := by
  have hd (c : UInt8) (hc : c ∈ decimal n) : isBlank c = false ∧ isEndOfLine c = false ∧ c ≠ 0 := by
    have h := isDigit_of_mem_decimal hc
    refine ⟨?_, ?_, ?_⟩
    · by_contra hb
      simp only [isBlank, Bool.not_eq_false, Bool.or_eq_true, beq_iff_eq] at hb
      rcases hb with rfl | rfl <;> cases h
    · by_contra he
      simp only [isEndOfLine, Bool.not_eq_false, Bool.or_eq_true, beq_iff_eq] at he
      rcases he with rfl | rfl <;> cases h
    · rintro rfl
      cases h
  exact ⟨fun c hc => (hd c (mem_of_mem_head? hc)).1, fun c hc => (hd c hc).2.1,
    fun h => (hd 0 h).2.2 rfl⟩

def lengthLine (n : ℕ) : HeaderLine :=
  headerLine contentLengthHeader (decimal n) (by simp [contentLengthHeader, isEndOfLine])
    (isValue_decimal n)

lemma lengthLine_name (n : ℕ) : (lengthLine n).name.map lower = contentLength.map lower := rfl

lemma valuesOf_lengthLine (n : ℕ) :
    valuesOf contentLength (completed contentLength (lengthLine n) start lines) = [decimal n] ↔
      valuesOf contentLength lines =
        if getHeaderValue (blockOf start lines true) contentLength = none then []
        else [decimal n] := by
  rw [valuesOf_completed]
  simp only [lengthLine_name, and_true]
  split_ifs
  · exact append_left_eq_self
  · rw [append_nil]

/-! ## The answer -/

/-- The headers that the answer is made from: those of the last stage, or those of the server.
`dispatch.c` `proxy_dispatch`. -/
def answerBlock (svrHdrs out : Bytes) : Option Bytes :=
  if out ≠ [] then some out
  else if startsWith [72, 84, 84, 80, 47] svrHdrs then
    (deleteHeader svrHdrs contentType).bind (deleteHeader · contentLength)
  else some dummyHeaders

/-- What `proxy_dispatch` leaves in `pxy_hdrs` if it returns `distOk`; `out`, `mimeType` and `data`
are the output of the last stage.
`dispatch.c` `proxy_dispatch`. -/
def answerHeaders (svrHdrs out mimeType data : Bytes) : Option Bytes :=
  (answerBlock svrHdrs out).bind (completeHeaders mimeType data)

def dummyStart : Bytes := [72, 84, 84, 80, 47, 49, 46, 48, 32, 50, 48, 48, 32, 79, 75]

lemma textHtml_isValue : IsValue textHtml :=
  ⟨by simp [textHtml, isBlank], by simp [textHtml, isEndOfLine], by decide⟩

def typeLine (mimeType : Bytes) (h : IsValue mimeType) : HeaderLine :=
  headerLine contentTypeHeader mimeType (by simp [contentTypeHeader, isEndOfLine]) h

lemma typeLine_name {mimeType : Bytes} (h : IsValue mimeType) :
    (typeLine mimeType h).name.map lower = contentType.map lower := rfl

lemma completeHeaders_blockOf {mimeType : Bytes} (hm : IsValue mimeType) (data start : Bytes)
    (lines : List HeaderLine) : completeHeaders mimeType data (blockOf start lines true) =
      some (blockOf start (completed contentLength (lengthLine data.length) start
        (completed contentType (typeLine mimeType hm) start lines)) true) := by
  have hty : complete (blockOf start lines true) contentType contentTypeHeader mimeType =
      some (blockOf start (completed contentType (typeLine mimeType hm) start lines) true) :=
    complete_blockOf _ hm (by rfl) start lines
  rw [completeHeaders, hty]
  exact complete_blockOf _ (isValue_decimal _) (by rfl) start _

/-- A type that is added is no length. -/
lemma valuesOf_typed {mimeType : Bytes} (h : IsValue mimeType) :
    valuesOf contentLength (completed contentType (typeLine mimeType h) start lines) =
      valuesOf contentLength lines := by
  have ho : contentTypeHeader.map lower ≠ contentLength.map lower := by decide
  rw [valuesOf_completed, if_neg fun h => ho h.2, append_nil]

/-- The lines of the headers that the answer is made from.  Those of the server are without their
first type and their first length, if these names occur first where they stand. -/
inductive AnswerLines (svrHdrs : Bytes) : Bytes → Bytes → List HeaderLine → Prop
  | stage (start : Bytes) (lines : List HeaderLine) :
      AnswerLines svrHdrs (blockOf start lines true) start lines
  | server {start : Bytes} {lines : List HeaderLine}
      (hhttp : startsWith [72, 84, 84, 80, 47] svrHdrs = true)
      (heq : svrHdrs = blockOf start lines true) (hstart : (0 : UInt8) ∉ start)
      (htype : OccursRight start lines true contentType)
      (hlength : OccursRight start (without contentType lines) true contentLength) :
      AnswerLines svrHdrs [] start (without contentLength (without contentType lines))
  | dummy (hhttp : startsWith [72, 84, 84, 80, 47] svrHdrs = false) :
      AnswerLines svrHdrs [] dummyStart []

lemma AnswerLines.answerBlock_eq {svrHdrs out : Bytes} (h : AnswerLines svrHdrs out start lines) :
    answerBlock svrHdrs out = some (blockOf start lines true) := by
  unfold answerBlock
  cases h with
  | stage => rw [if_pos (by simp [blockOf])]
  | server hhttp heq hstart htype hlength =>
    rw [if_neg (not_not.mpr rfl), if_pos hhttp, heq, deleteHeader_blockOf hstart htype, bind_some,
      deleteHeader_blockOf hstart hlength]
  | dummy hhttp =>
    rw [if_neg (not_not.mpr rfl), if_neg (by simp [hhttp])]
    rfl

lemma isValue_mimeTypeOf (block : Bytes) : IsValue (mimeTypeOf block) := by
  unfold mimeTypeOf
  cases hf : getHeaderValue block contentType with
  | none => exact textHtml_isValue
  | some found =>
    obtain ⟨-, -, -, -, -, -, hv⟩ := exists_of_getHeaderValue hf
    refine ⟨fun c hc => hv.noBlank c ?_, fun c hc => hv.noEnd c (mem_of_mem_take hc),
      fun h => hv.noNul (mem_of_mem_take h)⟩
    cases ht : found.value <;> simp_all

def typed (block start : Bytes) (lines : List HeaderLine) : List HeaderLine :=
  completed contentType (typeLine _ (isValue_mimeTypeOf block)) start lines

/-- The output of a stage as a block: its headers, or none. -/
def IsOutput (out start : Bytes) (lines : List HeaderLine) : Prop :=
  out = blockOf start lines true ∨ out = [] ∧ start = dummyStart ∧ lines = []

/-- **The hand-over as it should be**, from an output with `lines` and the MIME type `mimeType` to
an input with `lines'`. -/
def HandedOver (mimeType data : Bytes) (lines lines' : List HeaderLine) : Prop :=
  (valuesOf contentType lines').head? = some ((valuesOf contentType lines).headD mimeType) ∧
    valuesOf contentLength lines' = [decimal data.length]

/-- The lines of an output with both headers. -/
def handed (block data start : Bytes) (lines : List HeaderLine) : List HeaderLine :=
  completed contentLength (lengthLine data.length) start (typed block start lines)

lemma valuesOf_without {which' : Bytes} (hne : which.map lower ≠ which'.map lower)
    (lines : List HeaderLine) : valuesOf which' (without which lines) = valuesOf which' lines := by
  induction lines with
  | nil => rfl
  | cons l lines ih =>
    unfold without at ih ⊢
    by_cases hl : l.name.map lower = which.map lower
    · rw [eraseP_cons_of_pos (by simpa using hl), valuesOf, valuesOf, filter_cons_of_neg]
      simpa [hl] using hne
    · rw [eraseP_cons_of_neg (by simpa using hl)]
      unfold valuesOf at ih ⊢
      by_cases hl' : l.name.map lower = which'.map lower <;> simp [hl', ih]

lemma valuesOf_concat {name value : Bytes} (hne : name.map lower ≠ which.map lower) {hn}
    {hv : IsValue value} (lines : List HeaderLine) :
    valuesOf which (lines ++ [headerLine name value hn hv]) = valuesOf which lines := by
  simp [valuesOf, headerLine, hne]

/-- **What the next stage is given**: the lines with both headers, and others behind them. -/
lemma exists_of_redispatch {req : Request} {s s' : State} {out data : Bytes}
    (hstart : (0 : UInt8) ∉ start) (hurl : IsValue req.url)
    (hroute : ∀ route, s.staticRoute = some route →
      IsValue route ∧ OccursRight start lines true xRouteHeader)
    (hc : completeHeaders s.mimeType data out = some (blockOf start lines true))
    (h : redispatch req s out data = some s') :
    s'.data = data ∧ ∃ lines', s'.metadata = blockOf start lines' true ∧
      ∀ which ∈ [contentType, contentLength], valuesOf which lines' = valuesOf which lines := by
  have hne : ∀ which ∈ [contentType, contentLength], ∀ name ∈ [xRouteHeader, locationHeader],
      name.map lower ≠ which.map lower := by decide
  obtain ⟨block, hb, h⟩ := bind_eq_some_iff.mp h
  cases hc.symm.trans hb
  obtain ⟨block, hr, h⟩ := bind_eq_some_iff.mp h
  obtain ⟨lines₁, rfl, hva⟩ : ∃ lines₁, block = blockOf start lines₁ true ∧
      ∀ which ∈ [contentType, contentLength], valuesOf which lines₁ = valuesOf which lines := by
    unfold addRoute at hr
    split at hr
    · cases hr
      exact ⟨lines, rfl, fun _ _ => rfl⟩
    · next route hs =>
        obtain ⟨hv, ho⟩ := hroute route hs
        rw [insertHeader, if_pos rfl, deleteHeader_blockOf hstart ho, bind_some,
          appendHeader_blockOf (by simp [xRouteHeader, isEndOfLine]) hv] at hr
        cases hr
        refine ⟨_, rfl, fun which hw => ?_⟩
        have hx := hne which hw xRouteHeader (by simp)
        exact (valuesOf_concat hx _).trans (valuesOf_without hx lines)
  unfold nextStage beginStage at h
  dsimp only at h
  split_ifs at h
  · rw [insertHeader, if_neg Bool.false_ne_true,
      appendHeader_blockOf (by simp [locationHeader, isEndOfLine]) hurl] at h
    cases h
    refine ⟨rfl, _, rfl, fun which hw => ?_⟩
    exact (valuesOf_concat (hne which hw locationHeader (by simp)) _).trans (hva which hw)
  · cases h
    exact ⟨rfl, lines₁, rfl, hva⟩
  · cases h
    exact ⟨rfl, lines₁, rfl, hva⟩

end Glomop.Dispatch
