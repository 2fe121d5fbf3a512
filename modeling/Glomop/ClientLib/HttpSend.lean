import Glomop.Lib.CText

/-!
# Sending a request

`do_http_send` puts the request line and the headers into one buffer, and looks at the last four
characters of the headers to see whether a blank line is missing.  They may have fewer: `do_get`
passes the empty string.
-/

namespace Glomop.ClientLib

open Lib List Option

inductive RequestType
  | get
  | post
  | head
deriving DecidableEq

/-- The method and a blank. -/
def RequestType.text : RequestType → Bytes
  | .get => [71, 69, 84, 32]
  | .post => [80, 79, 83, 84, 32]
  | .head => [72, 69, 65, 68, 32]

/-- ` HTTP/1.0` and the end of the line. -/
def sendHttp : Bytes := [32, 72, 84, 84, 80, 47, 49, 46, 48, 13, 10]

/-- `Accept: image/gif, image/jpeg, */*`, the type of a form, and `Content-length: `. -/
def formHeaders : Bytes :=
  [65, 99, 99, 101, 112, 116, 58, 32, 105, 109, 97, 103, 101, 47, 103, 105, 102, 44, 32, 105, 109,
    97, 103, 101, 47, 106, 112, 101, 103, 44, 32, 42, 47, 42, 13, 10, 67, 111, 110, 116, 101, 110,
    116, 45, 116, 121, 112, 101, 58, 32, 97, 112, 112, 108, 105, 99, 97, 116, 105, 111, 110, 47,
    120, 45, 119, 119, 119, 45, 102, 111, 114, 109, 45, 117, 114, 108, 101, 110, 99, 111, 100, 101,
    100, 13, 10, 67, 111, 110, 116, 101, 110, 116, 45, 108, 101, 110, 103, 116, 104, 58, 32]

/-- What is written behind the request line if there are no headers. -/
def extraHeaders (type : RequestType) (data : Bytes) : Bytes :=
  if data = [] ∨ type ≠ .post then [13, 10]
  else formHeaders ++ decimal data.length ++ [13, 10, 13, 10]

/-- What `do_http_send` writes to the socket with `send_http` set, if every write succeeds; `none`
where it reads in front of the headers or writes behind its buffer.
`icp.c`. -/
def doHttpSend (type : RequestType) (url : Bytes) (mimeHeaders : Option Bytes) (data : Bytes) :
    Option Bytes :=
  let totlen := type.text.length + 11 + 2 + (mimeHeaders.getD []).length + url.length
  let buffer := type.text ++ url ++ sendHttp
  match mimeHeaders with
  | none => if buffer.length ≤ totlen then
      some ((buffer ++ [0]).take (totlen - 2) ++ extraHeaders type data ++ data)
    else none
  | some headers =>
    if headers.length < 4 then none
    else
      let last := headers.drop (headers.length - 4)
      let buffer := buffer ++ headers ++ if last ≠ [13, 10, 13, 10] then [13, 10] else []
      let totlen := if last ≠ [13, 10, 13, 10] then totlen else totlen - 2
      if buffer.length ≤ totlen then some ((buffer ++ [0]).take totlen ++ data) else none

/-! ## Headers -/

/-- Header lines, and whether a blank line follows. -/
structure HeaderText where
  lines : List Bytes
  blank : Bool
  plain : ∀ l ∈ lines, l ≠ [] ∧ ∀ c ∈ l, c ≠ 13 ∧ c ≠ 10 ∧ c ≠ 0

def linesText (lines : List Bytes) : Bytes := lines.flatMap (· ++ [13, 10])

def HeaderText.text (h : HeaderText) : Bytes :=
  linesText h.lines ++ if h.blank then [13, 10] else []

/-- **The request as it should be**: the request line, the headers, one blank line and the body. -/
def requestText (type : RequestType) (url : Bytes) (headers : Option HeaderText) (data : Bytes) :
    Bytes :=
  type.text ++ url ++ sendHttp ++
    (match headers with
      | none => extraHeaders type data
      | some h => linesText h.lines ++ [13, 10]) ++ data

variable {h : HeaderText}

/-- Whether the blank line is there can be seen in the last four characters. -/
lemma HeaderText.last_iff (hl : 4 ≤ h.text.length) :
    h.text.drop (h.text.length - 4) = [13, 10, 13, 10] ↔ h.blank = true := by
  obtain ⟨front, c, hli, hc⟩ : ∃ front c, linesText h.lines = front ++ [c, 13, 10] ∧ c ≠ 10 := by
    rcases eq_nil_or_concat h.lines with hn | ⟨lines, l, hco⟩
    · rw [HeaderText.text, hn] at hl
      cases hb : h.blank <;> simp [linesText, hb] at hl
    · obtain ⟨hne, hp⟩ := h.plain l (by simp [hco])
      obtain ⟨l', c, rfl⟩ := (eq_nil_or_concat l).resolve_left hne
      exact ⟨linesText lines ++ l', c, by simp [linesText, hco], (hp c (by simp)).2.1⟩
  unfold HeaderText.text at hl ⊢
  cases h.blank with
  | true =>
    have hs : linesText h.lines ++ [13, 10] = (front ++ [c]) ++ [13, 10, 13, 10] := by
      simp [hli]
    have hlen : ((front ++ [c]) ++ [13, 10, 13, 10]).length - 4 = (front ++ [c]).length := by simp
    simp only [if_true, hs, hlen, drop_left]
  | false =>
    simp only [Bool.false_eq_true, if_false, append_nil, iff_false]
    intro hla
    -- the character in front of the last two would end a line
    have hs := take_append_drop ((linesText h.lines).length - 4) (linesText h.lines)
    rw [hla] at hs
    have he := hs.trans hli
    rw [append_cons] at he
    exact hc (List.cons.inj (append_inj_right' he rfl)).1.symm

lemma take_buffer {buffer : Bytes} {n : ℕ} (hn : n = buffer.length) :
    (buffer ++ [0]).take n = buffer := by
  rw [hn, take_left]

/-- **When the request is right**: if there are no headers, or at least four characters of them. -/
theorem http_send_iff (type : RequestType) (url : Bytes) (headers : Option HeaderText)
    (data : Bytes) :
    doHttpSend type url (headers.map HeaderText.text) data =
        some (requestText type url headers data) ↔
      ∀ h ∈ headers, 4 ≤ h.text.length := by
  cases headers with
  | none =>
    refine iff_of_true ?_ (by simp)
    have hle : (type.text ++ url ++ sendHttp).length = type.text.length + url.length + 11 := by
      simp [sendHttp]
      omega
    simp only [doHttpSend, map_none, getD_none, length_nil]
    rw [if_pos (by omega), take_buffer (by omega)]
    rfl
  | some h =>
    simp only [mem_def, some.injEq, forall_eq', map_some]
    by_cases hsh : h.text.length < 4
    · rw [doHttpSend, if_pos hsh]
      exact iff_of_false (by simp) (by omega)
    · refine iff_of_true ?_ (by omega)
      have hl := HeaderText.last_iff (not_lt.mp hsh)
      have hs : sendHttp.length = 11 := rfl
      simp only [doHttpSend, if_neg hsh, getD_some, ne_eq, hl, requestText]
      unfold HeaderText.text
      cases h.blank with
      | true =>
        simp only [not_true_eq_false, if_false, if_true, append_nil, length_append, hs]
        rw [if_pos (by omega), take_buffer (by simp only [length_append, hs]; omega)]
      | false =>
        simp only [Bool.false_eq_true, not_false_eq_true, if_true, if_false, append_nil,
          length_append, hs]
        rw [if_pos (by simp; omega), take_buffer (by simp only [length_append, hs]; simp; omega)]
        simp

/-- **An empty string of headers**, which `do_get` passes for anonymous users: the look at its last
four characters is in front of it. -/
theorem empty_headers_read_outside : doHttpSend .get [47] (some []) [] = none := by
  decide

end Glomop.ClientLib
