import Glomop.Frontend.Dispatch
import Glomop.Frontend.ReadBuffer

/-!
# The body of a request

The first read of a request may have got a part of the body.  `server_dispatch` puts that part and
the bytes still to be read together as it should.  `do_post` takes the part for a string, which ends
at the first NUL, and reads the other bytes over it.  Neither can read more bytes than the buffer of
the headers holds, in which their number is recorded (`post_right_iff`).
-/

namespace Glomop.Frontend

open Lib Headers List

section Code

variable (strtoul : Bytes → UInt32)

/-- `len`, the number in the header `content-length`. -/
def contentLengthOf (hdrs : Bytes) : Option ℤ :=
  (getHeaderValue hdrs Dispatch.contentLength).map fun val =>
    (strtoul ((cString hdrs).drop (val.hdr + val.totallen))).toInt32.toInt

inductive PostResult
  /-- What is passed to `Clib_Post`. -/
  | forwarded (buffer : Bytes)
  | noBody
  | errNoContentLength
  | errMalformedRequest
deriving DecidableEq

/-- `hdrs` is what the first read got, and `memory` what was in the buffer before; `none` if the
buffer is too small or an assertion fails.
`cacheop.c`. -/
def doPost (cliHdrs : BufferSize) (memory : ℕ → UInt8) (hdrs : Bytes) (chunks : List Bytes) :
    Option PostResult :=
  match contentLengthOf strtoul hdrs with
  | none => some .errNoContentLength
  | some len =>
    if len < 0 then some .errNoContentLength
    else
      match endOfHeaders (cString hdrs) with
      | none => some .errMalformedRequest
      | some eoh =>
        let n := len.toNat
        let alreadyRead := (cString hdrs).drop eoh
        let buffersize := n + 100
        if buffersize < 2 ^ 31 ∧ alreadyRead.length ≤ buffersize then
          let buffer := alreadyRead ++ (List.range (buffersize - alreadyRead.length)).map memory
          if n > alreadyRead.length then
            let toRead := n - alreadyRead.length
            (readlineOrTimeout cliHdrs (some toRead) chunks).map fun _ =>
              -- the bytes go to the beginning of the buffer
              let got := readText cliHdrs (some toRead) chunks
              .forwarded ((got ++ 0 :: buffer.drop (got.length + 1)).take n)
          else some (.forwarded (buffer.take n))
        else none

/-- The body that is put together for a URL of the front end, if the request has one; `none` if an
assertion fails.
`dispatch.c`. -/
def serverDispatch (cliHdrs : BufferSize) (hdrs : Bytes) (chunks : List Bytes) :
    Option PostResult :=
  match endOfHeaders (cString hdrs) with
  | none => some .errMalformedRequest
  | some eoh =>
    match contentLengthOf strtoul hdrs with
    | none => some .noBody
    | some len =>
      if len < 0 then some .errMalformedRequest
      else
        let n := len.toNat
        let alreadyRead := cliHdrs.length - eoh
        let toCopy := if n ≤ alreadyRead then n else alreadyRead
        let body := (hdrs.drop eoh).take toCopy
        if toCopy < n then
          (readlineOrTimeout cliHdrs (some (n - toCopy)) chunks).map fun _ =>
            let got := readText cliHdrs (some (n - toCopy)) chunks
            if got.length ≠ n - toCopy then .errMalformedRequest else .forwarded (body ++ got)
        else some (.forwarded body)

end Code

variable {strtoul : Bytes → UInt32} {head body : Bytes} {chunks : List Bytes} {n j : ℕ}
  {memory : ℕ → UInt8} {cliHdrs : BufferSize}

lemma four_le_of_endOfHeaders {text : Bytes} (h : endOfHeaders text = some n) :
    4 ≤ text.length := by
  induction text generalizing n with
  | nil => cases h
  | cons c text ih =>
    rw [endOfHeaders] at h
    split_ifs at h with hb
    · exact hb.length_le
    · obtain ⟨m, hm, -⟩ := Option.map_eq_some_iff.mp h
      exact Nat.le_succ_of_le (ih hm)

lemma endOfHeaders_append {text : Bytes} (h : endOfHeaders text = some n) (rest : Bytes) :
    endOfHeaders (text ++ rest) = some n := by
  induction text generalizing n with
  | nil => cases h
  | cons c text ih =>
    rw [endOfHeaders] at h
    rw [cons_append, endOfHeaders]
    split_ifs at h with hb
    · have hl : [13, 10, 13, 10] <+: c :: (text ++ rest) :=
        hb.trans (prefix_append (c :: text) rest)
      rw [if_pos hl, h]
    · obtain ⟨m, hm, rfl⟩ := Option.map_eq_some_iff.mp h
      have hlen := four_le_of_endOfHeaders hm
      have hn : ¬ [13, 10, 13, 10] <+: c :: (text ++ rest) := fun ho => hb
        (prefix_of_prefix_length_le ho (prefix_append (c :: text) rest) (by simp; omega))
      rw [if_neg hn, ih hm, Option.map_some]

/-! ## The two functions -/

/-- A request up to its blank line, with its `Content-Length`. -/
structure IsHead (strtoul : Bytes → UInt32) (head : Bytes) (n : ℕ) : Prop where
  noNul : (0 : UInt8) ∉ head
  blankLine : endOfHeaders head = some head.length
  length_eq : ∀ pre, contentLengthOf strtoul (head ++ pre) = some (n : ℤ)

section

variable (h : IsHead strtoul head n)

include h

lemma IsHead.endOfHeaders_eq (pre : Bytes) :
    endOfHeaders (cString (head ++ pre)) = some head.length ∧
      (cString (head ++ pre)).drop head.length = cString pre := by
  rw [cString_append h.noNul]
  exact ⟨endOfHeaders_append h.blankLine _, drop_left⟩

lemma IsHead.serverDispatch_eq (hl : cliHdrs.length = (head ++ body.take j).length)
    (hn : n ≤ body.length) (hc : chunks.flatten = body.drop j) (hm : n - j ≤ cliHdrs.maxLength) :
    serverDispatch strtoul cliHdrs (head ++ body.take j) chunks =
      some (.forwarded (body.take n)) := by
  have hlen : (body.take j).length = min j body.length := length_take
  have hne : ¬ (n : ℤ) < 0 := by omega
  have hr : cliHdrs.length - head.length = (body.take j).length := by simp [hl]
  unfold serverDispatch
  simp only [(h.endOfHeaders_eq _).1, h.length_eq, if_neg hne, Int.toNat_natCast, hr, drop_left]
  by_cases hle : n ≤ (body.take j).length
  · rw [if_pos hle, if_neg (lt_irrefl n), take_take, Nat.min_eq_left (by omega)]
  · have hj : (body.take j).length = j := by omega
    have hg : ((body.drop j).take (n - j)).length = n - j := by
      rw [length_take, length_drop]
      omega
    rw [if_neg hle, if_pos (by omega), take_of_length_le le_rfl, hj,
      readlineOrTimeout_body _ (by omega), readText, readBytes_eq, hc, hg, BufferSize.setLength,
      dif_pos hm, Option.map_some, if_neg (not_not.mpr rfl), ← take_add,
      Nat.add_sub_cancel' (by omega)]

lemma IsHead.doPost_of_le {pre : Bytes} (hs : n + 100 < 2 ^ 31)
    (hle : n ≤ (cString pre).length) (hf : (cString pre).length ≤ n + 100) :
    doPost strtoul cliHdrs memory (head ++ pre) chunks =
      some (.forwarded ((cString pre).take n)) := by
  have hn : ¬ (n : ℤ) < 0 := by omega
  obtain ⟨he, hd⟩ := h.endOfHeaders_eq pre
  unfold doPost
  simp only [he, h.length_eq, if_neg hn, Int.toNat_natCast, hd]
  rw [if_pos ⟨hs, hf⟩, if_neg (by omega), take_append_of_le_length hle]

lemma IsHead.doPost_of_nil {pre : Bytes} (hs : n + 100 < 2 ^ 31)
    (hn : cString pre = []) (hpos : 0 < n) :
    doPost strtoul cliHdrs memory (head ++ pre) chunks =
      if (chunks.flatten.take n).length ≤ cliHdrs.maxLength then
        some (.forwarded ((chunks.flatten.take n ++ 0 :: ((List.range (n + 100)).map memory).drop
          ((chunks.flatten.take n).length + 1)).take n))
      else none := by
  have hne : ¬ (n : ℤ) < 0 := by omega
  obtain ⟨he, hd⟩ := h.endOfHeaders_eq pre
  unfold doPost
  simp only [he, h.length_eq, if_neg hne, Int.toNat_natCast, hd, hn, length_nil,
    Nat.sub_zero, nil_append, readText, readBytes_eq, readlineOrTimeout_body _ hpos]
  rw [if_pos ⟨hs, Nat.zero_le _⟩, if_pos hpos, BufferSize.setLength]
  split_ifs <;> rfl

lemma IsHead.doPost_of_gt {pre : Bytes} (hgt : 2 ^ 31 ≤ n + 100 ∨ n + 100 < (cString pre).length) :
    doPost strtoul cliHdrs memory (head ++ pre) chunks = none := by
  have hn : ¬ (n : ℤ) < 0 := by omega
  obtain ⟨he, hd⟩ := h.endOfHeaders_eq pre
  unfold doPost
  simp only [he, h.length_eq, if_neg hn, Int.toNat_natCast, hd]
  rw [if_neg]
  omega

end

/-- **A body arrives whole**, with `j` bytes of it in the first read: `do_post` passes on its first
`n` bytes, whatever was in the buffer, and they are those that `server_dispatch` puts together. -/
def PostRight (strtoul : Bytes → UInt32) (cliHdrs : BufferSize) (head : Bytes) (n : ℕ)
    (body : Bytes) (j : ℕ) : Prop :=
  ∀ memory chunks, chunks.flatten = body.drop j →
    doPost strtoul cliHdrs memory (head ++ body.take j) chunks = some (.forwarded (body.take n)) ∧
      serverDispatch strtoul cliHdrs (head ++ body.take j) chunks = some (.forwarded (body.take n))

section

variable (h : IsHead strtoul head n) (hl : cliHdrs.length = (head ++ body.take j).length)
include h hl

lemma IsHead.postRight_zero (hs : n + 100 < 2 ^ 31) (hn : n ≤ body.length) (hj : j = 0)
    (hm : n ≤ cliHdrs.maxLength) : PostRight strtoul cliHdrs head n body j := by
  intro memory chunks hc
  refine ⟨?_, h.serverDispatch_eq hl hn hc (by omega)⟩
  subst hj
  rw [drop_zero] at hc
  rcases Nat.eq_zero_or_pos n with rfl | hpos
  · rw [h.doPost_of_le hs (by simp [cString]) (by simp [cString])]
    simp
  · rw [h.doPost_of_nil hs rfl hpos, hc, if_pos (by rw [length_take]; omega)]
    simp [hn]

lemma IsHead.postRight_one (hn1 : n = 1) (hn : 1 ≤ body.length) (hj : j = body.length)
    (hle : body.length ≤ 101) : PostRight strtoul cliHdrs head n body j := by
  intro memory chunks hch
  refine ⟨?_, h.serverDispatch_eq hl (by omega) hch (by omega)⟩
  subst hj hn1
  rw [take_length, drop_length] at *
  obtain ⟨c, body, rfl⟩ := exists_cons_of_length_pos hn
  by_cases hc : c = 0
  · subst hc
    rw [h.doPost_of_nil (by decide) (by simp [cString]) one_pos, hch, if_pos (by simp)]
    rfl
  · have hs : cString (c :: body) = c :: cString body := by simp [cString, hc]
    have hsh := cString_length_le (c :: body)
    rw [h.doPost_of_le (by decide) (by simp [hs]) (by omega), hs]
    rfl

end

/-- The head `Content-Length: 2` of a request. -/
def sampleHead : Bytes := Dispatch.contentLength ++ [58, 32, 50, 13, 10, 13, 10]

lemma isHead_sample : IsHead (fun _ => 2) sampleHead 2 where
  noNul := by decide
  blankLine := by decide
  length_eq := by
    intro pre
    have hc : CarriesAt (sampleHead ++ pre) Dispatch.contentLength [50] [] (13 :: 10 :: pre) :=
      { isValue := ⟨by simp [isBlank], by simp [isEndOfLine], by decide⟩
        free := by decide
        noNul := by decide
        blankLine := by simp
        eq := ⟨Dispatch.contentLength, [32], rfl, by decide, by simp [isBlank], rfl⟩ }
    have hu : HeadUnique Dispatch.contentLength := ⟨_, _, rfl, by decide +kernel⟩
    obtain ⟨totallen, hf, -⟩ := hc.getHeaderValue hu
    rw [contentLengthOf, hf]
    rfl

end Glomop.Frontend
