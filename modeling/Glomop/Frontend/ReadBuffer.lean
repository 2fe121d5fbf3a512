import Glomop.Lib.CText

/-!
# The client's read buffer

`readline_or_timeout` puts a NUL behind what it has read, and records how much it was as the length
of the headers, also for a body in a buffer of its own.  `client_read_iff` says when neither does
harm.
-/

namespace Glomop.Frontend

open Lib List

/-- `distinterface.h` `DistillerBuffer`, without its contents. -/
structure BufferSize where
  length : ℕ
  maxLength : ℕ
  length_le : length ≤ maxLength
deriving DecidableEq

/-- `distinterface.h` `DistillerBuffer::SetLength`; `none` where the assertion fails. -/
def BufferSize.setLength (buf : BufferSize) (length : ℕ) : Option BufferSize :=
  if h : length ≤ buf.maxLength then some ⟨length, buf.maxLength, h⟩ else none

/-- The loop of `readline_or_timeout` for a number of bytes.  `chunks` is what the calls of `read`
can get, nothing where one is interrupted; behind them is the end of the file.
`comm_http.c` `readline_or_timeout`. -/
def readBytes : ℕ → List Bytes → Bytes
  | _, [] => []
  | nbytes, chunk :: chunks =>
    let got := chunk.take nbytes
    if got.length ≥ nbytes then got else got ++ readBytes (nbytes - got.length) chunks

/-- `strstr(hdrs, "\r\n\r\n") + 4`. -/
def endOfHeaders : Bytes → Option ℕ
  | [] => none
  | c :: rest =>
    if [13, 10, 13, 10] <+: c :: rest then some 4 else (endOfHeaders rest).map (· + 1)

/-- `dumb_strnstr(text, "\r\n\r\n", len)`. -/
def hasEnd (text : Bytes) : Bool := (endOfHeaders (cString text)).isSome

/-- The loop of `readline_or_timeout` for the headers, with `text` in the buffer.  A `read` into a
full buffer gets nothing, which is taken for the end of the file.
`comm_http.c` `readline_or_timeout`. -/
def readHeaders (buflen : ℕ) (text : Bytes) : List Bytes → Bytes
  | [] => text
  | chunk :: chunks =>
    let text' := text ++ chunk.take (buflen - text.length)
    if chunk ≠ [] ∧ text'.length = text.length then text
    else if hasEnd text' then text'
    else readHeaders buflen text' chunks

/-- What is read: as many bytes as `nbytes` says, or the headers. -/
def readText (cliHdrs : BufferSize) (nbytes : Option ℕ) (chunks : List Bytes) : Bytes :=
  match nbytes with
  | some nbytes => readBytes nbytes chunks
  | none => readHeaders cliHdrs.length [] chunks

/-- `cli_hdrs` after the call; `none` where an assertion fails. -/
def readlineOrTimeout (cliHdrs : BufferSize) (nbytes : Option ℕ) (chunks : List Bytes) :
    Option BufferSize :=
  if nbytes.getD cliHdrs.length = 0 then none
  else cliHdrs.setLength (readText cliHdrs nbytes chunks).length

/-- **A safe call**: the NUL is inside the buffer, the assertions hold, and a body leaves the length
of the headers as it was. -/
def ReadSafe (cliHdrs : BufferSize) (nbytes : Option ℕ) (chunks : List Bytes) : Prop :=
  (readText cliHdrs nbytes chunks).length < nbytes.getD cliHdrs.maxLength ∧
    ∃ after, readlineOrTimeout cliHdrs nbytes chunks = some after ∧
      (nbytes.isSome = true → after.length = cliHdrs.length)

variable {buflen : ℕ} {text : Bytes}

/-- **The bytes read** do not depend on how they arrive. -/
theorem readBytes_eq (nbytes : ℕ) (chunks : List Bytes) :
    readBytes nbytes chunks = chunks.flatten.take nbytes := by
  induction chunks generalizing nbytes with
  | nil => simp [readBytes]
  | cons chunk chunks ih =>
    rw [readBytes, flatten_cons, take_append, ih]
    split_ifs with hd
    · rw [length_take] at hd
      rw [Nat.sub_eq_zero_of_le (by omega), take_zero, append_nil]
    · rw [length_take] at hd ⊢
      congr 2
      omega

lemma readlineOrTimeout_body (cliHdrs : BufferSize) {nbytes : ℕ} (h : 0 < nbytes)
    (chunks : List Bytes) : readlineOrTimeout cliHdrs (some nbytes) chunks =
      cliHdrs.setLength (chunks.flatten.take nbytes).length := by
  rw [readlineOrTimeout, Option.getD_some, if_neg h.ne', readText, readBytes_eq]

lemma length_read (buflen : ℕ) (text chunk : Bytes) :
    (text ++ chunk.take (buflen - text.length)).length =
      text.length + min (buflen - text.length) chunk.length := by
  rw [length_append, length_take]

lemma length_readHeaders_le (h : text.length ≤ buflen) (chunks : List Bytes) :
    text.length ≤ (readHeaders buflen text chunks).length ∧
      (readHeaders buflen text chunks).length ≤ buflen := by
  induction chunks generalizing text with
  | nil => exact ⟨le_rfl, h⟩
  | cons chunk chunks ih =>
    have hlen := length_read buflen text chunk
    rw [readHeaders]
    split_ifs
    · exact ⟨le_rfl, h⟩
    · omega
    · have hr := ih (hlen.trans_le (by omega))
      omega

/-- **When the headers leave room**: they end, or nothing more comes, before the buffer is full. -/
lemma length_readHeaders_lt (h : text.length ≤ buflen) (he : hasEnd text = false)
    (chunks : List Bytes) :
    (readHeaders buflen text chunks).length < buflen ↔
      (text ++ chunks.flatten).length < buflen ∨
        ∃ k, (text ++ (chunks.take k).flatten).length < buflen ∧
          hasEnd (text ++ (chunks.take k).flatten) = true := by
  induction chunks generalizing text with
  | nil => simp [readHeaders, he]
  | cons chunk chunks ih =>
    have hlen := length_read buflen text chunk
    have hle : (text ++ chunk.take (buflen - text.length)).length ≤ buflen := by omega
    by_cases hf : text.length + chunk.length < buflen
    · have ht : chunk.take (buflen - text.length) = chunk := take_of_length_le (by omega)
      have hg : ¬ (chunk ≠ [] ∧ (text ++ chunk).length = text.length) := by
        rintro ⟨hne, heq⟩
        rw [length_append, Nat.add_eq_left, length_eq_zero_iff] at heq
        exact hne heq
      rw [readHeaders, ht, if_neg hg]
      split_ifs with hd
      · rw [length_append]
        exact iff_of_true hf (.inr ⟨1, by simpa using hf, by simpa using hd⟩)
      · rw [ih (by rw [length_append]; omega) (by simpa using hd)]
        refine or_congr (by simp [append_assoc]) ⟨?_, ?_⟩
        · rintro ⟨k, hk⟩
          exact ⟨k + 1, by simpa using hk⟩
        · rintro ⟨k, hk⟩
          cases k with
          | zero => simp [he] at hk
          | succ k => exact ⟨k, by simpa using hk⟩
    · -- the buffer is full after this read
      refine iff_of_false ?_ ?_
      · rw [readHeaders]
        split_ifs
        · omega
        · omega
        · have hr := (length_readHeaders_le hle chunks).1
          omega
      · rintro (ha | ⟨k, hk, hs⟩)
        · simp only [flatten_cons, length_append] at ha
          omega
        · cases k with
          | zero => simp [he] at hs
          | succ k =>
            simp only [take_succ_cons, flatten_cons, length_append] at hk
            omega

/-- **When a call is safe.**  For a body: fewer bytes come than are asked for, and as many as the
headers have.  For the headers: there is a buffer, and it is longer than its recorded length or they
end before it is full. -/
theorem client_read_iff (cliHdrs : BufferSize) (nbytes : Option ℕ) (chunks : List Bytes) :
    ReadSafe cliHdrs nbytes chunks ↔
      match nbytes with
      | some n => chunks.flatten.length < n ∧ chunks.flatten.length = cliHdrs.length
      | none => cliHdrs.length ≠ 0 ∧ (cliHdrs.length < cliHdrs.maxLength ∨
          chunks.flatten.length < cliHdrs.maxLength ∨
          ∃ k, (chunks.take k).flatten.length < cliHdrs.maxLength ∧
            hasEnd (chunks.take k).flatten = true) := by
  have hle := cliHdrs.length_le
  unfold ReadSafe readlineOrTimeout BufferSize.setLength
  cases nbytes with
  | some n =>
    simp only [readText, readBytes_eq, length_take, Option.getD_some, Option.isSome_some,
      forall_const]
    constructor
    · rintro ⟨hlt, after, ha, heq⟩
      split_ifs at ha
      cases ha
      dsimp only at heq
      omega
    · rintro ⟨hlt, heq⟩
      refine ⟨by omega, _, (if_neg (by omega)).trans (dif_pos (by omega)), ?_⟩
      dsimp only
      omega
  | none =>
    have hn : ([] : Bytes).length ≤ cliHdrs.length := Nat.zero_le _
    have hr := (length_readHeaders_le hn chunks).2
    have hi := length_readHeaders_lt hn rfl chunks
    simp only [readText, Option.getD_none, Option.isSome_none, Bool.false_eq_true, false_imp_iff,
      and_true]
    by_cases hz : cliHdrs.length = 0
    · simp [hz]
    rw [if_neg hz, and_iff_left ⟨_, dif_pos (hr.trans hle)⟩, and_iff_right hz]
    simp only [nil_append] at hi
    by_cases hlt : cliHdrs.length < cliHdrs.maxLength
    · exact iff_of_true (hr.trans_lt hlt) (.inl hlt)
    · rw [or_iff_right hlt, ← le_antisymm hle (not_lt.mp hlt), hi]

/-- **A body of one byte**: it is read in full, the NUL goes behind the buffer, and the recorded
length of the headers is 1. -/
theorem body_overwrites_length :
    readText ⟨8, 8192, by decide⟩ (some 1) [[120]] = [120] ∧
      (readlineOrTimeout ⟨8, 8192, by decide⟩ (some 1) [[120]]).map BufferSize.length = some 1 := by
  decide

end Glomop.Frontend
