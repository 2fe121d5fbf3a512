import Glomop.Lib.CText

/-!
# The output buffer of the HTML munger

`append_string` writes behind what is in the buffer, and lets the buffer grow first if its recorded
size is reached.  That size is never brought up to date, and the new one does not depend on the
string; a length of 0 stands for the length of the string.
-/

namespace Glomop.HtmlMunger

open Lib List Option

/-- `html_buf` are the bytes up to `html_buflen`, and `allocated` is the size of the block they are
in.
`munge.h`. -/
structure OutputInfo where
  html_buf : Bytes
  html_bufsize : ℕ
  allocated : ℕ

/-- A call of `append_string`: with an explicit length, for the bytes `src`, behind which the memory
goes on with `beyond`; or with -1, for the NUL-terminated string in `s`. -/
inductive AppendCall
  | bytes (src beyond : Bytes)
  | string (s : Bytes)

namespace AppendCall

/-- What is written, without the NUL behind it; `none` where `strlen` leaves the memory.
`munge_magic.c` `append_string`, `bogon_strncpy`. -/
def written : AppendCall → Option Bytes
  | bytes [] beyond => if 0 ∈ beyond then some (cString beyond) else none
  | bytes src _ => some (cString src ++ replicate (src.length - (cString src).length) 0)
  | string s => some (cString s)

def requested : AppendCall → Bytes
  | bytes src _ => src
  | string s => cString s

/-- An explicit length is not 0, unless the string is empty, and among that many bytes nothing but
NULs follows a NUL. -/
def Plain : AppendCall → Prop
  | bytes src beyond =>
    (src = [] → beyond.head? = some 0) ∧ ∀ b ∈ src.dropWhile (· ≠ 0), b = 0
  | string _ => True

variable {a : AppendCall} {text : Bytes}

lemma length_requested_le (h : a.written = some text) : a.requested.length ≤ text.length := by
  cases a with
  | string s =>
    cases h
    exact le_refl _
  | bytes src beyond =>
    cases src with
    | nil => exact Nat.zero_le _
    | cons c src =>
      cases h
      rw [length_append, length_replicate]
      exact le_add_tsub

/-- **The right bytes** are written. -/
theorem written_eq_requested_iff : a.written = some a.requested ↔ a.Plain := by
  cases a with
  | string s => exact iff_of_true rfl trivial
  | bytes src beyond =>
    cases src with
    | nil =>
      cases beyond with
      | nil => simp [written, Plain]
      | cons c rest => by_cases hc : c = 0 <;> simp [written, requested, Plain, cString, hc]
    | cons c rest =>
      simp only [written, requested, Plain, reduceCtorEq, false_imp_iff, true_and]
      generalize c :: rest = src
      have hcut : cString src ++ src.dropWhile (· ≠ 0) = src := takeWhile_append_dropWhile
      have hlen := congrArg length hcut
      rw [length_append] at hlen
      rw [some.injEq]
      conv_lhs => rhs; rw [← hcut]
      rw [append_cancel_left_eq, eq_comm, eq_replicate_iff, and_iff_right (by omega)]

end AppendCall

/-- The size of the block when `len` bytes are to be written.
`munge_magic.c` `append_string`. -/
def OutputInfo.grow (di : OutputInfo) (len : ℕ) : ℕ :=
  if di.html_buf.length + len ≥ di.html_bufsize then
    di.html_buf.length + di.html_buf.length / 4
  else di.allocated

/-- `none` where a byte is written outside of the block.
`munge_magic.c`. -/
def appendString (di : OutputInfo) (a : AppendCall) : Option OutputInfo :=
  a.written.bind fun text =>
    if di.html_buf.length + text.length < di.grow text.length then
      some ⟨di.html_buf ++ text, di.html_bufsize, di.grow text.length⟩
    else none

/-- All writes lie in the buffer, and it holds what was requested.
`munge.c` `DistillerMain`. -/
def Collects (size : ℕ) (calls : List AppendCall) : Prop :=
  ∃ di, calls.foldlM appendString ⟨[], size, size⟩ = some di ∧
    di.html_buf = calls.flatMap (·.requested)

/-- Each call comes before the size is reached, or asks for less than a quarter of what is there. -/
def Sized (size : ℕ) : ℕ → List AppendCall → Prop
  | _, [] => True
  | buflen, a :: calls =>
    (buflen + a.requested.length < size ∨ a.requested.length < buflen / 4) ∧
      Sized size (buflen + a.requested.length) calls

variable {size : ℕ} {calls : List AppendCall} {a : AppendCall} {di di' : OutputInfo}

/-- Until its recorded size is reached, the buffer has that size. -/
def OutputInfo.Sound (size : ℕ) (di : OutputInfo) : Prop :=
  di.html_bufsize = size ∧ (di.html_buf.length < size → di.allocated = size)

/-- **One call** appends what it writes, if that fits. -/
theorem OutputInfo.Sound.append_iff (h : di.Sound size) : appendString di a = some di' ↔
    ∃ text, a.written = some text ∧
      (di.html_buf.length + text.length < size ∨ text.length < di.html_buf.length / 4) ∧
      di' = ⟨di.html_buf ++ text, size, di.grow text.length⟩ := by
  obtain ⟨rfl, hr⟩ := h
  rw [appendString, bind_eq_some_iff]
  refine exists_congr fun text => and_congr_right fun _ => ?_
  have hf : di.html_buf.length + text.length < di.grow text.length ↔
      di.html_buf.length + text.length < di.html_bufsize ∨
        text.length < di.html_buf.length / 4 := by
    unfold OutputInfo.grow
    split_ifs with hg <;> omega
  rw [ite_none_right_eq_some, hf, some.injEq, eq_comm (a := di')]

lemma OutputInfo.Sound.append (h : di.Sound size) (text : Bytes) :
    Sound size ⟨di.html_buf ++ text, size, di.grow text.length⟩ := by
  obtain ⟨rfl, hr⟩ := h
  refine ⟨rfl, fun hl => ?_⟩
  rw [length_append] at hl
  exact (if_neg (not_le.mpr hl)).trans (hr (by omega))

lemma OutputInfo.Sound.run (h : di.Sound size) (hs : calls.foldlM appendString di = some di') :
    ∃ text, di'.html_buf = di.html_buf ++ text ∧
      (calls.flatMap (·.requested)).length ≤ text.length := by
  induction calls generalizing di with
  | nil =>
    cases hs
    exact ⟨[], (append_nil _).symm, le_refl _⟩
  | cons a calls ih =>
    obtain ⟨di1, h1, h2⟩ := bind_eq_some_iff.mp hs
    obtain ⟨text, ha, -, rfl⟩ := h.append_iff.mp h1
    obtain ⟨rest, hr, hl⟩ := ih (h.append text) h2
    refine ⟨text ++ rest, by rw [hr, append_assoc], ?_⟩
    rw [flatMap_cons, length_append, length_append]
    exact Nat.add_le_add (AppendCall.length_requested_le ha) hl

lemma OutputInfo.Sound.run_iff (h : di.Sound size) :
    (∃ di', calls.foldlM appendString di = some di' ∧
      di'.html_buf = di.html_buf ++ calls.flatMap (·.requested)) ↔
      Sized size di.html_buf.length calls ∧ ∀ a ∈ calls, a.Plain := by
  induction calls generalizing di with
  | nil => exact iff_of_true ⟨di, rfl, (append_nil _).symm⟩ ⟨trivial, nofun⟩
  | cons a calls ih =>
    have hi := ih (h.append a.requested)
    rw [length_append] at hi
    rw [forall_mem_cons, Sized, flatMap_cons, ← append_assoc]
    constructor
    · rintro ⟨di', hs, heq⟩
      obtain ⟨di1, h1, h2⟩ := bind_eq_some_iff.mp hs
      obtain ⟨text, ha, hf, rfl⟩ := h.append_iff.mp h1
      obtain ⟨rest, hr, hl⟩ := (h.append text).run h2
      -- nothing is shorter than requested, so that equal texts have equal parts
      have hle := AppendCall.length_requested_le ha
      have hcut := hr.symm.trans heq
      have hlen := congrArg length hcut
      simp only [append_assoc, length_append] at hlen
      rw [append_assoc, append_assoc, append_cancel_left_eq] at hcut
      obtain ⟨rfl, rfl⟩ := append_inj hcut (by omega)
      obtain ⟨hsz, hp⟩ := hi.mp ⟨di', h2, heq⟩
      exact ⟨⟨hf, hsz⟩, AppendCall.written_eq_requested_iff.mp ha, hp⟩
    · rintro ⟨⟨hf, hsz⟩, ha, hp⟩
      obtain ⟨di', h2, heq⟩ := hi.mpr ⟨hsz, hp⟩
      have h1 := h.append_iff.mpr ⟨_, AppendCall.written_eq_requested_iff.mpr ha, hf, rfl⟩
      exact ⟨di', by rw [foldlM_cons, h1]; exact h2, heq⟩

/-- **When the buffer holds what was asked for**: exactly if each call comes before the first size
is reached or asks for less than a quarter of what is there, no length is 0 for a string that is not
empty, and no explicit length reaches behind a NUL. -/
theorem output_buffer_iff (size : ℕ) (calls : List AppendCall) :
    Collects size calls ↔ Sized size 0 calls ∧ ∀ a ∈ calls, a.Plain :=
  @OutputInfo.Sound.run_iff size calls ⟨[], size, size⟩ ⟨rfl, fun _ => rfl⟩

/-- **A string longer than a quarter of the buffer**: 4 bytes behind 4 others, in a buffer of 6. -/
theorem output_buffer_overrun : ¬ Collects 6 [.bytes [1, 1, 1, 1] [], .bytes [2, 2, 2, 2] []] := by
  rintro ⟨di, hs, -⟩
  cases hs

end Glomop.HtmlMunger
