import Glomop.Lib.CText

/-!
# The trace files

An entry is a block of 60 bytes and a URL.  The functions that write an entry take the length 0 of
an empty URL for a failure, although the entry is complete; and `correct_read` returns 0 where the
file ends before the bytes it was asked for, which the reader takes for the end between two entries
(`trace_codec`).  Source: `logparse.c`; `utils.c` `correct_read`, `correct_write`.
-/

namespace Glomop.Playback

open Lib List

/-- The widths of the fields in the block, from `crs` to `urllen`. -/
def widths : List ℕ := [4, 4, 4, 4, 4, 4, 4, 2, 4, 2, 1, 1, 4, 4, 4, 4, 4, 2]

/-- The bytes of the fields, in their order in the block, and of the URL.  `lf_entry`. -/
structure LogEntry where
  fields : List Bytes
  url : Bytes
deriving DecidableEq

/-- The field `urllen` in host order. -/
def uln (fields : List Bytes) : ℕ :=
  match fields.getLastD [] with
  | [b, c] => b.toNat * 256 + c.toNat
  | _ => 0

/-- `memcpy` out of the block. -/
def fieldsOf : List ℕ → Bytes → List Bytes
  | [], _ => []
  | w :: ws, blockbuf => blockbuf.take w :: fieldsOf ws (blockbuf.drop w)

/-- What `correct_read` returns and reads, and what is left.  At the end of the file `read` returns
0, and so does `correct_read`, whatever was read before. -/
def correctRead (len : ℕ) (input : Bytes) : ℕ × Bytes × Bytes :=
  (if len ≤ input.length then len else 0, input.take len, input.drop len)

inductive Next
  | entry (nextentry : LogEntry) (rest : Bytes)
  | eof
  | error
deriving DecidableEq

def lfGetNextEntry (input : Bytes) : Next :=
  let (ret, blockbuf, rest) := correctRead 60 input
  if ret ≠ 60 then if ret = 0 then .eof else .error
  else
    let fields := fieldsOf widths blockbuf
    let (ret, url, rest) := correctRead (uln fields) rest
    if ret ≠ uln fields then if ret = 0 then .eof else .error
    else .entry ⟨fields, url⟩ rest

/-- What a function that writes an entry returns and writes, where `ok` tests the writing of some
bytes. -/
def written (ok : Bytes → Bool) (e : LogEntry) : ℕ × Bytes :=
  let url := e.url.take (uln e.fields)
  if ok e.fields.flatten then
    if ok url then (0, e.fields.flatten ++ url) else (2, e.fields.flatten)
  else (1, [])

/-- `fwrite` of one item returns the number of items, which is 0 for an item without bytes. -/
def lfWrite : LogEntry → ℕ × Bytes := written fun item => (if item = [] then 0 else 1) = 1

/-- `correct_write` returns the length. -/
def lfWriteFd : LogEntry → ℕ × Bytes := written fun data => 0 < data.length

/-- Some calls in a row, up to the first that gives no entry: the entries, and what is left. -/
def calls : ℕ → Bytes → List LogEntry × Bytes
  | 0, input => ([], input)
  | n + 1, input =>
    match lfGetNextEntry input with
    | .entry e rest => (e :: (calls n rest).1, (calls n rest).2)
    | _ => ([], input)

structure LogEntry.Sound (e : LogEntry) : Prop where
  widths : e.fields.map length = widths
  urllen : uln e.fields = e.url.length

def LogEntry.bytes (e : LogEntry) : Bytes := e.fields.flatten ++ e.url

/-- After any number of calls, the end of the file is reported where nothing is left, and an error
where a part of an entry is left. -/
def ReadsRight (input : Bytes) : Prop :=
  ∀ n, match lfGetNextEntry (calls n input).2 with
    | .entry _ _ => True
    | .eof => (calls n input).2 = []
    | .error => (calls n input).2 ≠ []

variable {e : LogEntry} {es : List LogEntry} {input rest : Bytes}

lemma fieldsOf_flatten (fields : List Bytes) :
    fieldsOf (fields.map length) fields.flatten = fields := by
  induction fields with
  | nil => rfl
  | cons f fields ih => rw [map_cons, flatten_cons, fieldsOf, take_left, drop_left, ih]

lemma fieldsOf_spec {ws : List ℕ} {b : Bytes} (h : b.length = ws.sum) :
    (fieldsOf ws b).map length = ws ∧ (fieldsOf ws b).flatten = b := by
  induction ws generalizing b with
  | nil => exact ⟨rfl, (length_eq_zero_iff.mp h).symm⟩
  | cons w ws ih =>
    rw [sum_cons] at h
    obtain ⟨hm, hf⟩ := ih (b := b.drop w) (by rw [length_drop]; omega)
    rw [fieldsOf, map_cons, flatten_cons, hm, hf, take_append_drop, length_take]
    exact ⟨by rw [Nat.min_eq_left (by omega)], rfl⟩

lemma LogEntry.Sound.length_flatten (h : e.Sound) : e.fields.flatten.length = 60 := by
  rw [List.length_flatten, h.widths]
  rfl

lemma LogEntry.Sound.next (h : e.Sound) (rest : Bytes) :
    lfGetNextEntry (e.bytes ++ rest) = .entry e rest := by
  have hl := h.length_flatten
  have hf : fieldsOf Playback.widths e.fields.flatten = e.fields := by
    rw [← h.widths, fieldsOf_flatten]
  rw [lfGetNextEntry, LogEntry.bytes, append_assoc, correctRead, take_left' hl, drop_left' hl]
  simp [hl, hf, correctRead, h.urllen]

lemma lfGetNextEntry_eq (input : Bytes) : lfGetNextEntry input =
    let fields := fieldsOf widths (input.take 60)
    if 60 ≤ input.length ∧ uln fields ≤ (input.drop 60).length then
      .entry ⟨fields, (input.drop 60).take (uln fields)⟩ ((input.drop 60).drop (uln fields))
    else .eof := by
  unfold lfGetNextEntry correctRead
  dsimp only
  split_ifs <;> first | rfl | omega

/-- What is read as an entry is one. -/
lemma lfGetNextEntry_exact (h : lfGetNextEntry input = .entry e rest) :
    input = e.bytes ++ rest ∧ e.Sound := by
  rw [lfGetNextEntry_eq] at h
  dsimp only at h
  generalize hfs : fieldsOf widths (input.take 60) = fields at h
  split_ifs at h with hl
  cases h
  obtain ⟨hw, hf⟩ := @fieldsOf_spec widths (input.take 60) (length_take_of_le hl.1)
  rw [hfs] at hw hf
  refine ⟨?_, hw, (length_take_of_le hl.2).symm⟩
  rw [LogEntry.bytes, hf, append_assoc, take_append_drop, take_append_drop]

lemma ReadsRight.exists_entries (h : ReadsRight input) :
    ∃ es : List LogEntry, (∀ e ∈ es, e.Sound) ∧ input = es.flatMap LogEntry.bytes := by
  induction hn : input.length using Nat.strong_induction_on generalizing input with
  | _ n ih =>
    cases hx : lfGetNextEntry input with
    | entry e rest =>
      obtain ⟨rfl, he⟩ := lfGetNextEntry_exact hx
      have hr : ReadsRight rest := by
        intro n
        have hc := h (n + 1)
        simpa only [calls, hx] using hc
      have hlt : rest.length < n := by
        rw [← hn, LogEntry.bytes, length_append, length_append, he.length_flatten]
        omega
      obtain ⟨es, hs, hes⟩ := ih rest.length hlt hr rfl
      exact ⟨e :: es, forall_mem_cons.mpr ⟨he, hs⟩, by rw [flatMap_cons, ← hes]⟩
    | eof =>
      have h0 := h 0
      simp only [calls, hx] at h0
      exact ⟨[], nofun, h0⟩
    | error =>
      rw [lfGetNextEntry_eq] at hx
      dsimp only at hx
      split_ifs at hx

lemma calls_flatMap (n : ℕ) (hs : ∀ e ∈ es, e.Sound) :
    calls n (es.flatMap LogEntry.bytes) = (es.take n, (es.drop n).flatMap LogEntry.bytes) := by
  induction n generalizing es with
  | zero => rfl
  | succ n ih =>
    cases es with
    | nil => rfl
    | cons e es =>
      rw [flatMap_cons, calls, (hs e (.head _)).next]
      dsimp only
      rw [ih fun e he => hs e (.tail _ he)]
      rfl

lemma LogEntry.Sound.written (h : e.Sound) (hu : e.url ≠ []) {ok : Bytes → Bool}
    (hok : ∀ bs, bs ≠ [] → ok bs = true) : written ok e = (0, e.bytes) := by
  have hne : e.fields.flatten ≠ [] := by
    rw [← length_pos_iff, h.length_flatten]
    decide
  rw [Playback.written, h.urllen, take_length, if_pos (hok _ hne), if_pos (hok _ hu),
    LogEntry.bytes]

/-- **When the codec is right**: what is written by either function is read back exactly if no URL
is empty; and the reader is right on a file exactly if that is a sequence of whole entries. -/
theorem trace_codec (es : List LogEntry) (hs : ∀ e ∈ es, e.Sound) (input : Bytes) :
    ((∀ write ∈ [lfWrite, lfWriteFd], (∀ e ∈ es, (write e).1 = 0) ∧
      calls es.length (es.flatMap fun e => (write e).2) = (es, []) ∧ lfGetNextEntry [] = .eof) ↔
      ∀ e ∈ es, e.url ≠ []) ∧
    (ReadsRight input ↔
      ∃ es : List LogEntry, (∀ e ∈ es, e.Sound) ∧ input = es.flatMap LogEntry.bytes) := by
  refine ⟨⟨fun h e he hu => ?_, fun hu write hw => ?_⟩, ReadsRight.exists_entries, ?_⟩
  · have h0 := (h lfWrite (.head _)).1 e he
    have hb : (written (fun item => (if item = [] then 0 else 1) = 1) e).1 ≠ 0 := by
      rw [written, hu, take_nil]
      by_cases hf : e.fields.flatten = [] <;> simp [hf]
    exact hb h0
  · have hwr : ∀ e ∈ es, write e = (0, e.bytes) := by
      intro e he
      simp only [mem_cons, not_mem_nil, or_false] at hw
      rcases hw with rfl | rfl
      · exact (hs e he).written (hu e he) fun bs hbs => by simp [hbs]
      · exact (hs e he).written (hu e he) fun bs hbs => by simp [length_pos_iff, hbs]
    have hfl : es.flatMap (fun e => (write e).2) = es.flatMap LogEntry.bytes :=
      flatMap_congr fun e he => by rw [hwr e he]
    refine ⟨fun e he => by rw [hwr e he], ?_, rfl⟩
    rw [hfl, calls_flatMap _ hs, take_length, drop_length]
    rfl
  · rintro ⟨es, hs, rfl⟩ n
    rw [calls_flatMap n hs]
    cases hd : es.drop n with
    | nil => rfl
    | cons e rest =>
      have he : e ∈ es.drop n := by simp [hd]
      rw [flatMap_cons, (hs e (mem_of_mem_drop he)).next]
      trivial

/-- An entry of zeros with the length of a URL. -/
def zeroEntry (url : Bytes) : LogEntry :=
  ⟨(widths.dropLast.map fun w => replicate w 0) ++ [[0, .ofNat url.length]], url⟩

theorem trace_codec_one : ((lfWrite (zeroEntry [47])).1 = 0 ∧
    (calls 1 (lfWrite (zeroEntry [47])).2).1 = [zeroEntry [47]]) ∧
    ReadsRight (zeroEntry [47]).bytes := by
  have hs : ∀ e ∈ [zeroEntry [47]], e.Sound := by simpa using ⟨by decide, by decide⟩
  have h := trace_codec [zeroEntry [47]] hs (zeroEntry [47]).bytes
  obtain ⟨hw, hc, -⟩ := h.1.mpr (by decide) lfWrite (.head _)
  exact ⟨⟨hw _ (.head _), by simpa using congrArg Prod.fst hc⟩, h.2.mpr ⟨_, hs, by simp⟩⟩

/-- An empty URL, and a file of one byte. -/
theorem trace_codec_fails : (lfWrite (zeroEntry [])).1 = 2 ∧ (lfWriteFd (zeroEntry [])).1 = 2 ∧
    lfGetNextEntry [0] = .eof := by
  decide

end Glomop.Playback
