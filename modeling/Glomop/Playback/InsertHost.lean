import Glomop.Playback.Logparse

/-!
# The host in a URL

A request line without a host gets the server's address, in a block whose size is computed from
`urllen`.  `timerplayproc` passes the length of the string, but `process_log_entry` the field as it
is in the trace, which a little-endian machine reads with its bytes exchanged.
Source: `http_task.c`, `httpstats.c`, `playback_sched.c`; `logparse.c` `lf_ntoa`.
-/

namespace Glomop.Playback

open Lib List

/-- The number that a machine reads from the bytes of a field. -/
def word (little : Bool) (bs : Bytes) : ℕ :=
  (if little then bs.reverse else bs).foldl (fun n b => n * 256 + b.toNat) 0

/-- `url` is the string up to its NUL; `dst_host` is the bytes of the address, in network order. -/
structure HttpTask where
  url : Bytes
  urllen : ℕ
  dst_host : Bytes

/-- The bytes of an address in decimal, the high one first, with dots between them: `lf_ntoa` of
`ntohl`. -/
def lfNtoa (addr : Bytes) : Bytes := [46].intercalate (addr.map fun b => decimal b.toNat)

/-- `http://`. -/
def scheme : Bytes := [104, 116, 116, 112, 58, 47, 47]

/-- The size of the block, if one is allocated, with what is written to it at which place; and the
task afterwards. -/
def insertHostIntoUrl (t : HttpTask) : Option (ℕ × List (ℕ × Bytes)) × HttpTask :=
  match t.url.dropWhile (· ≠ 32) with
  | [] => (none, t)
  | _ :: firstspace =>
    if scheme <+: firstspace then (none, t)
    else
      let firstlen := t.url.length - firstspace.length
      let hoststuff := lfNtoa t.dst_host
      let new := t.url.take firstlen ++ scheme ++ hoststuff ++ firstspace
      (some (t.urllen + 1 + 7 + hoststuff.length,
        [(0, t.url.take firstlen), (firstlen, [0]), (firstlen, scheme ++ [0]),
          (firstlen + 7, hoststuff ++ [0]),
          (firstlen + 7 + hoststuff.length, firstspace ++ [0])]),
        { t with url := new, urllen := new.length })

def methods : List Bytes := [[71, 69, 84], [80, 79, 83, 84], [72, 69, 65, 68], [80, 85, 84]]

namespace LogEntry

def sip (e : LogEntry) : Bytes := e.fields.getD 8 []

/-- The tests that both callers make: one of the methods, `GET`, `POST`, `HEAD` or `PUT`, with a
blank. -/
def passes (least : ℕ) (e : LogEntry) : Bool :=
  cString e.url ≠ [45] ∧ least ≤ (cString e.url).length ∧ e.sip ≠ replicate 4 255 ∧
    e.fields.getD 9 [] ≠ replicate 2 255 ∧ methods.any (· ++ [32] <+: cString e.url)

def sanitycheck (little : Bool) (e : LogEntry) : Bool :=
  e.passes 4 ∧ (word little (e.fields.getD 15 []) + word little (e.fields.getD 16 [])) % 2 ^ 32 ≠ 0

/-- The task of `process_log_entry`. -/
def logTask (little : Bool) (e : LogEntry) : HttpTask :=
  ⟨cString e.url, word little (e.fields.getLastD []), e.sip⟩

/-- The task of `timerplayproc`. -/
def timerTask (e : LogEntry) : HttpTask := ⟨cString e.url, (cString e.url).length, e.sip⟩

end LogEntry

/-- What a call should do: nothing is written outside of the block, the address is put in front of
the path unless the URL is absolute, and a second call does nothing. -/
structure HttpTask.HostRight (t : HttpTask) : Prop where
  inside : ∀ size writes, (insertHostIntoUrl t).1 = some (size, writes) →
    ∀ w ∈ writes, w.1 + w.2.length ≤ size
  text : ∃ method path, t.url = method ++ 32 :: path ∧ 32 ∉ method ∧ (insertHostIntoUrl t).2.url =
    if scheme <+: path then t.url else method ++ 32 :: (scheme ++ lfNtoa t.dst_host ++ path)
  again : insertHostIntoUrl (insertHostIntoUrl t).2 = (none, (insertHostIntoUrl t).2)

/-- The URL is absolute. -/
def LogEntry.Absolute (e : LogEntry) : Prop :=
  scheme <+: ((cString e.url).dropWhile (· ≠ 32)).tail

variable {t : HttpTask} {e : LogEntry} {method path : Bytes}

lemma dropWhile_method (hm : 32 ∉ method) (path : Bytes) :
    (method ++ 32 :: path).dropWhile (· ≠ 32) = 32 :: path := by
  rw [dropWhile_append_of_pos]
  · simp
  · intro c hc
    simpa using ne_of_mem_of_not_mem hc hm

lemma insert_absolute (hu : t.url = method ++ 32 :: path) (hm : 32 ∉ method)
    (ha : scheme <+: path) : insertHostIntoUrl t = (none, t) := by
  rw [insertHostIntoUrl, hu, dropWhile_method hm]
  exact if_pos ha

lemma insert_relative (hu : t.url = method ++ 32 :: path) (hm : 32 ∉ method)
    (ha : ¬ scheme <+: path) :
    ((∀ size writes, (insertHostIntoUrl t).1 = some (size, writes) →
      ∀ w ∈ writes, w.1 + w.2.length ≤ size) ↔ t.url.length ≤ t.urllen) ∧
    (insertHostIntoUrl t).2.url =
      method ++ 32 :: (scheme ++ lfNtoa t.dst_host ++ path) := by
  have hlen : (method ++ 32 :: path).length = method.length + 1 + path.length := by
    simp
    omega
  have hl : (method ++ 32 :: path).length - path.length = method.length + 1 := by omega
  have ht : (method ++ 32 :: path).take (method.length + 1) = method ++ [32] := by
    simp [take_append, take_of_length_le]
  rw [insertHostIntoUrl, hu, dropWhile_method hm]
  dsimp only
  rw [if_neg ha, hl, ht]
  constructor
  · constructor
    · intro h
      have hw := h _ _ rfl _ (.tail _ (.tail _ (.tail _ (.tail _ (.head _)))))
      rw [length_append, length_singleton] at hw
      omega
    · rintro h _ _ ⟨⟩ w hw
      simp only [mem_cons, not_mem_nil, or_false] at hw
      rcases hw with rfl | rfl | rfl | rfl | rfl <;> simp [scheme] <;> omega
  · simp

/-- **When a call is right**: the URL is absolute, or `urllen` is no less than its length. -/
theorem HttpTask.hostRight_iff (hu : t.url = method ++ 32 :: path) (hm : 32 ∉ method) :
    t.HostRight ↔ scheme <+: path ∨ t.url.length ≤ t.urllen := by
  by_cases ha : scheme <+: path
  · have hi := insert_absolute hu hm ha
    refine iff_of_true ⟨?_, ⟨method, path, hu, hm, ?_⟩, ?_⟩ (.inl ha)
    · rw [hi]
      rintro _ _ ⟨⟩
    · rw [hi, if_pos ha]
    · rw [hi, hi]
  · obtain ⟨hin, hr⟩ := insert_relative hu hm ha
    rw [or_iff_right ha, ← hin]
    refine ⟨fun h => h.inside, fun h => ⟨h, ⟨method, path, hu, hm, ?_⟩, ?_⟩⟩
    · rw [hr, if_neg ha]
    · exact insert_absolute hr hm (by simp)

lemma LogEntry.exists_method {least : ℕ} (h : e.passes least = true) :
    ∃ method path, cString e.url = method ++ 32 :: path ∧ 32 ∉ method := by
  obtain ⟨-, -, -, -, h⟩ := of_decide_eq_true h
  obtain ⟨method, hm, hp⟩ := any_eq_true.mp h
  obtain ⟨path, hp⟩ := of_decide_eq_true hp
  exact ⟨method, path, by simp [← hp], (by decide : ∀ m ∈ methods, 32 ∉ m) method hm⟩

/-- **`timerplayproc` is right, and `process_log_entry` if the URL is absolute or the field, as the
machine reads it, is no less than the length of the URL.** -/
theorem insert_host_iff (little : Bool) (e : LogEntry) :
    (e.passes 5 = true → e.timerTask.HostRight) ∧
    (e.sanitycheck little = true → ((e.logTask little).HostRight ↔
      e.Absolute ∨ (cString e.url).length ≤ word little (e.fields.getLastD []))) := by
  constructor
  · intro h
    obtain ⟨method, path, hu, hm⟩ := e.exists_method h
    exact (HttpTask.hostRight_iff hu hm).mpr (.inr le_rfl)
  · intro h
    obtain ⟨method, path, hu, hm⟩ := e.exists_method (of_decide_eq_true h).1
    rw [LogEntry.Absolute, hu, dropWhile_method hm, ← hu]
    exact HttpTask.hostRight_iff hu hm

/-- A URL of 256 bytes, which a little-endian machine takes for one of 1 byte. -/
def slashes : LogEntry :=
  ⟨(widths.dropLast.map fun w => replicate w 1) ++ [[1, 0]], [71, 69, 84, 32] ++ replicate 252 47⟩

/-- A block of 16 bytes is written to up to byte 271. -/
theorem insert_host_overrun : slashes.sanitycheck true = true ∧
    (insertHostIntoUrl (slashes.logTask true)).1.map (fun b =>
      (b.1, b.2.map fun w => w.1 + w.2.length)) = some (16, [4, 5, 12, 19, 271]) := by
  decide +kernel

end Glomop.Playback
