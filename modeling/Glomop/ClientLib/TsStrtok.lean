import Glomop.Share.Strtok

/-!
# `ts_strtok` in memory

`Glomop.Share.Strtok` models `ts_strtok` on the part of the string that is left.  Here are the calls
on the duplicated string itself, with a pointer and a count; a read or a write outside the duplicate
faults.  Nothing faults, and the calls return what the model on lists says (`allTokens_eq`).
-/

namespace Glomop.ClientLib

open Lib List Option

structure TsStrtokState where
  stringDupe : Bytes
  nxtPtr : ℕ
  charsRemaining : ℤ

namespace TsStrtokState

def tsStrtokInit (string : Bytes) : TsStrtokState := ⟨string ++ [0], 0, string.length⟩

def scan (p : UInt8 → Bool) (memory : Bytes) (place : ℕ) : Option ℕ :=
  let len := ((memory.drop place).takeWhile p).length
  if place + len < memory.length then some len else none

def strspn (matching : Bytes) : Bytes → ℕ → Option ℕ := scan fun c => c ≠ 0 && c ∈ matching

def strcspn (matching : Bytes) : Bytes → ℕ → Option ℕ := scan fun c => c ≠ 0 && c ∉ matching

/-- The token, as the caller finds it at the pointer returned, or `NULL`.
`utils.c`. -/
def tsStrtok (matching : Bytes) (state : TsStrtokState) :
    Option (Option Bytes × TsStrtokState) := do
  if state.charsRemaining ≤ 0 then return (none, state)
  let len1 ← strspn matching state.stringDupe state.nxtPtr
  if len1 > state.charsRemaining then return (none, state)
  let tmpo := state.nxtPtr + len1
  let len2 ← strcspn matching state.stringDupe tmpo
  if len1 + len2 > state.charsRemaining then return (none, state)
  if tmpo + len2 < state.stringDupe.length then
    let dupe := state.stringDupe.set (tmpo + len2) 0
    return (some (cString (dupe.drop tmpo)),
      ⟨dupe, tmpo + len2 + 1, state.charsRemaining - (len1 + len2 + 1)⟩)
  else none

/-- Call `ts_strtok` until it returns `NULL`. -/
def calls (matching : Bytes) : ℕ → TsStrtokState → Option (List Bytes)
  | 0, _ => none
  | n + 1, state => do
    let (token, state) ← tsStrtok matching state
    match token with
    | none => return []
    | some token => return token :: (← calls matching n state)

def allTokens (matching string : Bytes) : Option (List Bytes) :=
  calls matching (string.length + 1) (tsStrtokInit string)

variable {matching rest seps token tail pre memory : Bytes} {state : TsStrtokState}

/-- `rest` is what remains of the string: it stands at the pointer, with the NUL behind it, or
nothing remains. -/
def Remains (state : TsStrtokState) (rest : Bytes) : Prop :=
  (∃ pre, state = ⟨pre ++ (rest ++ [0]), pre.length, rest.length⟩) ∨
    (rest = [] ∧ state.charsRemaining ≤ 0)

lemma scan_eq {p : UInt8 → Bool} (hw : ∀ c ∈ token, p c = true) (ht : Stops p tail)
    (hne : tail ≠ []) : scan p (pre ++ (token ++ tail)) pre.length = some token.length := by
  have hpos := length_pos_iff.mpr hne
  unfold scan
  dsimp only
  rw [drop_left, takeWhile_append_stop hw ht, if_pos (by simp; omega)]

lemma stops_and_left {p : UInt8 → Bool} (hs : Stops p rest) :
    Stops (fun c => c ≠ 0 && p c) (rest ++ [0]) := by
  cases rest with
  | nil => exact stops_cons.mpr rfl
  | cons c rest =>
    refine stops_cons.mpr ?_
    rw [stops_cons.mp hs, Bool.and_false]

/-- **A call** that finds a token, be it empty. -/
theorem tsStrtok_run (hsp : ∀ c ∈ seps, c ∈ matching) (hto : ∀ c ∈ token, c ∉ matching)
    (hs : Stops (· ∈ matching) (token ++ tail)) (hta : Stops (· ∉ matching) tail)
    (hne : seps ++ (token ++ tail) ≠ []) (hz : 0 ∉ seps ++ (token ++ tail)) :
    ∃ state', tsStrtok matching ⟨pre ++ (seps ++ (token ++ tail) ++ [0]), pre.length,
        (seps ++ (token ++ tail)).length⟩ = some (some token, state') ∧
      state'.Remains (tail.drop 1) := by
  simp only [mem_append, not_or] at hz
  obtain ⟨hse, ht, htl⟩ := hz
  have hn : ∀ {text : Bytes} {c}, 0 ∉ text → c ∈ text → c ≠ 0 := fun h hc h0 => h (h0 ▸ hc)
  have hlen : (seps ++ (token ++ tail)).length = seps.length + (token.length + tail.length) := by
    simp
  have hpos := length_pos_iff.mpr hne
  have hsn : strspn matching (pre ++ (seps ++ (token ++ tail) ++ [0])) pre.length =
      some seps.length := by
    rw [append_assoc seps]
    exact scan_eq (fun c hc => by simp [hn hse hc, hsp c hc]) (stops_and_left hs) (by simp)
  have hcs : strcspn matching (pre ++ (seps ++ (token ++ tail) ++ [0]))
      (pre.length + seps.length) = some token.length := by
    rw [← length_append, show pre ++ (seps ++ (token ++ tail) ++ [0]) =
      pre ++ seps ++ (token ++ (tail ++ [0])) by simp]
    exact scan_eq (fun c hc => by simp [hn ht hc, hto c hc]) (stops_and_left hta) (by simp)
  -- the separator behind the token, or the NUL, is overwritten
  have hst : (pre ++ (seps ++ (token ++ tail) ++ [0])).set
      (pre.length + seps.length + token.length) 0 =
      pre ++ seps ++ (token ++ 0 :: (tail ++ [0]).drop 1) := by
    rw [← length_append, ← length_append, show pre ++ (seps ++ (token ++ tail) ++ [0]) =
      pre ++ seps ++ token ++ (tail ++ [0]) by simp, set_append_right _ _ le_rfl, Nat.sub_self]
    cases tail <;> simp
  refine ⟨⟨pre ++ seps ++ (token ++ 0 :: (tail ++ [0]).drop 1),
    pre.length + seps.length + token.length + 1,
    (seps ++ (token ++ tail)).length - (seps.length + token.length + 1)⟩, ?_, ?_⟩
  · unfold tsStrtok
    dsimp only
    rw [if_neg (by omega), hsn]
    dsimp only [bind_eq_bind, bind_some]
    rw [if_neg (by omega), hcs]
    dsimp only [bind_some]
    rw [if_neg (by omega), if_pos (by simp; omega), hst, ← length_append, drop_left,
      cString_append_nul ht]
    rfl
  · cases tail with
    | nil =>
      rw [length_nil] at hlen
      exact .inr ⟨rfl, by dsimp only; omega⟩
    | cons c tail =>
      refine .inl ⟨pre ++ seps ++ token ++ [0], ?_⟩
      simp only [cons_append, drop_succ_cons, drop_zero, append_assoc,
        length_append, length_cons, length_nil, nil_append, mk.injEq, true_and]
      exact ⟨by omega, by omega⟩

/-- **Every call** returns what it returns in the model on lists. -/
theorem Remains.tsStrtok (h : state.Remains rest) (hz : 0 ∉ rest) :
    match Glomop.tsStrtok matching rest with
    | none => tsStrtok matching state = some (none, state)
    | some (token, rest') => ∃ state',
        TsStrtokState.tsStrtok matching state = some (some token, state') ∧
        state'.Remains rest' := by
  by_cases hne : rest = []
  · subst hne
    refine if_pos ?_
    rcases h with ⟨pre, rfl⟩ | ⟨-, h⟩
    · exact le_rfl
    · exact h
  · obtain ⟨pre, rfl⟩ := h.resolve_right fun h => hne h.1
    obtain ⟨seps, text, rfl, hs, hst⟩ := exists_span (· ∈ matching) rest
    obtain ⟨token, tail, rfl, ht, hta⟩ := exists_span (· ∉ matching) text
    simp only [decide_eq_true_eq] at hs ht
    rw [tsStrtok_append hs ht hst hta hne]
    exact tsStrtok_run hs ht hst hta hne hz

lemma subset_of_tsStrtok {rest' : Bytes}
    (h : Glomop.tsStrtok matching rest = some (token, rest')) : rest' ⊆ rest := by
  unfold Glomop.tsStrtok at h
  split_ifs at h
  cases h
  exact fun c hc => dropWhile_subset _ (drop_subset _ _ hc)

lemma Remains.calls {n : ℕ} (h : state.Remains rest) (hz : 0 ∉ rest) (hn : rest.length < n) :
    calls matching n state = some (tokensUpTo matching n rest) := by
  induction n generalizing state rest with
  | zero => omega
  | succ n ih =>
    have hc := @Remains.tsStrtok matching rest state h hz
    unfold calls tokensUpTo
    cases hl : Glomop.tsStrtok matching rest with
    | none =>
      rw [hl] at hc
      simp only [hc]
      rfl
    | some found =>
      obtain ⟨token, rest'⟩ := found
      rw [hl] at hc
      obtain ⟨state', hrun, hr⟩ := hc
      have hlt := tsStrtok_length_lt hl
      have hz' : 0 ∉ rest' := fun hmem => hz (subset_of_tsStrtok hl hmem)
      simp only [hrun, bind_eq_bind, bind_some, ih hr hz' (by omega)]
      rfl

/-- **All calls for a string** stay in the duplicate, and return its tokens. -/
theorem allTokens_eq {string : Bytes} (hs : 0 ∉ string) :
    allTokens matching string = some (tokens matching string) := by
  have hr : (tsStrtokInit string).Remains string := .inl ⟨[], rfl⟩
  rw [allTokens, hr.calls hs (Nat.lt_succ_self _), tokens,
    tokensUpTo_eq matching (Nat.le_succ _) le_rfl]

/-- **When the tokens are right**: all calls stay in the duplicate, and they return the segments of
the string between its separators exactly if it does not consist of separators only and does not end
in two. -/
theorem tokenizer_right_iff (matching string : Bytes) (hstring : 0 ∉ string) :
    (allTokens matching string).isSome = true ∧
      (allTokens matching string = some (components matching string) ↔
        ¬ EndsEmpty matching string) := by
  rw [allTokens_eq hstring, tokens_eq_components]
  refine ⟨rfl, ?_⟩
  split_ifs with he
  · simp [he]
  · simp [he]

/-- `a,b,` has the tokens `a` and `b`. -/
theorem tokenizer_right_one_separator :
    (0 : UInt8) ∉ [97, 44, 98, 44] ∧
      allTokens [44] [97, 44, 98, 44] = some (components [44] [97, 44, 98, 44]) :=
  ⟨by decide, (tokenizer_right_iff [44] [97, 44, 98, 44] (by decide)).2.mpr (by decide)⟩

/-- **An empty token**: the second one of `a,,`. -/
theorem tokenizer_empty_token :
    allTokens [44] [97, 44, 44] = some [[97], []] ∧ components [44] [97, 44, 44] = [[97]] := by
  decide

end TsStrtokState

end Glomop.ClientLib
