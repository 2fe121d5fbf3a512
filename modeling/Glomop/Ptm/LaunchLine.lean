import Glomop.Ptm.LaunchDatabase

/-!
# The line of a launch record

The value of a `dist.<type>` option is an executable, up to two parameters, and the arguments that
the distiller is started with, for example

    bin/gif2jpg 20 - -n 500 -- -quality 75

The scan for `-n` never sees one: its flag `beforeExtraArgs` is never raised.
-/

namespace Glomop.Ptm

open Lib List

abbrev MAXPATH : ℕ := 1024

/-- What separates the words of a line: a space and a tab. -/
abbrev blanks : Bytes := [32, 9]

/-- `-n`. -/
abbrev dashN : Bytes := [45, 110]

/-- `--`. -/
abbrev dashDash : Bytes := [45, 45]

/-- `strtoul(token, NULL, 10)`, with a default for zero. -/
def numberOr (defaultValue : UInt32) (token : Bytes) : UInt32 :=
  let value := (scanUInt32 token).getD 0
  if value = 0 then defaultValue else value

/-- The variables of the loop over the arguments.
`distlaunch.cc` `LaunchRecord::Parse`. -/
structure Arguments where
  size : ℕ
  argc : ℕ
  /-- `NULL`, or an array; an element that has not been assigned is `none`. -/
  argv : Option (List (Option Bytes))
  beforeExtraArgs : Bool
  expectingDashNArg : Bool
  notificationTimeout_ms : UInt32

open Arguments

namespace Arguments

def start : Arguments := ⟨2, 0, none, false, false, DefaultNotificationTimeout_ms⟩

def grow (a : Arguments) : Option Arguments :=
  if a.argc > a.size ∨ a.argv = none then
    let size := a.size * 2
    match a.argv with
    | none => some { a with size := size, argv := some (List.replicate size none) }
    | some argv =>
      if argv.length < size / 2 then none
      else some { a with
        size := size
        argv := some (argv.take (size / 2) ++ List.replicate (size - size / 2) none) }
  else some a

/-- `argv[argc-1] = token`, which must be inside the array. -/
def store (token : Bytes) (a : Arguments) : Option Arguments :=
  match a.argv with
  | none => none
  | some argv =>
    if a.argc - 1 < argv.length then
      some { a with argv := some (argv.set (a.argc - 1) (some token)) }
    else none

/-- Look for `-n` and `--`. -/
def scan (token : Bytes) (a : Arguments) : Arguments :=
  if a.beforeExtraArgs = false then a
  else
    let a :=
      if a.expectingDashNArg then
        { a with
          expectingDashNArg := false
          notificationTimeout_ms := numberOr DefaultNotificationTimeout_ms token }
      else a
    if token = dashDash then { a with beforeExtraArgs := false }
    else if token = dashN then { a with expectingDashNArg := true }
    else a

def next (a : Arguments) (token : Bytes) : Option Arguments := do
  let a ← grow { a with argc := a.argc + 1 }
  let a ← a.store token
  return a.scan token

def loop (a : Arguments) (tokens : List Bytes) : Option Arguments := tokens.foldlM next a

end Arguments

/-- The fields of a launch record that are read from its line.
`distlaunch.h` `struct LaunchRecord`. -/
structure LaunchLine where
  executable : Bytes
  autoLaunchLimit : UInt32
  notificationTimeout_ms : UInt32
  loadHistorySize : Int32
  argc : ℕ
  argv : Option (List (Option Bytes))

/-- `some none` where there is not even an executable; a fault if an array is overrun.
`distlaunch.cc` `LaunchRecord::Parse`. -/
def parseLine (optionsLine : Bytes) : Option (Option LaunchLine) :=
  match tokens blanks optionsLine with
  | [] => some none
  | executable :: rest =>
    let (autoLaunchLimit, token, rest) := parseParam DefaultAutoLaunchLimit none rest
    let (history_ms, token, rest) := parseParam DefaultLoadHistoryPeriod_ms token rest
    (Arguments.start.loop (token.toList ++ rest)).map fun a =>
      let loadHistorySize := (history_ms / a.notificationTimeout_ms).toInt32
      some {
        executable := executable.take (MAXPATH - 1)
        autoLaunchLimit := autoLaunchLimit
        notificationTimeout_ms := a.notificationTimeout_ms
        loadHistorySize := if loadHistorySize ≤ 0 then 1 else loadHistorySize
        argc := a.argc
        argv := a.argv }

/-! ## What a line says -/

def isArgument (token : Bytes) : Bool := token.head? = some 45 && token ≠ [45]

def parameters (words : List Bytes) : List Bytes := (words.take 2).takeWhile (!isArgument ·)

def arguments (words : List Bytes) : List Bytes := words.drop (parameters words).length

/-- The argument behind the last `-n` before a `--`. -/
def dashNArgument (args : List Bytes) : Option Bytes :=
  (((args.takeWhile (· ≠ dashDash)).zip args.tail).filter (·.1 = dashN)).getLast?.map Prod.snd

/-- The notification timeout that the arguments ask for. -/
def requestedTimeout (args : List Bytes) : UInt32 :=
  ((dashNArgument args).map (numberOr DefaultNotificationTimeout_ms)).getD
    DefaultNotificationTimeout_ms

def parameter (defaultValue : UInt32) (words : List Bytes) (i : ℕ) : UInt32 :=
  ((parameters words)[i]?.map (numberOr defaultValue)).getD defaultValue

/-- **The line is parsed as it should be**: `executable` is its first word, `words` are the
others. -/
structure LineRight (executable : Bytes) (words : List Bytes) (line : LaunchLine) : Prop where
  executable_eq : line.executable = executable
  limit : line.autoLaunchLimit = parameter DefaultAutoLaunchLimit words 0
  argc_eq : line.argc = (arguments words).length
  argv_eq : (line.argv.getD []).take line.argc = (arguments words).map some
  timeout : line.notificationTimeout_ms = requestedTimeout (arguments words)
  history : line.loadHistorySize.toInt =
    max 1 ((parameter DefaultLoadHistoryPeriod_ms words 1).toNat /
      (requestedTimeout (arguments words)).toNat : ℕ)

/-! ## The arguments -/

namespace Arguments

variable {a : Arguments} {tokens : List Bytes}

/-- What the loop has done after some tokens: they are in the array, which has room for `size`
elements, and no `-n` was seen. -/
structure Holds (tokens : List Bytes) (a : Arguments) : Prop where
  argc_eq : a.argc = tokens.length
  size_pos : 0 < a.size
  array : (a.argv = none ∧ tokens = []) ∨
    ∃ argv, a.argv = some argv ∧ argv.length = a.size ∧ a.argc ≤ a.size ∧
      argv.take a.argc = tokens.map some
  unseen : a.beforeExtraArgs = false
  timeout : a.notificationTimeout_ms = DefaultNotificationTimeout_ms

lemma holds_start : start.Holds [] := ⟨rfl, Nat.two_pos, .inl ⟨rfl, rfl⟩, rfl, rfl⟩

structure HasRoom (tokens : List Bytes) (a : Arguments) : Prop where
  argc_eq : a.argc = tokens.length + 1
  array : ∃ argv, a.argv = some argv ∧ argv.length = a.size ∧ a.argc ≤ a.size ∧
    argv.take tokens.length = tokens.map some
  unseen : a.beforeExtraArgs = false
  timeout : a.notificationTimeout_ms = DefaultNotificationTimeout_ms

lemma Holds.grow (h : a.Holds tokens) :
    ∃ a', grow { a with argc := a.argc + 1 } = some a' ∧ a'.HasRoom tokens := by
  obtain ⟨ha, hpos, harr, hu, ht⟩ := h
  unfold Arguments.grow
  rcases harr with ⟨hn, rfl⟩ | ⟨argv, har, hl, hle, hta⟩
  · -- the first argument
    rw [length_nil] at ha
    refine ⟨{ a with
      argc := a.argc + 1
      size := a.size * 2
      argv := some (replicate (a.size * 2) none) }, by simp [hn], by simp [ha],
      ⟨_, rfl, by simp, ?_, rfl⟩, hu, ht⟩
    simp only [ha]
    omega
  · by_cases hf : a.argc + 1 > a.size
    · -- the array is full: the new one is twice as long, and all of the old one is copied
      have hh : a.size * 2 / 2 = a.size := by omega
      have hal : argv.take a.size = tokens.map some := by
        rw [← hta]
        congr 1
        omega
      refine ⟨{ a with
        argc := a.argc + 1
        size := a.size * 2
        argv := some (argv.take a.size ++ replicate a.size none) }, ?_, by simp [ha],
        ⟨_, rfl, ?_, ?_, ?_⟩, hu, ht⟩
      · have hc : ¬ argv.length < a.size := by omega
        have hr : a.size * 2 - a.size = a.size := by omega
        simp [har, hf, hh, hr, if_neg hc]
      · simp [hl]
        omega
      · simp only
        omega
      · rw [hal, take_append_of_le_length (by simp)]
        simp
    · refine ⟨{ a with argc := a.argc + 1 }, ?_, by simp [ha],
        ⟨argv, har, hl, Nat.le_of_not_lt hf, by rw [← ha]; exact hta⟩,
        hu, ht⟩
      simp [har, hf]

lemma HasRoom.store (h : a.HasRoom tokens) (token : Bytes) :
    ∃ a', a.store token = some a' ∧ a'.Holds (tokens ++ [token]) := by
  obtain ⟨ha, ⟨argv, har, hl, hle, hta⟩, hu, ht⟩ := h
  have hlt : tokens.length < argv.length := by omega
  refine ⟨{ a with argv := some (argv.set tokens.length (some token)) }, ?_, by simp [ha],
    by simp only; omega, .inr ⟨_, rfl, by simp [hl], hle, ?_⟩, hu, ht⟩
  · simp [Arguments.store, har, ha, if_pos hlt]
  · rw [ha, take_set, take_succ_eq_append_getElem hlt, hta, set_append_right _ _ (by simp)]
    simp

/-- **One round**: the token is stored, and not looked at. -/
theorem Holds.next (h : a.Holds tokens) (token : Bytes) :
    ∃ a', a.next token = some a' ∧ a'.Holds (tokens ++ [token]) := by
  obtain ⟨a1, hg, hr⟩ := h.grow
  obtain ⟨a2, hs, hh⟩ := hr.store token
  refine ⟨a2, ?_, hh⟩
  have hsc : a2.scan token = a2 := if_pos hh.unseen
  simp only [Arguments.next, hg, hs, Option.bind_eq_bind, Option.bind_some, hsc]
  rfl

/-- **The loop** stores every token, and returns. -/
theorem Holds.loop (h : a.Holds tokens) (more : List Bytes) :
    ∃ a', a.loop more = some a' ∧ a'.Holds (tokens ++ more) := by
  induction more generalizing a tokens with
  | nil => exact ⟨a, rfl, by rwa [append_nil]⟩
  | cons token more ih =>
    obtain ⟨a1, hn, h1⟩ := h.next token
    obtain ⟨a', hl, h'⟩ := ih h1
    refine ⟨a', ?_, by rwa [append_assoc] at h'⟩
    simpa [loop, hn] using hl

end Arguments

/-! ## The parameters -/

lemma numberOr_of_eq_zero {token : Bytes} (h : (scanUInt32 token).getD 0 = 0)
    (defaultValue : UInt32) : numberOr defaultValue token = defaultValue := by
  unfold numberOr
  exact if_pos h

lemma parseParam_some (defaultValue : UInt32) (token : Bytes) (rest : List Bytes) :
    parseParam defaultValue (some token) rest = (defaultValue, some token, rest) := rfl

lemma parseParam_nil (defaultValue : UInt32) :
    parseParam defaultValue none [] = (defaultValue, none, []) := rfl

lemma parseParam_cons (defaultValue : UInt32) (token : Bytes) (rest : List Bytes) :
    parseParam defaultValue none (token :: rest) =
      if isArgument token then (defaultValue, some token, rest)
      else (numberOr defaultValue token, none, rest) := by
  unfold parseParam
  by_cases hh : token.head? = some 45
  · by_cases hl : token = [45]
    · subst hl
      simp [isArgument, @numberOr_of_eq_zero [45] (by decide)]
    · simp [isArgument, hh, hl]
  · simp [isArgument, hh, numberOr]

/-- **The two parameters**, where the tokens are some words and possibly an empty one: it is taken
for a parameter where there is room for one, which changes nothing, and else for an argument. -/
theorem parseParam_parseParam (words : List Bytes) {empty : List Bytes}
    (he : empty = [] ∨ empty = [[]]) :
    let first := parseParam DefaultAutoLaunchLimit none (words ++ empty)
    let second := parseParam DefaultLoadHistoryPeriod_ms first.2.1 first.2.2
    first.1 = parameter DefaultAutoLaunchLimit words 0 ∧
      second.1 = parameter DefaultLoadHistoryPeriod_ms words 1 ∧
      second.2.1.toList ++ second.2.2 =
        arguments words ++ if 2 ≤ words.length ∨ arguments words ≠ [] then empty else [] := by
  have hn := @numberOr_of_eq_zero [] (by decide)
  have hp : isArgument [] = false := by decide
  rcases words with _ | ⟨w, _ | ⟨w', words⟩⟩
  · rcases he with rfl | rfl
    · simp [parseParam_nil, parameter, parameters, arguments]
    · simp [parseParam_cons, hp, hn, parseParam_nil, parameter, parameters, arguments]
  · by_cases hw : isArgument w = true
    · simp [parseParam_cons, hw, parseParam_some, parameter, parameters, arguments]
    · rcases he with rfl | rfl
      · simp [parseParam_cons, hw, parseParam_nil, parameter, parameters, arguments]
      · simp [parseParam_cons, hw, hp, hn, parameter, parameters, arguments]
  · by_cases hw : isArgument w = true
    · simp [parseParam_cons, hw, parseParam_some, parameter, parameters, arguments]
    · by_cases hw' : isArgument w' = true
      all_goals simp [parseParam_cons, hw, hw', parameter, parameters, arguments]

/-! ## The line -/

lemma historySize_toInt (history_ms : UInt32) :
    let size := (history_ms / DefaultNotificationTimeout_ms).toInt32
    (if size ≤ 0 then 1 else size).toInt =
      max 1 (history_ms.toNat / DefaultNotificationTimeout_ms.toNat : ℕ) := by
  intro size
  have hlt := history_ms.toNat_lt
  have ht : DefaultNotificationTimeout_ms.toNat = 1000 := rfl
  have hs : size.toInt = (history_ms.toNat / DefaultNotificationTimeout_ms.toNat : ℕ) := by
    have hb : size.toInt = (history_ms / DefaultNotificationTimeout_ms).toBitVec.toInt := rfl
    rw [hb, BitVec.toInt_eq_toNat_bmod, UInt32.toNat_toBitVec, UInt32.toNat_div, ht]
    exact Int.bmod_eq_of_le (by omega) (by omega)
  split_ifs with hle
  · rw [Int32.le_iff_toInt_le, hs, Int32.toInt_zero] at hle
    rw [max_eq_left (by omega)]
    rfl
  · rw [Int32.le_iff_toInt_le, hs, Int32.toInt_zero] at hle
    rw [hs, max_eq_right (by omega)]

/-- The empty token at the end of a line is taken for an argument. -/
def EmptyArgument (optionsLine : Bytes) (words : List Bytes) : Prop :=
  EndsEmpty blanks optionsLine ∧ (2 ≤ words.length ∨ arguments words ≠ [])

instance (optionsLine : Bytes) (words : List Bytes) : Decidable (EmptyArgument optionsLine words) :=
  inferInstanceAs (Decidable (_ ∧ _))

structure LineParsed (executable : Bytes) (words args : List Bytes) (line : LaunchLine) : Prop where
  executable_eq : line.executable = executable.take (MAXPATH - 1)
  limit : line.autoLaunchLimit = parameter DefaultAutoLaunchLimit words 0
  argc_eq : line.argc = args.length
  argv_eq : (line.argv.getD []).take line.argc = args.map some
  timeout : line.notificationTimeout_ms = DefaultNotificationTimeout_ms
  history : line.loadHistorySize.toInt =
    max 1 ((parameter DefaultLoadHistoryPeriod_ms words 1).toNat /
      DefaultNotificationTimeout_ms.toNat : ℕ)

lemma Arguments.Holds.take_argv {a : Arguments} {tokens : List Bytes} (h : a.Holds tokens) :
    (a.argv.getD []).take a.argc = tokens.map some := by
  rcases h.array with ⟨hn, rfl⟩ | ⟨argv, ha, -, -, ht⟩
  · rw [hn]
    simp
  · rwa [ha]

/-- **What `LaunchRecord::Parse` makes of a line.** -/
theorem exists_lineParsed {optionsLine executable : Bytes} {words : List Bytes}
    (hw : components blanks optionsLine = executable :: words) :
    ∃ line, parseLine optionsLine = some (some line) ∧
      LineParsed executable words
        (arguments words ++ if EmptyArgument optionsLine words then [[]] else []) line := by
  have ht := tokens_eq_components blanks optionsLine
  rw [hw, cons_append] at ht
  have hp := parseParam_parseParam words
    (show (if EndsEmpty blanks optionsLine then [[]] else []) = [] ∨
        (if EndsEmpty blanks optionsLine then [[]] else []) = [[]] by split_ifs <;> simp)
  have he : (if 2 ≤ words.length ∨ arguments words ≠ [] then
      if EndsEmpty blanks optionsLine then [([] : Bytes)] else [] else []) =
      if EmptyArgument optionsLine words then [[]] else [] := by
    rw [← ite_and]
    exact if_congr and_comm rfl rfl
  rw [he] at hp
  rcases hf : parseParam DefaultAutoLaunchLimit none
    (words ++ if EndsEmpty blanks optionsLine then [[]] else []) with ⟨limit, token, rest⟩
  rw [hf] at hp
  dsimp only at hp
  rcases hs : parseParam DefaultLoadHistoryPeriod_ms token rest with ⟨history, token', rest'⟩
  rw [hs] at hp
  obtain ⟨hl, hh, har⟩ := hp
  dsimp only at hl hh har
  obtain ⟨a, hlo, ha⟩ := holds_start.loop (token'.toList ++ rest')
  rw [nil_append, har] at ha
  refine ⟨_, by simp only [parseLine, ht, hf, hs, hlo, Option.map_some]; rfl,
    rfl, hl, ha.argc_eq, ha.take_argv, ha.timeout, ?_⟩
  dsimp only
  rw [ha.timeout, ← hh]
  exact historySize_toInt history

/-- **Parsing a line.**  `executable` is the first word of the line and `words` are the others.
`LaunchRecord::Parse` returns; and the fields it sets are the right ones exactly if the name of the
executable is shorter than its array, the timeout that is asked for with `-n` is the default, and
the line does not end in an empty token that is taken for an argument. -/
theorem parseLine_right_iff {optionsLine executable : Bytes} {words : List Bytes}
    (hwords : components blanks optionsLine = executable :: words) :
    ∃ line, parseLine optionsLine = some (some line) ∧
      (LineRight executable words line ↔ executable.length < MAXPATH ∧
        requestedTimeout (arguments words) = DefaultNotificationTimeout_ms ∧
        ¬ EmptyArgument optionsLine words) := by
  obtain ⟨line, hli, h⟩ := exists_lineParsed hwords
  refine ⟨line, hli, ?_, ?_⟩
  · intro hr
    refine ⟨?_, hr.timeout.symm.trans h.timeout, fun he => ?_⟩
    · have hta := h.executable_eq.symm.trans hr.executable_eq
      have hl : executable.length ≤ MAXPATH - 1 := (take_eq_self_iff _).mp hta
      exact Nat.lt_of_le_pred (by decide) hl
    · have ha := h.argc_eq.symm.trans hr.argc_eq
      rw [if_pos he] at ha
      simp at ha
  · rintro ⟨hl, ht, he⟩
    have har : (arguments words ++ if EmptyArgument optionsLine words then [[]] else []) =
        arguments words := by
      rw [if_neg he, append_nil]
    rw [har] at h
    refine ⟨?_, h.limit, h.argc_eq, h.argv_eq, h.timeout.trans ht.symm, ?_⟩
    · rw [h.executable_eq, take_of_length_le (by omega)]
    · rw [h.history, ht]

/-- The line `a 7 - -x`. -/
theorem parseLine_right_sample :
    components blanks [97, 32, 55, 32, 45, 32, 45, 120] = [97] :: [[55], [45], [45, 120]] ∧
      ∃ line, parseLine [97, 32, 55, 32, 45, 32, 45, 120] = some (some line) ∧
        LineRight [97] [[55], [45], [45, 120]] line := by
  have hw : components blanks [97, 32, 55, 32, 45, 32, 45, 120] =
      [97] :: [[55], [45], [45, 120]] := by decide +kernel
  obtain ⟨line, hl, hi⟩ := parseLine_right_iff hw
  exact ⟨hw, line, hl, hi.mpr (by decide +kernel)⟩

/-- In `a 7 - -n 5` the timeout stays 1000, where 5 was asked for, and the history has the size 10
instead of 2000; and `a 7 - -x` with two blanks at the end has an empty second argument. -/
theorem parseLine_dashN :
    (∃ line, parseLine [97, 32, 55, 32, 45, 32, 45, 110, 32, 53] = some (some line) ∧
      line.notificationTimeout_ms = 1000 ∧ line.loadHistorySize = 10 ∧
      requestedTimeout (arguments [[55], [45], [45, 110], [53]]) = 5 ∧
      ¬ LineRight [97] [[55], [45], [45, 110], [53]] line) ∧
    ∃ line, parseLine [97, 32, 55, 32, 45, 32, 45, 120, 32, 32] = some (some line) ∧
      line.argc = 2 ∧ line.argv = some [some [45, 120], some [], none, none] ∧
      ¬ LineRight [97] [[55], [45], [45, 120]] line := by
  refine ⟨⟨_, rfl, ?_, ?_, ?_, fun h => absurd h.timeout ?_⟩,
    ⟨_, rfl, ?_, ?_, fun h => absurd h.argc_eq ?_⟩⟩
  all_goals decide +kernel

/-! ## The fields that the rest of a PTM reads -/

lemma parse_eq_parseLine (optionsLine : Bytes) :
    parse optionsLine = (parseLine optionsLine).join.map fun line =>
      (line.autoLaunchLimit, line.loadHistorySize.toInt.toNat) := by
  unfold parse parseLine
  cases tokens blanks optionsLine with
  | nil => rfl
  | cons executable rest =>
    rcases hf : parseParam DefaultAutoLaunchLimit none rest with ⟨limit, token, rest⟩
    rcases hs : parseParam DefaultLoadHistoryPeriod_ms token rest with
      ⟨history, token', rest'⟩
    obtain ⟨a, hl, ha⟩ := holds_start.loop (token'.toList ++ rest')
    have hsi := historySize_toInt history
    simp only [hf, hs, hl, Option.map_some, Option.join_some, ha.timeout, hsi]
    rw [UInt32.toNat_div, show DefaultNotificationTimeout_ms.toNat = 1000 from rfl]
    congr 2
    split_ifs <;> omega

end Glomop.Ptm
