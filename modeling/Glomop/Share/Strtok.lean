import Glomop.Lib.CText
import Glomop.Lib.Spans

/-!
# `ts_strtok`

The tokenizer of the client library.  Its state is the part of the string that has not been looked
at.  Leading separators are skipped *before* the test for a token, so `a/` has the single token `a`,
but `a//` has the tokens `a` and the empty string.  That is the only difference between the tokens
of a string and its components (`tokens_eq_components`).
-/

namespace Glomop

open Lib List

/-- The next token and the rest of the string.
`client_lib/src/utils.c`. -/
def tsStrtok (matching : Bytes) (string : Bytes) : Option (Bytes × Bytes) :=
  if string = [] then none
  else
    let tail := string.dropWhile (· ∈ matching)
    let token := tail.takeWhile (· ∉ matching)
    -- one more byte is used up than the token has: the separator behind it
    some (token, tail.drop (token.length + 1))

lemma tsStrtok_append {matching seps token tail : Bytes} (hse : ∀ c ∈ seps, c ∈ matching)
    (ht : ∀ c ∈ token, c ∉ matching) (hs : Stops (· ∈ matching) (token ++ tail))
    (hta : Stops (· ∉ matching) tail) (hne : seps ++ (token ++ tail) ≠ []) :
    tsStrtok matching (seps ++ (token ++ tail)) = some (token, tail.drop 1) := by
  unfold tsStrtok
  dsimp only
  rw [if_neg hne, dropWhile_append_stop (by simpa using hse) hs,
    takeWhile_append_stop (by simpa using ht) hta, drop_append]
  simp

lemma tsStrtok_length_lt {matching string token rest : Bytes}
    (h : tsStrtok matching string = some (token, rest)) : rest.length < string.length := by
  unfold tsStrtok at h
  split_ifs at h with hn
  cases h
  have hd : (string.dropWhile (· ∈ matching)).length ≤ string.length :=
    (dropWhile_sublist _).length_le
  have hpos := length_pos_iff.mpr hn
  rw [length_drop]
  omega

/-- The tokens of a string, at most `n` of them. -/
def tokensUpTo (matching : Bytes) : ℕ → Bytes → List Bytes
  | 0, _ => []
  | n + 1, string =>
    match tsStrtok matching string with
    | none => []
    | some (token, rest) => token :: tokensUpTo matching n rest

/-- All tokens of a string, as successive calls of `ts_strtok` return them. -/
def tokens (matching string : Bytes) : List Bytes :=
  tokensUpTo matching string.length string

lemma tokensUpTo_eq (matching : Bytes) {n k : ℕ} {string : Bytes} (hn : string.length ≤ n)
    (hk : string.length ≤ k) : tokensUpTo matching n string = tokensUpTo matching k string := by
  induction n generalizing k string with
  | zero =>
    obtain rfl := length_eq_zero_iff.mp (Nat.le_zero.mp hn)
    cases k <;> simp [tokensUpTo, tsStrtok]
  | succ n ih =>
    cases k with
    | zero =>
      obtain rfl := length_eq_zero_iff.mp (Nat.le_zero.mp hk)
      simp [tokensUpTo, tsStrtok]
    | succ k =>
      unfold tokensUpTo
      cases hc : tsStrtok matching string with
      | none => rfl
      | some p =>
        have hlt := tsStrtok_length_lt hc
        exact congrArg (p.1 :: ·) (ih (by omega) (by omega))

lemma tokens_eq (matching string : Bytes) :
    tokens matching string =
      match tsStrtok matching string with
      | none => []
      | some (token, rest) => token :: tokens matching rest := by
  unfold tokens
  rw [tokensUpTo_eq matching (le_refl _) (Nat.le_succ _), tokensUpTo]
  cases hc : tsStrtok matching string with
  | none => rfl
  | some p =>
    have hlt := tsStrtok_length_lt hc
    exact congrArg (p.1 :: ·) (tokensUpTo_eq matching (by omega) (le_refl _))

-- the last call on a string that ends in two separators finds an empty token
example : tokens [47] [97, 47, 47] = [[97], []] := by decide

/-! ## Tokens and components -/

/-- The components of a string: what stands between runs of separators, and is not empty. -/
def components (matching string : Bytes) : List Bytes :=
  (string.splitOnP (· ∈ matching)).filter (· ≠ [])

/-- The string has nothing but separators, or it ends in two of them. -/
def EndsEmpty (matching string : Bytes) : Prop :=
  (string ≠ [] ∧ ∀ c ∈ string, c ∈ matching) ∨ ∃ a ∈ matching, ∃ b ∈ matching, [a, b] <:+ string

instance (matching string : Bytes) : Decidable (EndsEmpty matching string) :=
  inferInstanceAs (Decidable (_ ∨ _))

section Components

variable {matching seps string token rest : Bytes} {c : UInt8}

lemma components_append_left (hs : ∀ c ∈ seps, c ∈ matching) :
    components matching (seps ++ string) = components matching string := by
  induction seps with
  | nil => rfl
  | cons c seps ih =>
    obtain ⟨hc, hs⟩ := forall_mem_cons.mp hs
    rw [← ih hs]
    simp [components, splitOnP_cons_eq_if_modifyHead, hc]

lemma components_of_separators (hs : ∀ c ∈ seps, c ∈ matching) : components matching seps = [] := by
  rw [← append_nil seps, components_append_left hs]
  rfl

lemma components_token (ht : ∀ c ∈ token, c ∉ matching) (hne : token ≠ []) :
    components matching token = [token] := by
  rw [components, splitOnP_eq_singleton (by simpa using ht)]
  simp [hne]

lemma components_token_cons (ht : ∀ c ∈ token, c ∉ matching) (hne : token ≠ [])
    (hc : c ∈ matching) :
    components matching (token ++ c :: rest) = token :: components matching rest := by
  rw [components, splitOnP_append_cons_of_forall_mem (by simpa using ht) c (by simpa using hc)]
  simp [hne, components]

lemma ne_nil_of_mem_components (h : token ∈ components matching string) : token ≠ [] := by
  simpa using (mem_filter.mp h).2

/-- A string has separators only, or it is made of separators, a first component, and either
nothing or a separator and a rest. -/
lemma exists_first_component (matching string : Bytes) :
    (∀ c ∈ string, c ∈ matching) ∨
      ∃ seps token, (∀ c ∈ seps, c ∈ matching) ∧ token ≠ [] ∧ (∀ c ∈ token, c ∉ matching) ∧
        (string = seps ++ token ∨
          ∃ c ∈ matching, ∃ rest, string = seps ++ (token ++ c :: rest)) := by
  obtain ⟨seps, tail, rfl, hs, hta⟩ := exists_span (· ∈ matching) string
  obtain ⟨token, rest, rfl, ht, hr⟩ := exists_span (· ∉ matching) tail
  simp only [decide_eq_true_eq] at hs ht
  by_cases hni : token = []
  · -- where neither a separator nor anything else comes next, the string ends
    subst hni
    cases rest with
    | nil => exact .inl (by simpa using hs)
    | cons c rest =>
      have hse : c ∈ matching := by simpa using stops_cons.mp hr
      have hn : c ∉ matching := by simpa using stops_cons.mp hta
      exact absurd hse hn
  · refine .inr ⟨seps, token, hs, hni, ht, ?_⟩
    cases rest with
    | nil => exact .inl (by simp)
    | cons c rest => exact .inr ⟨c, by simpa using stops_cons.mp hr, rest, rfl⟩

/-! One call, for each of the three kinds of strings. -/

lemma tsStrtok_separators (hs : ∀ c ∈ seps, c ∈ matching) (hne : seps ≠ []) :
    tsStrtok matching seps = some ([], []) := by
  have hd : seps.dropWhile (· ∈ matching) = [] := by simpa using hs
  simp [tsStrtok, hne, hd]

lemma stops_token (ht : ∀ c ∈ token, c ∉ matching) (hne : token ≠ []) (rest : Bytes) :
    Stops (· ∈ matching) (token ++ rest) := by
  obtain ⟨c, cs, rfl⟩ := exists_cons_of_ne_nil hne
  exact stops_cons.mpr (by simpa using ht c (.head _))

lemma tsStrtok_token (hse : ∀ c ∈ seps, c ∈ matching) (ht : ∀ c ∈ token, c ∉ matching)
    (hne : token ≠ []) : tsStrtok matching (seps ++ token) = some (token, []) := by
  have h := tsStrtok_append hse ht (stops_token ht hne []) stops_nil (by simp [hne])
  rwa [append_nil] at h

lemma tsStrtok_token_cons (hse : ∀ c ∈ seps, c ∈ matching)
    (ht : ∀ c ∈ token, c ∉ matching) (hne : token ≠ []) (hc : c ∈ matching) :
    tsStrtok matching (seps ++ (token ++ c :: rest)) = some (token, rest) :=
  tsStrtok_append hse ht (stops_token ht hne _) (stops_cons.mpr (by simpa using hc)) (by simp)

/-! What ends in an empty token. -/

lemma not_endsEmpty_nil : ¬ EndsEmpty matching [] := by
  simp [EndsEmpty]

lemma endsWith_iff {a b d e : UInt8} : [a, b] <:+ string ++ [d, e] ↔ a = d ∧ b = e := by
  constructor
  · rintro ⟨front, hf⟩
    simpa using (append_inj' hf rfl).2
  · rintro ⟨rfl, rfl⟩
    exact suffix_append _ _

lemma not_endsEmpty_token (ht : ∀ c ∈ token, c ∉ matching) (hne : token ≠ []) :
    ¬ EndsEmpty matching (string ++ token) := by
  obtain ⟨init, d, rfl⟩ := (eq_nil_or_concat' token).resolve_left hne
  have hd : d ∉ matching := ht d (by simp)
  rintro (⟨-, hs⟩ | ⟨a, -, b, hb, front, hf⟩)
  · exact hd (hs d (by simp))
  · have hl := congrArg getLast? hf
    have hbd : b = d := by simpa using hl
    exact hd (hbd ▸ hb)

lemma endsEmpty_token_cons (ht : ∀ c ∈ token, c ∉ matching) (hne : token ≠ []) (hc : c ∈ matching) :
    EndsEmpty matching (string ++ (token ++ c :: rest)) ↔ EndsEmpty matching rest := by
  obtain ⟨init, d, rfl⟩ := (eq_nil_or_concat' token).resolve_left hne
  have hd : d ∉ matching := ht d (by simp)
  -- not all of it is separators, so only the two characters at the end count
  have hen : EndsEmpty matching (string ++ (init ++ [d] ++ c :: rest)) ↔
      ∃ a ∈ matching, ∃ b ∈ matching, [a, b] <:+ string ++ init ++ d :: c :: rest := by
    constructor
    · rintro (⟨-, hs⟩ | hen)
      · exact absurd (hs d (by simp)) hd
      · simpa using hen
    · intro hen
      exact .inr (by simpa using hen)
  rw [hen]
  rcases eq_nil_or_concat' rest with rfl | ⟨front, e, rfl⟩
  · simp only [endsWith_iff]
    refine iff_of_false ?_ not_endsEmpty_nil
    rintro ⟨a, ha, b, -, rfl, -⟩
    exact hd ha
  · rcases eq_nil_or_concat' front with rfl | ⟨front, e', rfl⟩
    · have hsh : string ++ init ++ d :: c :: ([] ++ [e]) = string ++ init ++ [d] ++ [c, e] := by
        simp
      have hr : EndsEmpty matching ([] ++ [e]) ↔ e ∈ matching := by
        simp [EndsEmpty, suffix_cons_iff]
      rw [hsh, hr]
      simp only [endsWith_iff]
      constructor
      · rintro ⟨a, -, b, hb, -, rfl⟩
        exact hb
      · exact fun he => ⟨c, hc, e, he, rfl, rfl⟩
    · have hsh : string ++ init ++ d :: c :: (front ++ [e'] ++ [e]) =
          string ++ init ++ d :: c :: front ++ [e', e] := by
        simp
      have hr : front ++ [e'] ++ [e] = front ++ [e', e] := by simp
      rw [hsh, hr]
      unfold EndsEmpty
      simp only [endsWith_iff]
      constructor
      · exact .inr
      · rintro (⟨-, hs⟩ | hen)
        · exact ⟨e', hs e' (by simp), e, hs e (by simp), rfl, rfl⟩
        · exact hen

end Components

/-- **The tokens of a string** are its components, and one empty token more if it ends empty. -/
theorem tokens_eq_components (matching string : Bytes) :
    tokens matching string =
      components matching string ++ if EndsEmpty matching string then [[]] else [] := by
  induction hn : string.length using Nat.strong_induction_on generalizing string with
  | _ n ih =>
    rw [tokens_eq]
    rcases exists_first_component matching string with
      hs | ⟨seps, token, hs, hne, ht, rfl | ⟨c, hc, rest, rfl⟩⟩
    · rw [components_of_separators hs]
      by_cases hni : string = []
      · subst hni
        simp [tsStrtok, not_endsEmpty_nil]
      · rw [tsStrtok_separators hs hni, if_pos (.inl ⟨hni, hs⟩)]
        rfl
    · rw [tsStrtok_token hs ht hne, components_append_left hs,
        components_token ht hne, if_neg (not_endsEmpty_token ht hne)]
      rfl
    · rw [tsStrtok_token_cons hs ht hne hc, components_append_left hs,
        components_token_cons ht hne hc, if_congr (endsEmpty_token_cons ht hne hc) rfl rfl]
      have hlt : rest.length < n := by
        rw [← hn]
        simp
        omega
      exact congrArg (token :: ·) (ih _ hlt rest rfl)

end Glomop
