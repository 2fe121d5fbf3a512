import Glomop.Frontend.Headers

/-!
# Following redirects

`Clib_Redir_Fetch` fetches a URL, and then the URL in the `Location` header of the answer, and so
on.  It finds the header by a line end and the ten characters of `location: ` behind it, and steps
over ten characters only: the URL that it fetches next begins with the blank.  So a redirect that is
followed is never followed to where it points (`redirects_right_iff`).
-/

namespace Glomop.ClientLib

open Lib Headers

/-- What `Clib_Fetch` returns. -/
inductive Fetched
  | ok (mimeHeaders data : Bytes)
  | failed (ret : ℤ)
deriving DecidableEq

namespace Redirect

def isRedirect (mimeHeaders : Bytes) : Bool :=
  match mimeHeaders.dropWhile fun c => c ≠ 32 ∧ c ≠ 10 with
  | c :: d :: _ => c == 32 && d == 51
  | _ => false

/-- `location: `. -/
def locationName : Bytes := [108, 111, 99, 97, 116, 105, 111, 110, 58, 32]

/-- The URL that is fetched next, in the text at `hp`. -/
def locate : Bytes → Option Bytes
  | [] => none
  | c :: rest =>
    if c = 10 ∧ rest.length + 1 ≥ 10 ∧ startsWith locationName rest then
      some (((c :: rest).drop 10).takeWhile (!isEndOfLine ·))
    else locate rest

/-- A loop that fetches `url` and then, `k` times at most, what `next` finds in the headers of a
redirect. -/
def fetches (next : Bytes → Option Bytes) (responses : ℕ → Fetched) :
    ℕ → ℕ → Bytes → List Bytes × Fetched
  | 0, i, url => ([url], responses i)
  | k + 1, i, url =>
    match responses i with
    | .failed ret => ([url], .failed ret)
    | .ok mimeHeaders data =>
      if isRedirect mimeHeaders then
        match next mimeHeaders with
        | none => ([url], .ok mimeHeaders data)
        | some theurl =>
          let r := fetches next responses k (i + 1) theurl
          (url :: r.1, r.2)
      else ([url], .ok mimeHeaders data)

/-- The URLs fetched, and the answer that is returned.
`clib.c`. -/
def clibRedirFetch (responses : ℕ → Fetched) (url : Bytes) (followRedirects : ℕ) :
    List Bytes × Fetched :=
  fetches locate responses (followRedirects - 1) 0 url

/-- **The value of the `Location` header**: of the first line with that name behind the status line,
without the blanks in front. -/
def locationOf : Bytes → Option Bytes
  | [] => none
  | c :: rest =>
    if isEndOfLine c ∧ startsWith (locationName.take 9) rest then
      some (((rest.drop 9).takeWhile (!isEndOfLine ·)).dropWhile isBlank)
    else locationOf rest

def location : Fetched → Option Bytes
  | .failed _ => none
  | .ok mimeHeaders _ => if isRedirect mimeHeaders then locationOf mimeHeaders else none

/-- **Redirects are followed as they should be**: at most `k` fetches, and after a redirect with a
location that location; any other answer is returned. -/
def Right (responses : ℕ → Fetched) (url : Bytes) (k : ℕ) : Prop :=
  (clibRedirFetch responses url k).1.length ≤ k ∧
    clibRedirFetch responses url k = fetches locationOf responses (k - 1) 0 url

variable {next : Bytes → Option Bytes} {responses : ℕ → Fetched} {url text value : Bytes} {k i : ℕ}

lemma length_fetches_le : (fetches next responses k i url).1.length ≤ k + 1 := by
  induction k generalizing i url with
  | zero => exact le_rfl
  | succ k ih =>
    unfold fetches
    split
    · simp
    · split_ifs
      · split
        · simp
        · exact Nat.succ_le_succ ih
      · simp

lemma head_fetches : (fetches next responses k i url).1.head? = some url := by
  cases k with
  | zero => rfl
  | succ k =>
    unfold fetches
    split
    · rfl
    · split_ifs
      · split <;> rfl
      · rfl

lemma fetches_of_none (h : ∀ mimeHeaders data, responses i = .ok mimeHeaders data →
    isRedirect mimeHeaders = true → next mimeHeaders = none) :
    fetches next responses k i url = ([url], responses i) := by
  cases k with
  | zero => rfl
  | succ k =>
    unfold fetches
    cases hre : responses i with
    | failed ret => rfl
    | ok mimeHeaders data =>
      dsimp only
      split_ifs with hr
      · rw [h mimeHeaders data hre hr]
      · rfl

/-! ## The two ways to find a location -/

lemma lower_eq_blank : ∀ {c : UInt8}, lower c = 32 → c = 32 := by
  decide +kernel

/-- **What is found** begins with a blank. -/
theorem head_locate (h : locate text = some value) : value.head? = some 32 := by
  induction text with
  | nil => cases h
  | cons c rest ih =>
    rw [locate] at h
    split_ifs at h with hf
    · obtain ⟨-, -, hs⟩ := hf
      cases h
      rw [startsWith, beq_iff_eq] at hs
      have hb : (rest.drop 9).head?.map lower = some 32 := by
        have hg := congrArg (·[9]?) hs
        simpa [locationName, lower] using hg
      rw [List.drop_succ_cons]
      cases hd : rest.drop 9 with
      | nil => simp [hd] at hb
      | cons d tail =>
        rw [hd, List.head?_cons, Option.map_some, Option.some.injEq] at hb
        rw [lower_eq_blank hb]
        rfl
    · exact ih h

lemma isSome_locationOf (h : locate text = some value) : (locationOf text).isSome := by
  induction text with
  | nil => cases h
  | cons c rest ih =>
    rw [locationOf]
    split_ifs with hl
    · rfl
    · refine ih ?_
      rwa [locate, if_neg] at h
      rintro ⟨rfl, -, hs⟩
      refine hl ⟨rfl, ?_⟩
      rw [startsWith, beq_iff_eq] at hs ⊢
      have ht := congrArg (List.take 9) hs
      rw [← List.map_take, ← List.map_take, List.take_take] at ht
      exact ht

lemma head_locationOf (h : locationOf text = some value) : value.head? ≠ some 32 := by
  induction text with
  | nil => cases h
  | cons c rest ih =>
    rw [locationOf] at h
    split_ifs at h
    · cases h
      intro hh
      have hn := List.head?_dropWhile_not isBlank ((rest.drop 9).takeWhile (!isEndOfLine ·))
      rw [hh] at hn
      exact absurd hn (by decide)
    · exact ih h

/-- **When redirects are followed right**: exactly if only one fetch is allowed, or the first answer
does not redirect. -/
theorem redirects_right_iff (responses : ℕ → Fetched) (url : Bytes) (k : ℕ) (hk : 1 ≤ k) :
    Right responses url k ↔ k = 1 ∨ location (responses 0) = none := by
  obtain ⟨k, rfl⟩ := Nat.exists_eq_add_of_le' hk
  unfold Right clibRedirFetch
  rw [Nat.add_sub_cancel, and_iff_right length_fetches_le]
  constructor
  · rintro heq
    by_contra! hno
    obtain ⟨hk1, hl⟩ := hno
    obtain ⟨k, rfl⟩ := Nat.exists_eq_succ_of_ne_zero fun h : k = 0 => hk1 (by rw [h])
    cases hr : responses 0 with
    | failed ret => exact hl (by rw [hr]; rfl)
    | ok mimeHeaders data =>
      rw [hr, location] at hl
      split_ifs at hl with hre
      · obtain ⟨value, hv⟩ := Option.ne_none_iff_exists'.mp hl
        have hu := congrArg (fun r => r.1.tail.head?) heq
        simp only [fetches, hr, hre, if_true, hv, List.tail_cons, head_fetches] at hu
        cases hlo : locate mimeHeaders with
        | none => simp [hlo] at hu
        | some theurl =>
          simp only [hlo, List.tail_cons, head_fetches, Option.some.injEq] at hu
          exact head_locationOf hv (hu ▸ head_locate hlo)
      · exact hl rfl
  · rintro (hk1 | hn)
    · obtain rfl : k = 0 := by omega
      rfl
    · have hs : ∀ mimeHeaders data, responses 0 = .ok mimeHeaders data →
          isRedirect mimeHeaders = true → locationOf mimeHeaders = none := by
        intro mimeHeaders data hr hre
        rwa [hr, location, if_pos hre] at hn
      rw [fetches_of_none hs, fetches_of_none]
      intro mimeHeaders data hr hre
      cases hlo : locate mimeHeaders with
      | none => rfl
      | some theurl =>
        have hso := isSome_locationOf hlo
        rw [hs mimeHeaders data hr hre] at hso
        cases hso

/-- `a 302`, a line end, `Location: /x` and another line end. -/
def redirectHeaders : Bytes :=
  [97, 32, 51, 48, 50, 13, 10, 76, 111, 99, 97, 116, 105, 111, 110, 58, 32, 47, 120, 13, 10]

theorem redirects_right_not_modified :
    1 ≤ 5 ∧ Right (fun _ => .ok [97, 32, 51, 48, 52, 13, 10] []) [117] 5 :=
  ⟨by decide, (redirects_right_iff _ [117] 5 (by decide)).mpr (.inr (by decide))⟩

/-- **A URL with a blank** is fetched after a redirect to `/x`. -/
theorem redirect_keeps_blank :
    location (.ok redirectHeaders []) = some [47, 120] ∧
      clibRedirFetch (fun _ => .ok redirectHeaders []) [117] 2 =
        ([[117], [32, 47, 120]], .ok redirectHeaders []) := by
  decide

end Redirect

end Glomop.ClientLib
