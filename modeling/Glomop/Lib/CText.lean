import Mathlib

/-!
# C strings and numbers as C text

`CString size` is what a `char[size]` array holds when it holds a C string; that it does is a field.
The rest is about C's decimal conversions on 32-bit words: what `sprintf` writes for `%d` and `%lu`,
and what `sscanf` reads back.  White space is skipped, one sign is accepted, and a value that does
not fit is clamped.
-/

namespace Glomop.Lib

open List

abbrev Bytes := List UInt8

/-! ## Strings in arrays -/

def cString (bs : Bytes) : Bytes := bs.takeWhile (· ≠ 0)

lemma cString_length_le (bs : Bytes) : (cString bs).length ≤ bs.length :=
  (takeWhile_sublist _).length_le

lemma cString_noNul (bs : Bytes) : (0 : UInt8) ∉ cString bs := by
  intro h
  simpa using mem_takeWhile_imp h

lemma cString_subset (bs : Bytes) : cString bs ⊆ bs := (takeWhile_sublist _).subset

lemma cString_eq_self {bs : Bytes} (h : (0 : UInt8) ∉ bs) : cString bs = bs := by
  refine takeWhile_eq_self_iff.mpr fun c hc => ?_
  have hne : c ≠ 0 := fun h0 => h (h0 ▸ hc)
  simpa using hne

lemma cString_length_lt {bs : Bytes} (h : (0 : UInt8) ∈ bs) : (cString bs).length < bs.length := by
  refine lt_of_le_of_ne (cString_length_le bs) fun heq => ?_
  have hs : cString bs = bs := (takeWhile_sublist _).eq_of_length heq
  exact cString_noNul bs (hs.symm ▸ h)

variable {α : Type} {c : UInt8} {rest : Bytes}

lemma takeWhile_ne_append {s : Bytes} (hs : c ∉ s) (rest : Bytes) :
    (s ++ c :: rest).takeWhile (· ≠ c) = s := by
  rw [takeWhile_append_of_pos]
  · simp
  · intro x hx
    have hne : x ≠ c := fun h => hs (h ▸ hx)
    simpa using hne

lemma cString_append_nul {s : Bytes} (hs : (0 : UInt8) ∉ s) (rest : Bytes) :
    cString (s ++ 0 :: rest) = s :=
  takeWhile_ne_append hs rest

/-- The contents of a `char[size]` array that holds a C string. -/
@[ext] structure CString (size : ℕ) where
  chars : Bytes
  noNul : (0 : UInt8) ∉ chars
  fits : chars.length < size
deriving DecidableEq

/-- What an array holds after `bs` and a terminating NUL were written to it. -/
def CString.ofBytes {size : ℕ} (bs : Bytes) (h : bs.length < size) : CString size :=
  ⟨cString bs, cString_noNul bs, (cString_length_le bs).trans_lt h⟩

def CString.empty (size : ℕ) [NeZero size] : CString size := ⟨[], by simp, NeZero.pos size⟩

instance neZero20 : NeZero 20 := ⟨by decide⟩

instance neZero50 : NeZero 50 := ⟨by decide⟩

instance neZero80 : NeZero 80 := ⟨by decide⟩

@[simp] lemma CString.ofBytes_chars {size : ℕ} (s : CString size) :
    CString.ofBytes s.chars s.fits = s :=
  CString.ext (cString_eq_self s.noNul)

/-! ## The last place of a character -/

/-- The loop that remembers the last place of `c`; `i` is the place of the first of `cs`. -/
def lastIndex {α : Type} [DecidableEq α] (c : α) : List α → ℕ → Option ℕ → Option ℕ
  | [], _, found => found
  | x :: cs, i, found => lastIndex c cs (i + 1) (if x = c then some i else found)

lemma lastIndex_append [DecidableEq α] (c : α) (a b : List α) (i : ℕ) (found : Option ℕ) :
    lastIndex c (a ++ b) i found = lastIndex c b (i + a.length) (lastIndex c a i found) := by
  induction a generalizing i found with
  | nil => rfl
  | cons x a ih =>
    rw [cons_append, lastIndex, ih, lastIndex, length_cons]
    congr 1
    omega

lemma lastIndex_of_not_mem [DecidableEq α] {c : α} {cs : List α} (h : c ∉ cs) (i : ℕ)
    (found : Option ℕ) : lastIndex c cs i found = found := by
  induction cs generalizing i found with
  | nil => rfl
  | cons x cs ih =>
    rw [mem_cons, not_or] at h
    rw [lastIndex, if_neg (Ne.symm h.1), ih h.2]

lemma lastIndex_eq [DecidableEq α] {c : α} (a : List α) {b : List α} (hb : c ∉ b) :
    lastIndex c (a ++ c :: b) 0 none = some a.length := by
  rw [lastIndex_append, lastIndex, if_pos rfl, lastIndex_of_not_mem hb, Nat.zero_add]

lemma exists_last [DecidableEq α] {c : α} {cs : List α} (h : c ∈ cs) :
    ∃ a b, cs = a ++ c :: b ∧ c ∉ b := by
  induction cs with
  | nil => cases h
  | cons x cs ih =>
    by_cases hcs : c ∈ cs
    · obtain ⟨a, b, rfl, hb⟩ := ih hcs
      exact ⟨x :: a, b, rfl, hb⟩
    · obtain rfl | hmem := mem_cons.mp h
      · exact ⟨[], cs, rfl, hcs⟩
      · exact absurd hmem hcs

/-! ## Digits -/

def digitChar (d : ℕ) : UInt8 := UInt8.ofNat (48 + d)

def isDigit (c : UInt8) : Bool := 48 ≤ c && c ≤ 57

/-- `isspace` in the C locale: blank, tab, line feed, vertical tab, form feed, carriage return. -/
def isSpace (c : UInt8) : Bool := c == 32 || (9 ≤ c && c ≤ 13)

def digitsValue (cs : Bytes) : ℕ := cs.foldl (fun acc c => acc * 10 + (c.toNat - 48)) 0

def decimal (n : ℕ) : Bytes :=
  if n = 0 then [48] else (Nat.digits 10 n).reverse.map digitChar

lemma digitChar_toNat {d : ℕ} (h : d < 10) : (digitChar d).toNat = 48 + d := by
  unfold digitChar
  rw [UInt8.toNat_ofNat', Nat.mod_eq_of_lt (by omega)]

lemma isDigit_digitChar {d : ℕ} (h : d < 10) : isDigit (digitChar d) = true := by
  have := digitChar_toNat h
  simp only [isDigit, Bool.and_eq_true, decide_eq_true_eq, UInt8.le_iff_toNat_le, this]
  simp
  omega

lemma isDigit_of_mem_decimal {n : ℕ} (h : c ∈ decimal n) : isDigit c = true := by
  unfold decimal at h
  split_ifs at h with hn
  · rw [mem_singleton.mp h]
    decide
  · simp only [mem_map, mem_reverse] at h
    obtain ⟨d, hd, rfl⟩ := h
    exact isDigit_digitChar (Nat.digits_lt_base (by norm_num) hd)

lemma decimal_ne_nil (n : ℕ) : decimal n ≠ [] := by
  unfold decimal
  split_ifs with hn
  · simp
  · simpa using Nat.digits_ne_nil_iff_ne_zero.mpr hn

lemma decimal_length_le {n k : ℕ} (hk : 0 < k) (h : n < 10 ^ k) : (decimal n).length ≤ k := by
  unfold decimal
  split_ifs with hn
  · exact hk
  · simpa using (Nat.digits_length_le_iff (by norm_num) n).mpr h

private lemma foldl_digitChar (ds : List ℕ) (h : ∀ d ∈ ds, d < 10) (acc : ℕ) :
    (ds.map digitChar).foldl (fun acc c => acc * 10 + (c.toNat - 48)) acc =
      acc * 10 ^ ds.length + Nat.ofDigits 10 ds.reverse := by
  induction ds generalizing acc with
  | nil => simp
  | cons d ds ih =>
    have hd := digitChar_toNat (h d (.head _))
    rw [map_cons, foldl_cons, ih (fun x hx => h x (mem_cons_of_mem _ hx)), hd,
      reverse_cons, Nat.ofDigits_append, Nat.ofDigits_singleton]
    simp only [Nat.add_sub_cancel_left, length_cons, length_reverse, pow_succ]
    ring

lemma digitsValue_decimal (n : ℕ) : digitsValue (decimal n) = n := by
  unfold digitsValue decimal
  split_ifs with hn
  · simp [hn]
  · rw [foldl_digitChar _ (fun d hd => Nat.digits_lt_base (by norm_num) (mem_reverse.mp hd))]
    simp [Nat.ofDigits_digits]

/-! ## `sscanf` -/

/-- What a numeric conversion of `sscanf` finds: white space skipped, an optional sign (`true` for
a minus), then the digits. -/
def scanNumber (cs : Bytes) : Bool × Bytes :=
  match cs.dropWhile isSpace with
  | [] => (false, [])
  | c :: rest =>
    if c = 45 then (true, rest.takeWhile isDigit)
    else if c = 43 then (false, rest.takeWhile isDigit)
    else (false, (c :: rest).takeWhile isDigit)

/-- `sscanf(text, "%d", &value)`; `none` when no number was converted. -/
def scanInt (cs : Bytes) : Option Int32 :=
  let (neg, ds) := scanNumber cs
  if ds = [] then none
  else
    let v : ℤ := if neg then -(digitsValue ds : ℤ) else digitsValue ds
    some (Int32.ofInt (max (-2 ^ 31) (min v (2 ^ 31 - 1))))

/-- `sscanf(text, "%lu", &value)` on a 32-bit `unsigned long`. -/
def scanUInt32 (cs : Bytes) : Option UInt32 :=
  let (neg, ds) := scanNumber cs
  if ds = [] then none
  else if 2 ^ 32 ≤ digitsValue ds then some (UInt32.ofNat (2 ^ 32 - 1))
  else some (if neg then -UInt32.ofNat (digitsValue ds) else UInt32.ofNat (digitsValue ds))

/-- What a numeric conversion of `sscanf` leaves unread. -/
def numberRest (cs : Bytes) : Bytes :=
  match cs.dropWhile isSpace with
  | [] => []
  | c :: rest =>
    if c = 45 ∨ c = 43 then rest.dropWhile isDigit else (c :: rest).dropWhile isDigit

/-! ## `sprintf` -/

/-- `sprintf("%lu", value)`. -/
def printUInt32 (value : UInt32) : Bytes := decimal value.toNat

/-- `sprintf("%d", value)`. -/
def printInt (value : Int32) : Bytes :=
  if value.toInt < 0 then 45 :: decimal value.toInt.natAbs else decimal value.toInt.natAbs

lemma isDigit_toNat (h : isDigit c = true) : 48 ≤ c.toNat ∧ c.toNat ≤ 57 := by
  simpa [isDigit, UInt8.le_iff_toNat_le] using h

lemma not_isSpace_of_isDigit (h : isDigit c = true) : isSpace c = false := by
  have := isDigit_toNat h
  simp only [isSpace, Bool.or_eq_false_iff, Bool.and_eq_false_iff, beq_eq_false_iff_ne,
    decide_eq_false_iff_not, UInt8.le_iff_toNat_le, ne_eq, ← UInt8.toNat_inj]
  simp
  omega

def EndsNumber (rest : Bytes) : Prop := ∀ c ∈ rest.head?, isDigit c = false

lemma takeWhile_isDigit_append {ds : Bytes} (hds : ∀ c ∈ ds, isDigit c = true)
    (hr : EndsNumber rest) : (ds ++ rest).takeWhile isDigit = ds := by
  rw [takeWhile_append_of_pos hds]
  cases rest with
  | nil => simp
  | cons c rest => simp [hr c rfl]

lemma dropWhile_isDigit_append {ds : Bytes} (hds : ∀ c ∈ ds, isDigit c = true)
    (hr : EndsNumber rest) : (ds ++ rest).dropWhile isDigit = rest := by
  rw [dropWhile_append_of_pos hds]
  cases rest with
  | nil => simp
  | cons c rest => simp [hr c rfl]

lemma scanNumber_decimal_append (n : ℕ) (hr : EndsNumber rest) :
    scanNumber (decimal n ++ rest) = (false, decimal n) ∧
      numberRest (decimal n ++ rest) = rest := by
  obtain ⟨c, ds, hcd⟩ := exists_cons_of_ne_nil (decimal_ne_nil n)
  have hd : ∀ x ∈ c :: ds, isDigit x = true :=
    fun x hx => isDigit_of_mem_decimal (n := n) (hcd ▸ hx)
  have hc : isDigit c = true := hd c (.head _)
  have hn := isDigit_toNat hc
  have h45 : c ≠ 45 := by rintro rfl; simp at hn
  have h43 : c ≠ 43 := by rintro rfl; simp at hn
  have hs : (c :: (ds ++ rest)).dropWhile isSpace = c :: (ds ++ rest) :=
    dropWhile_cons_of_neg (by simp [not_isSpace_of_isDigit hc])
  have ht : (c :: (ds ++ rest)).takeWhile isDigit = c :: ds := takeWhile_isDigit_append hd hr
  have hdp : (c :: (ds ++ rest)).dropWhile isDigit = rest := dropWhile_isDigit_append hd hr
  rw [hcd, cons_append]
  constructor
  · simp only [scanNumber, hs, if_neg h45, if_neg h43, ht]
  · simp only [numberRest, hs, if_neg (not_or.mpr ⟨h45, h43⟩), hdp]

lemma endsNumber_nil : EndsNumber [] := by simp [EndsNumber]

lemma scanNumber_decimal (n : ℕ) : scanNumber (decimal n) = (false, decimal n) := by
  simpa using (scanNumber_decimal_append n endsNumber_nil).1

lemma scanNumber_neg_decimal (n : ℕ) : scanNumber (45 :: decimal n) = (true, decimal n) := by
  have hs : isSpace 45 = false := by decide
  have ht : (decimal n).takeWhile isDigit = decimal n :=
    takeWhile_eq_self_iff.mpr fun _ h => isDigit_of_mem_decimal h
  simp [scanNumber, hs, ht]

/-- **Reading back `%lu`**, with anything behind it that ends the number. -/
theorem scanUInt32_printUInt32_append (value : UInt32) (hr : EndsNumber rest) :
    scanUInt32 (printUInt32 value ++ rest) = some value ∧
      numberRest (printUInt32 value ++ rest) = rest := by
  have hlt : ¬ 2 ^ 32 ≤ value.toNat := not_le.mpr (by simpa using value.toNat_lt)
  obtain ⟨hs, hl⟩ := scanNumber_decimal_append value.toNat hr
  refine ⟨?_, hl⟩
  simp only [scanUInt32, printUInt32, hs, digitsValue_decimal, decimal_ne_nil, if_false, hlt]
  simp

/-- **Reading back `%lu`.** -/
theorem scanUInt32_printUInt32 (value : UInt32) : scanUInt32 (printUInt32 value) = some value := by
  simpa using (scanUInt32_printUInt32_append value endsNumber_nil).1

/-- **Reading back `%d`.** -/
theorem scanInt_printInt (value : Int32) : scanInt (printInt value) = some value := by
  have hlo := value.le_toInt
  have hhi := value.toInt_lt
  unfold scanInt printInt
  split_ifs with hn
  · simp only [scanNumber_neg_decimal, digitsValue_decimal, decimal_ne_nil, if_false]
    rw [if_pos trivial, show -((value.toInt.natAbs : ℕ) : ℤ) = value.toInt by omega,
      min_eq_left (by omega), max_eq_right hlo, Int32.ofInt_toInt]
  · simp only [scanNumber_decimal, digitsValue_decimal, decimal_ne_nil, if_false]
    rw [if_neg (by simp), show ((value.toInt.natAbs : ℕ) : ℤ) = value.toInt by omega,
      min_eq_left (by omega), max_eq_right hlo, Int32.ofInt_toInt]

/-! ## What the written text looks like -/

lemma printUInt32_length_le (value : UInt32) : (printUInt32 value).length ≤ 10 :=
  decimal_length_le (by norm_num) (lt_trans value.toNat_lt (by norm_num))

lemma printInt_length_le (value : Int32) : (printInt value).length ≤ 11 := by
  have hlo := value.le_toInt
  have hhi := value.toInt_lt
  have hlen : (decimal value.toInt.natAbs).length ≤ 10 :=
    decimal_length_le (by norm_num) (lt_of_le_of_lt (b := 2 ^ 31) (by omega) (by norm_num))
  unfold printInt
  split_ifs
  · exact Nat.succ_le_succ hlen
  · exact hlen.trans (by norm_num)

lemma mem_printUInt32 {value : UInt32} (h : c ∈ printUInt32 value) : isDigit c = true :=
  isDigit_of_mem_decimal h

lemma mem_printInt {value : Int32} (h : c ∈ printInt value) : c = 45 ∨ isDigit c = true := by
  unfold printInt at h
  split_ifs at h
  · rcases mem_cons.mp h with rfl | h
    · exact .inl rfl
    · exact .inr (isDigit_of_mem_decimal h)
  · exact .inr (isDigit_of_mem_decimal h)

end Glomop.Lib
