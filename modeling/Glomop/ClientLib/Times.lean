import Mathlib.Data.Int.Order.Basic
import Mathlib.Data.Option.Basic
import Mathlib.Tactic.Ring

/-!
# Adding times

The client library adds and compares times in seconds and a fraction, which is counted in
microseconds by the `tv_` functions and in nanoseconds by the `ts_` functions.  An addition carries
only if the fractions make *more* than a second.  If they make a second exactly the sum is left with
a full second in its fraction, and the comparison, which looks at the seconds first, takes it for
earlier than itself (`times_right_iff`).  Source: `utils.c`.
-/

namespace Glomop.ClientLib

open Option

/-- `struct timeval` and `struct timespec`. -/
structure Time where
  sec : ℤ
  frac : ℤ
deriving DecidableEq

inductive Clock
  | tv
  | ts

/-- The parts of a second in which a fraction is counted. -/
def Clock.unit : Clock → ℤ
  | tv => 1000000
  | ts => 1000000000

/-- The result of an operation on `long`; an overflow is undefined. -/
def long (x : ℤ) : Option ℤ := if -2 ^ 31 ≤ x ∧ x < 2 ^ 31 then some x else none

def timeadd (unit : ℤ) (t1 t2 : Time) : Option Time := do
  let sec ← long (t1.sec + t2.sec)
  let frac ← long (t1.frac + t2.frac)
  if frac > unit then
    let sec ← long (sec + 1)
    let frac ← long (frac - unit)
    return ⟨sec, frac⟩
  else return ⟨sec, frac⟩

def timesub (unit : ℤ) (t1 t2 : Time) : Option Time := do
  let (frac, sec) ←
    if t2.frac > t1.frac then do
      let frac ← long (t1.frac + unit)
      let sec ← long (t2.sec + 1)
      pure (frac, sec)
    else pure (t1.frac, t2.sec)
  let sec ← long (t1.sec - sec)
  let frac ← long (frac - t2.frac)
  return ⟨sec, frac⟩

/-- `tv_timecmp`, `ts_timecmp`. -/
def timecmp (t1 t2 : Time) : ℤ :=
  if t1.sec > t2.sec then 1
  else if t1.sec < t2.sec then -1
  else if t1.frac > t2.frac then 1
  else if t1.frac < t2.frac then -1
  else 0

def tvTimeadd : Time → Time → Option Time := timeadd 1000000

def tsTimeadd : Time → Time → Option Time := timeadd 1000000000

def tvTimesub : Time → Time → Option Time := timesub 1000000

def tsTimesub : Time → Time → Option Time := timesub 1000000000

namespace Clock

variable (clock : Clock) {a b t1 t2 : Time}

def timeadd : Time → Time → Option Time :=
  match clock with
  | tv => tvTimeadd
  | ts => tsTimeadd

def timesub : Time → Time → Option Time :=
  match clock with
  | tv => tvTimesub
  | ts => tsTimesub

/-- A time that is not negative and whose fraction is below one second. -/
structure Normal (t : Time) : Prop where
  sec_nonneg : 0 ≤ t.sec
  sec_lt : t.sec < 2 ^ 31
  frac_nonneg : 0 ≤ t.frac
  frac_lt : t.frac < clock.unit

def value (t : Time) : ℤ := t.sec * clock.unit + t.frac

def ComparesRight (t1 t2 : Time) : Prop :=
  timecmp t1 t2 = (clock.value t1 - clock.value t2).sign

/-- **Time arithmetic as it should be**: a sum is a normal time with the exact value, taking one
term away leaves the other, and comparisons are those of the exact values, also of sums. -/
def Right (a b : Time) : Prop :=
  clock.ComparesRight a b ∧
    ∃ s, clock.timeadd a b = some s ∧ clock.Normal s ∧
      clock.value s = clock.value a + clock.value b ∧ clock.timesub s b = some a ∧
      ∀ t, clock.Normal t → clock.ComparesRight s t

variable {clock}

lemma timeadd_eq (clock : Clock) : clock.timeadd = ClientLib.timeadd clock.unit := by
  cases clock <;> rfl

lemma timesub_eq (clock : Clock) : clock.timesub = ClientLib.timesub clock.unit := by
  cases clock <;> rfl

lemma comparesRight (h1 : clock.Normal t1) (h2 : clock.Normal t2) : clock.ComparesRight t1 t2 := by
  obtain ⟨-, -, hlo, hh⟩ := h1
  obtain ⟨-, -, hl, hhi⟩ := h2
  have hs : ∀ x : ℤ, (0 < x → x.sign = 1) ∧ (x < 0 → x.sign = -1) ∧ (x = 0 → x.sign = 0) :=
    fun x => ⟨Int.sign_eq_one_of_pos, Int.sign_eq_neg_one_of_neg, by rintro rfl; rfl⟩
  obtain ⟨hpos, hn, hz⟩ := hs (clock.value t1 - clock.value t2)
  unfold ComparesRight timecmp
  -- the unit has to be a number before the products are linear
  cases clock <;> simp only [value, unit] at * <;> split_ifs <;> omega

lemma long_eq_some {x y : ℤ} : long x = some y ↔ (-2 ^ 31 ≤ x ∧ x < 2 ^ 31) ∧ x = y := by
  rw [long, ite_none_right_eq_some, some.injEq]

lemma exists_sum (ha : clock.Normal a) (hb : clock.Normal b) (hne : a.frac + b.frac ≠ clock.unit)
    (hf : clock.value a + clock.value b < 2 ^ 31 * clock.unit) :
    ∃ s, clock.timeadd a b = some s ∧ clock.Normal s ∧
      clock.value s = clock.value a + clock.value b ∧ clock.timesub s b = some a := by
  obtain ⟨ha1, ha2, ha3, ha4⟩ := ha
  obtain ⟨hb1, hb2, hb3, hb4⟩ := hb
  rw [timeadd_eq, timesub_eq]
  have hu : clock.unit ≤ 1000000000 := by cases clock <;> decide
  have hl : ∀ x : ℤ, -2 ^ 31 ≤ x → x < 2 ^ 31 → long x = some x := fun x hlo hh => if_pos ⟨hlo, hh⟩
  by_cases hc : a.frac + b.frac > clock.unit
  · have hs : a.sec + b.sec + 1 < 2 ^ 31 := by
      cases clock <;> simp only [value, unit] at * <;> omega
    have hbo : b.frac > a.frac + b.frac - clock.unit := by omega
    refine ⟨⟨a.sec + b.sec + 1, a.frac + b.frac - clock.unit⟩, ?_,
      ⟨show 0 ≤ a.sec + b.sec + 1 by omega, hs, Int.le_of_lt (Int.sub_pos_of_lt hc),
        show a.frac + b.frac - clock.unit < clock.unit by omega⟩, by unfold value; ring, ?_⟩
    · simp [ClientLib.timeadd, hl (a.sec + b.sec) (by omega) (by omega),
        hl (a.frac + b.frac) (by omega) (by omega), if_pos hc,
        hl (a.sec + b.sec + 1) (by omega) hs,
        hl (a.frac + b.frac - clock.unit) (by omega) (by omega)]
    · simp [ClientLib.timesub, if_pos hbo, add_assoc, hl (a.frac + b.frac) (by omega) (by omega),
        hl (b.sec + 1) (by omega) (by omega), hl a.sec (by omega) (by omega),
        hl a.frac (by omega) (by omega)]
  · have hs : a.sec + b.sec < 2 ^ 31 := by
      cases clock <;> simp only [value, unit] at * <;> omega
    have hbo : ¬ b.frac > a.frac + b.frac := by omega
    refine ⟨⟨a.sec + b.sec, a.frac + b.frac⟩, ?_, ⟨add_nonneg ha1 hb1, hs, add_nonneg ha3 hb3,
      show a.frac + b.frac < clock.unit by omega⟩, by unfold value; ring, ?_⟩
    · simp only [ClientLib.timeadd, hl (a.sec + b.sec) (by omega) hs,
        hl (a.frac + b.frac) (by omega) (by omega), bind_eq_bind, bind_some, if_neg hc, pure_def]
    · simp only [ClientLib.timesub, if_neg hbo, bind_eq_bind, bind_some, pure_def,
        add_sub_cancel_right, hl a.sec (by omega) (by omega), hl a.frac (by omega) (by omega)]

/-- **When time arithmetic is right**: exactly if the fractions do not make one second, and the
seconds of the sum fit into a `long`. -/
theorem times_right_iff (clock : Clock) (a b : Time) (ha : clock.Normal a) (hb : clock.Normal b) :
    clock.Right a b ↔
      a.frac + b.frac ≠ clock.unit ∧ clock.value a + clock.value b < 2 ^ 31 * clock.unit := by
  constructor
  · rintro ⟨-, s, had, hs, hv, -⟩
    have hlt := hs.frac_lt
    have hse := hs.sec_lt
    constructor
    · intro heq
      rw [timeadd_eq] at had
      simp only [ClientLib.timeadd, bind_eq_bind, bind_eq_some_iff, long_eq_some] at had
      obtain ⟨_, ⟨-, rfl⟩, _, ⟨-, rfl⟩, hsu⟩ := had
      rw [if_neg (by omega)] at hsu
      cases hsu
      exact hlt.ne heq
    · rw [← hv]
      cases clock <;> simp only [value, unit] at * <;> omega
  · rintro ⟨hne, hf⟩
    obtain ⟨s, had, hs, hv, hsb⟩ := exists_sum ha hb hne hf
    exact ⟨comparesRight ha hb, s, had, hs, hv, hsb, fun t => comparesRight hs⟩

/-- A quarter of a second and half a second, in microseconds. -/
theorem times_right_quarter :
    tv.Normal ⟨3, 250000⟩ ∧ tv.Normal ⟨4, 500000⟩ ∧ tv.Right ⟨3, 250000⟩ ⟨4, 500000⟩ :=
  have ha : tv.Normal ⟨3, 250000⟩ := ⟨by decide, by decide, by decide, by decide⟩
  have hb : tv.Normal ⟨4, 500000⟩ := ⟨by decide, by decide, by decide, by decide⟩
  ⟨ha, hb, (times_right_iff tv _ _ ha hb).mpr (by decide)⟩

/-- **Two halves of a second** are no second: their sum counts as earlier than one second. -/
theorem two_halves_precede_one :
    tvTimeadd ⟨0, 500000⟩ ⟨0, 500000⟩ = some ⟨0, 1000000⟩ ∧
      tv.value ⟨0, 1000000⟩ = tv.value ⟨1, 0⟩ ∧ timecmp ⟨0, 1000000⟩ ⟨1, 0⟩ = -1 ∧
      ¬ tv.Normal ⟨0, 1000000⟩ := by
  refine ⟨rfl, rfl, rfl, fun h => ?_⟩
  exact absurd h.frac_lt (by decide)

end Clock

end Glomop.ClientLib
