import Glomop.Dist.Load
import Glomop.Lib.CharSum

/-!
# The average load

`AdjustAvgLatency` adds the load times the milliseconds since the last time; `Report` divides by the
milliseconds since the last report.  Each difference of two clock readings is cut off to whole
milliseconds, so the report falls below the load when updates come close together
(`dense_updates_lose_area`).
-/

namespace Glomop.Dist

open Lib List UInt32

/-! ## Clock readings -/

/-- `<sys/time.h>` `struct timeval`, as `gettimeofday` fills it in. -/
structure Timeval where
  tv_sec : ℤ
  tv_usec : ℤ
  usec_nonneg : 0 ≤ tv_usec
  usec_lt : tv_usec < 1000000

open Timeval

variable {now : Timeval}

namespace Timeval

def us (t : Timeval) : ℤ := t.tv_sec * 1000000 + t.tv_usec

/-- `utils.c` `tv_timesub`, without the overflow that `ClientLib.tvTimesub` has. -/
def timesub (t₁ t₂ : Timeval) : ℤ × ℤ :=
  if t₂.tv_usec > t₁.tv_usec then
    (t₁.tv_sec - (t₂.tv_sec + 1), t₁.tv_usec + 1000000 - t₂.tv_usec)
  else (t₁.tv_sec - t₂.tv_sec, t₁.tv_usec - t₂.tv_usec)

/-- `defines.h` `timeval_to_ms`, assigned to a `UINT32`. -/
def toMs (tv : ℤ × ℤ) : UInt32 := UInt32.ofInt (tv.1 * 1000 + tv.2.tdiv 1000)

def msSince (now last : Timeval) : ℕ := ((now.us - last.us) / 1000).toNat

/-- **The difference of two readings**, as it is computed. -/
theorem toMs_timesub (now last : Timeval) :
    toMs (now.timesub last) = ofInt ((now.us - last.us) / 1000) := by
  have hn := now.usec_nonneg
  have hn' := now.usec_lt
  have hl := last.usec_nonneg
  have hl' := last.usec_lt
  have hms : (now.timesub last).1 * 1000 + (now.timesub last).2.tdiv 1000 =
      (now.us - last.us) / 1000 := by
    unfold timesub us
    split_ifs with hb
    all_goals
      rw [Int.tdiv_eq_ediv_of_nonneg (by dsimp only; omega)]
      dsimp only
      omega
  rw [toMs, hms]

lemma toNat_toMs_timesub {last : Timeval} (hle : last.us ≤ now.us)
    (hlt : now.msSince last < 2 ^ 32) : (toMs (now.timesub last)).toNat = now.msSince last := by
  unfold msSince at hlt ⊢
  rw [toMs_timesub, toNat_ofInt]
  have hn : 0 ≤ (now.us - last.us) / 1000 := Int.ediv_nonneg (by omega) (by decide)
  omega

def ofMs (ms : ℕ) : Timeval where
  tv_sec := ms / 1000
  tv_usec := ms % 1000 * 1000
  usec_nonneg := by omega
  usec_lt := by omega

lemma us_ofMs (ms : ℕ) : (ofMs ms).us = ms * 1000 := by
  unfold us ofMs
  dsimp only
  omega

lemma msSince_add_le {t0 t1 t2 : Timeval} (h1 : t0.us ≤ t1.us) (h2 : t1.us ≤ t2.us) :
    t1.msSince t0 + t2.msSince t1 ≤ t2.msSince t0 := by
  unfold msSince
  omega

lemma msSince_mono {t0 t1 t2 : Timeval} (h : t1.us ≤ t2.us) : t1.msSince t0 ≤ t2.msSince t0 := by
  unfold msSince
  omega

end Timeval

/-! ## The reporter -/

/-- The part of the reporter that has to do with the average.
`distiller.h` `class LoadReporter`. -/
structure Averager where
  instTotalLatency_ms : UInt32
  area : UInt32
  lastUpdate : Timeval
  start : Timeval

open Averager

inductive Update
  | newWork (cost : UInt32)
  | workDone (cost : UInt32)
  | getAvgLatency

/-- The load after an update.
`distiller.cc` `LoadReporter::NewWork`, `LoadReporter::WorkDone`. -/
def Update.load : Update → UInt32 → UInt32
  | newWork cost, load => load + cost
  | workDone cost, load => load - cost
  | getAvgLatency, load => load

namespace Averager

/-- `distiller.cc` `LoadReporter::AdjustAvgLatency`. -/
def adjust (r : Averager) (now : Timeval) : Averager :=
  { r with
    area := r.area + r.instTotalLatency_ms * Timeval.toMs (now.timesub r.lastUpdate)
    lastUpdate := now }

/-- `distiller.cc` `LoadReporter::NewWork`, `LoadReporter::WorkDone` and
`LoadReporter::getAvgLatency`. -/
def apply (r : Averager) (update : Update × Timeval) : Averager :=
  { r.adjust update.2 with instTotalLatency_ms := update.1.load r.instTotalLatency_ms }

/-- The clock is read twice: for the last part of the area, and for the divisor.
`distiller.cc` `LoadReporter::Report`, `LoadReporter::getAvgLatency`. -/
def report (r : Averager) (now now' : Timeval) : UInt32 × Averager :=
  let r := r.adjust now
  let diff_ms := Timeval.toMs (now'.timesub r.start)
  (if diff_ms = 0 then r.instTotalLatency_ms else (r.area + diff_ms / 2) / diff_ms,
    { r with area := 0, start := r.lastUpdate })

/-- A reporter of `Glomop.Dist.Load`. -/
def ofReporter (r : LoadReporter) : Averager :=
  ⟨r.instTotalLatency_ms, r.area, .ofMs r.lastUpdate, .ofMs r.start⟩

/-- **With a clock of whole milliseconds** nothing is cut off, and this reporter is the one of
`Glomop.Dist.Load`. -/
theorem adjust_ofReporter {r : LoadReporter} {now : ℕ} (h : r.lastUpdate ≤ now) :
    (ofReporter r).adjust (.ofMs now) = ofReporter (r.adjustAvgLatency now) := by
  have hms : toMs ((ofMs now).timesub (.ofMs r.lastUpdate)) = ofNat (now - r.lastUpdate) := by
    have hd : ((now : ℤ) * 1000 - r.lastUpdate * 1000) / 1000 = (now - r.lastUpdate : ℕ) := by
      omega
    rw [toMs_timesub, us_ofMs, us_ofMs, hd, ← UInt32.toNat_inj, toNat_ofInt, toNat_ofNat']
    omega
  unfold adjust ofReporter LoadReporter.adjustAvgLatency
  dsimp only
  rw [hms]

end Averager

/-! ## From one report to the next -/

structure Interval where
  load : UInt32
  start : Timeval
  updates : List (Update × Timeval)
  now : Timeval
  now' : Timeval
  ordered : (start :: (updates.map Prod.snd ++ [now, now'])).Pairwise fun t t' => t.us ≤ t'.us

/-- The loads from `last` to `now`, each with the milliseconds that it is counted for. -/
def segments (load : UInt32) (last : Timeval) :
    List (Update × Timeval) → Timeval → List (UInt32 × ℕ)
  | [], now => [(load, now.msSince last)]
  | (update, t) :: updates, now =>
    (load, t.msSince last) :: segments (update.load load) t updates now

namespace Interval

variable (i : Interval)

/-- The value that the second report gives.
`distiller.cc` `LoadReporter::Report`. -/
def reported : UInt32 :=
  ((i.updates.foldl Averager.apply ⟨i.load, 0, i.start, i.start⟩).report i.now i.now').1

/-- The loads of the interval, with the milliseconds that they are counted for. -/
def parts : List (UInt32 × ℕ) := segments i.load i.start i.updates i.now

def length : ℕ := i.now'.msSince i.start

def areaAbove (level : ℕ) : ℕ := (i.parts.map fun p => (p.1.toNat - level) * p.2).sum

/-- The milliseconds of the interval that are counted for no load. -/
def lost : ℕ := i.length - (i.parts.map Prod.snd).sum

def Fits : Prop := i.areaAbove 0 + i.length / 2 < 2 ^ 32 ∧ i.length < 2 ^ 32

/-- **The report is an average**: it is not below all loads of the interval, nor above. -/
def IsAverage : Prop :=
  ∀ low high : ℕ, (∀ p ∈ i.parts, low ≤ p.1.toNat ∧ p.1.toNat ≤ high) →
    low ≤ i.reported.toNat ∧ i.reported.toNat ≤ high

end Interval

lemma exists_mem_segments (r : Averager) (updates : List (Update × Timeval)) (now : Timeval) :
    ∃ p ∈ segments r.instTotalLatency_ms r.lastUpdate updates now,
      p.1 = (updates.foldl apply r).instTotalLatency_ms := by
  induction updates generalizing r with
  | nil => exact ⟨_, mem_singleton_self _, rfl⟩
  | cons update updates ih =>
    obtain ⟨p, hp, hl⟩ := ih (r.apply update)
    exact ⟨p, .tail _ hp, hl⟩

lemma start_foldl (r : Averager) (updates : List (Update × Timeval)) :
    (updates.foldl apply r).start = r.start := by
  induction updates generalizing r with
  | nil => rfl
  | cons update updates ih => exact ih (r.apply update)

lemma sum_segments_le {load : UInt32} {last : Timeval} {updates : List (Update × Timeval)}
    (ho : (last :: (updates.map Prod.snd ++ [now])).Pairwise fun t t' => t.us ≤ t'.us) :
    ((segments load last updates now).map Prod.snd).sum ≤ now.msSince last := by
  induction updates generalizing load last with
  | nil => simp [segments]
  | cons update updates ih =>
    obtain ⟨hl, hr⟩ := pairwise_cons.mp ho
    have hf : last.us ≤ update.2.us := hl _ (by simp)
    have hn : update.2.us ≤ now.us := (pairwise_cons.mp hr).1 _ (by simp)
    have hs := @ih (update.1.load load) update.2 hr
    have ha := msSince_add_le hf hn
    rw [segments, map_cons, sum_cons]
    omega

lemma area_adjust {r : Averager} (hle : r.lastUpdate.us ≤ now.us)
    (hms : now.msSince r.lastUpdate < 2 ^ 32)
    (hf : r.area.toNat + r.instTotalLatency_ms.toNat * now.msSince r.lastUpdate < 2 ^ 32) :
    (r.adjust now).area.toNat =
      r.area.toNat + r.instTotalLatency_ms.toNat * now.msSince r.lastUpdate := by
  have hd := toNat_toMs_timesub hle hms
  have hp : (r.instTotalLatency_ms * toMs (now.timesub r.lastUpdate)).toNat =
      r.instTotalLatency_ms.toNat * now.msSince r.lastUpdate := by
    rw [UInt32.toNat_mul, hd]
    exact Nat.mod_eq_of_lt ((Nat.le_add_left _ _).trans_lt hf)
  rw [adjust, UInt32.toNat_add, hp]
  exact Nat.mod_eq_of_lt hf

/-- **The area that is added up**, as long as it fits. -/
theorem area_foldl {r : Averager} {updates : List (Update × Timeval)} {now : Timeval}
    (ho : (r.lastUpdate :: (updates.map Prod.snd ++ [now])).Pairwise fun t t' => t.us ≤ t'.us)
    (hms : now.msSince r.lastUpdate < 2 ^ 32)
    (hf : r.area.toNat +
      ((segments r.instTotalLatency_ms r.lastUpdate updates now).map
        fun p => p.1.toNat * p.2).sum < 2 ^ 32) :
    ((updates.foldl apply r).adjust now).area.toNat = r.area.toNat +
      ((segments r.instTotalLatency_ms r.lastUpdate updates now).map
        fun p => p.1.toNat * p.2).sum := by
  induction updates generalizing r with
  | nil =>
    obtain ⟨hl, _⟩ := pairwise_cons.mp ho
    simp only [segments, map_cons, map_nil, sum_cons, sum_nil, Nat.add_zero] at hf ⊢
    exact area_adjust (hl now (by simp)) hms hf
  | cons update updates ih =>
    obtain ⟨hl, hr⟩ := pairwise_cons.mp ho
    simp only [segments, map_cons, sum_cons] at hf ⊢
    have hfi : r.lastUpdate.us ≤ update.2.us := hl _ (by simp)
    have hn : update.2.us ≤ now.us := (pairwise_cons.mp hr).1 _ (by simp)
    have had := msSince_add_le hfi hn
    have ha : (r.apply update).area.toNat = r.area.toNat +
        r.instTotalLatency_ms.toNat * update.2.msSince r.lastUpdate :=
      area_adjust hfi (by omega) (by omega)
    have hm' : now.msSince (r.apply update).lastUpdate < 2 ^ 32 :=
      lt_of_le_of_lt ((Nat.le_add_left _ _).trans had) hms
    have hf' : (r.apply update).area.toNat + ((segments (r.apply update).instTotalLatency_ms
        (r.apply update).lastUpdate updates now).map fun p => p.1.toNat * p.2).sum < 2 ^ 32 := by
      rw [ha, Nat.add_assoc]
      exact hf
    rw [foldl_cons, @ih (r.apply update) hr hm' hf', ha, Nat.add_assoc]
    rfl

namespace Interval

variable (i : Interval)

lemma ordered_now : (i.start :: (i.updates.map Prod.snd ++ [i.now])).Pairwise
    fun t t' => t.us ≤ t'.us := by
  refine i.ordered.sublist (Sublist.cons_cons i.start ?_)
  exact Sublist.append_left (Sublist.cons_cons i.now (nil_sublist _)) _

lemma start_le : i.start.us ≤ i.now'.us := (pairwise_cons.mp i.ordered).1 _ (by simp)

lemma now_le : i.now.us ≤ i.now'.us := by
  have hr := (pairwise_cons.mp i.ordered).2
  have hl := (pairwise_append.mp hr).2.1
  exact (pairwise_cons.mp hl).1 _ (by simp)

lemma sum_parts_le : (i.parts.map Prod.snd).sum ≤ i.length :=
  (sum_segments_le i.ordered_now).trans (msSince_mono i.now_le)

lemma areaAbove_zero : i.areaAbove 0 = (i.parts.map fun p => p.1.toNat * p.2).sum := by
  simp [areaAbove]

/-- **What is reported**: the last load if no millisecond has passed, and the area divided by the
length of the interval otherwise, rounded. -/
theorem toNat_reported (hfi : i.Fits) :
    i.reported.toNat =
      if i.length = 0 then (i.updates.foldl apply
        ⟨i.load, 0, i.start, i.start⟩).instTotalLatency_ms.toNat
      else (i.areaAbove 0 + i.length / 2) / i.length := by
  obtain ⟨ha, hl⟩ := hfi
  rw [areaAbove_zero] at ha
  have hd : (toMs (i.now'.timesub i.start)).toNat = i.length := toNat_toMs_timesub i.start_le hl
  have hms : i.now.msSince i.start < 2 ^ 32 := (msSince_mono i.now_le).trans_lt hl
  have hsu : ((i.updates.foldl apply ⟨i.load, 0, i.start, i.start⟩).adjust
      i.now).area.toNat = (i.parts.map fun p => p.1.toNat * p.2).sum := by
    have hf := @area_foldl ⟨i.load, 0, i.start, i.start⟩ i.updates i.now i.ordered_now hms
      (by rw [UInt32.toNat_zero, Nat.zero_add]; exact (Nat.le_add_right _ _).trans_lt ha)
    rw [hf, UInt32.toNat_zero, Nat.zero_add]
    rfl
  have hs : ((i.updates.foldl apply ⟨i.load, 0, i.start, i.start⟩).adjust
      i.now).start = i.start := start_foldl _ _
  have hzero_iff : toMs (i.now'.timesub i.start) = 0 ↔ i.length = 0 := by
    rw [← hd, ← UInt32.toNat_inj]
    rfl
  unfold reported report
  dsimp only
  rw [hs]
  by_cases hz : i.length = 0
  · rw [if_pos hz, if_pos (hzero_iff.mpr hz)]
    rfl
  · have ht : (2 : UInt32).toNat = 2 := rfl
    rw [if_neg hz, if_neg (mt hzero_iff.mp hz), UInt32.toNat_div, UInt32.toNat_add,
      UInt32.toNat_div, hd, hsu, ht, areaAbove_zero, Nat.mod_eq_of_lt ha]

lemma area_eq_of_le {low : ℕ} (hl : ∀ p ∈ i.parts, low ≤ p.1.toNat) :
    i.areaAbove 0 = low * (i.parts.map Prod.snd).sum + i.areaAbove low := by
  rw [areaAbove_zero, areaAbove]
  generalize i.parts = parts at hl
  induction parts with
  | nil => rfl
  | cons p parts ih =>
    obtain ⟨hp, hpa⟩ := forall_mem_cons.mp hl
    have hs : p.1.toNat * p.2 = low * p.2 + (p.1.toNat - low) * p.2 := by
      rw [← Nat.add_mul, Nat.add_sub_cancel' hp]
    simp only [map_cons, sum_cons]
    rw [ih hpa, hs, Nat.mul_add]
    omega

lemma area_le {high : ℕ} (hh : ∀ p ∈ i.parts, p.1.toNat ≤ high) :
    i.areaAbove 0 ≤ high * (i.parts.map Prod.snd).sum := by
  rw [areaAbove_zero]
  generalize i.parts = parts at hh
  induction parts with
  | nil => exact Nat.zero_le _
  | cons p parts ih =>
    obtain ⟨hp, hpa⟩ := forall_mem_cons.mp hh
    simp only [map_cons, sum_cons]
    rw [Nat.mul_add]
    exact Nat.add_le_add (Nat.mul_le_mul_right p.2 hp) (ih hpa)

lemma reported_le (hf : i.Fits) {high : ℕ} (hh : ∀ p ∈ i.parts, p.1.toNat ≤ high) :
    i.reported.toNat ≤ high := by
  rw [i.toNat_reported hf]
  split_ifs with hz
  · obtain ⟨p, hp, hl⟩ := exists_mem_segments ⟨i.load, 0, i.start, i.start⟩ i.updates i.now
    rw [← hl]
    exact hh p hp
  · have hpos : 0 < i.length := Nat.pos_of_ne_zero hz
    have ha : i.areaAbove 0 ≤ high * i.length :=
      (i.area_le hh).trans (Nat.mul_le_mul_left high i.sum_parts_le)
    refine Nat.lt_succ_iff.mp ((Nat.div_lt_iff_lt_mul hpos).mpr ?_)
    rw [Nat.succ_mul]
    omega

/-- The report is not below a level exactly if the time that is lost, at that level, is made up for
by rounding and by what is above the level. -/
lemma le_reported_iff (hf : i.Fits) {low : ℕ} (hlw : ∀ p ∈ i.parts, low ≤ p.1.toNat) :
    low ≤ i.reported.toNat ↔ low * i.lost ≤ i.length / 2 + i.areaAbove low := by
  have hs := i.sum_parts_le
  have hle : low * i.length = low * (i.parts.map Prod.snd).sum + low * i.lost := by
    rw [← Nat.mul_add, lost, Nat.add_sub_cancel' hs]
  have ha := i.area_eq_of_le hlw
  rw [i.toNat_reported hf]
  split_ifs with hz
  · obtain ⟨p, hp, hlo⟩ := exists_mem_segments ⟨i.load, 0, i.start, i.start⟩ i.updates i.now
    have hl : i.lost = 0 := by
      rw [lost, hz, Nat.zero_sub]
    rw [← hlo, hl, Nat.mul_zero]
    exact ⟨fun _ => Nat.zero_le _, fun _ => hlw p hp⟩
  · rw [Nat.le_div_iff_mul_le (Nat.pos_of_ne_zero hz)]
    omega

/-- **Which intervals are reported with an average**: those that lose so little time that rounding
and the load above its minimum make up for it. -/
theorem average_iff (i : Interval) (hfits : i.Fits) :
    i.IsAverage ↔ ∀ low, (∀ p ∈ i.parts, low ≤ p.1.toNat) →
      low * i.lost ≤ i.length / 2 + i.areaAbove low := by
  constructor
  · intro ha low hlo
    have hh : ∀ p ∈ i.parts, p.1.toNat ≤ 2 ^ 32 := fun p _ => p.1.toNat_lt.le
    exact (i.le_reported_iff hfits hlo).mp (ha low (2 ^ 32) fun p hp => ⟨hlo p hp, hh p hp⟩).1
  · intro hl low high hb
    have hlo : ∀ p ∈ i.parts, low ≤ p.1.toNat := fun p hp => (hb p hp).1
    exact ⟨(i.le_reported_iff hfits hlo).mpr (hl low hlo),
      i.reported_le hfits fun p hp => (hb p hp).2⟩

/-- A load of 10 for two milliseconds, asked for in between. -/
def atWholeMs : Interval where
  load := 10
  start := .ofMs 0
  updates := [(.getAvgLatency, .ofMs 1)]
  now := .ofMs 2
  now' := .ofMs 2
  ordered := by decide

theorem average_iff_atWholeMs : atWholeMs.Fits ∧ atWholeMs.IsAverage ∧ atWholeMs.reported = 10 := by
  have hf : atWholeMs.Fits := ⟨by decide, by decide⟩
  have hl : atWholeMs.lost = 0 := by decide
  refine ⟨hf, (average_iff atWholeMs hf).mpr fun low _ => ?_, by decide⟩
  rw [hl, Nat.mul_zero]
  exact Nat.zero_le _

/-- The same load, asked for every nine tenths of a millisecond. -/
def dense : Interval where
  load := 10
  start := ⟨0, 0, by decide, by decide⟩
  updates := [(.getAvgLatency, ⟨0, 900, by decide, by decide⟩),
    (.getAvgLatency, ⟨0, 1800, by decide, by decide⟩)]
  now := ⟨0, 2000, by decide, by decide⟩
  now' := ⟨0, 2000, by decide, by decide⟩
  ordered := by decide

/-- A constant load of 10 is reported as 0. -/
theorem dense_updates_lose_area :
    dense.Fits ∧ (∀ p ∈ dense.parts, p.1 = 10) ∧ dense.reported = 0 ∧ ¬ dense.IsAverage := by
  have hpa : ∀ p ∈ dense.parts, p.1 = 10 := by decide
  have hr : dense.reported = 0 := by decide
  refine ⟨⟨by decide, by decide⟩, hpa, hr, fun ha => ?_⟩
  have hl := (ha 10 10 fun p hp => by rw [hpa p hp]; exact ⟨by decide, by decide⟩).1
  rw [hr] at hl
  exact absurd hl (by decide)

end Interval

end Glomop.Dist
