import Glomop.Ptm.Runs

/-!
# What launch records know about their distillers

A launch record counts its awake distillers and adds up their averaged loads.  Both numbers are kept
up by increments; `Balanced` is what they are meant to be.  A load report of a sleeping distiller
breaks it (`asleepReport_unbalanced`), and nothing else does (`balanced_of_run`).  The proof keeps
both as one element of `ℤ × UInt32`, a `Heap.total` of what each distiller record contributes.
-/

namespace Glomop.Ptm

open Lib Prog Relation Heap Option LaunchRecord

namespace State

/-- The awake distillers in the database that are bound to a launch record. -/
def activeDistillers (s : State) (l : ℕ) : List DistillerRecord :=
  (s.distillerDB.filterMap s.distillers.cell).filter fun r =>
    r.isAwake ∧ r.launchRecord = some l

def registeredOn (s : State) (c : ℕ) : Option DistillerRecord :=
  ((s.connections.cell c).bind (·.record)).bind s.distillers.cell

end State

/-- The sum of some distillers' averaged loads, modulo `2 ^ 32`. -/
def sumOfLoads (records : List DistillerRecord) : UInt32 :=
  (records.map (·.load.totalLatency_ms)).sum

/-- Every launch record with a limit counts the awake distillers bound to it and adds up their
loads, so that the average that `UpdateLoad` compares with the limit is their mean. -/
def Balanced (s : State) : Prop :=
  ∀ l record, s.launchRecords.cell l = some record → record.autoLaunchLimit ≠ 0 →
    record.numberOfActiveDistillers = (s.activeDistillers l).length ∧
    record.totalLoad.totalLatency_ms = sumOfLoads (s.activeDistillers l) ∧
    (Load.zero.average record.totalLoad record.numberOfActiveDistillers.toNat).totalLatency_ms =
      if (s.activeDistillers l).length = 0 then 0
      else sumOfLoads (s.activeDistillers l) / UInt32.ofNat (s.activeDistillers l).length

/-- No distiller that is bound to a launch record reports a load while it is not awake. -/
def ReportsAwake (s : State) (i : Input) : Prop :=
  match i.event with
  | .packet c p _ =>
    PTMPacketType.ofWord p.type = some .pktDistillerLoad →
      ∀ r ∈ s.registeredOn c, r.launchRecord ≠ none → r.isAwake = true
  | _ => True

instance (s : State) (i : Input) : Decidable (ReportsAwake s i) :=
  match i with
  | ⟨.packet c p _, _, _⟩ => inferInstanceAs
      (Decidable (PTMPacketType.ofWord p.type = some .pktDistillerLoad →
        ∀ r ∈ s.registeredOn c, r.launchRecord ≠ none → r.isAwake = true))
  | ⟨.readError _ _, _, _⟩ | ⟨.accept, _, _⟩ | ⟨.bus _ _, _, _⟩ | ⟨.launchTimer _, _, _⟩
  | ⟨.beaconTimer, _, _⟩ | ⟨.reload _ _, _, _⟩ => inferInstanceAs (Decidable True)

/-! ## Tallies and shares -/

/-- What a launch record knows: a number of distillers and a sum of loads. -/
def LaunchRecord.tally (record : LaunchRecord) : ℤ × UInt32 :=
  (record.numberOfActiveDistillers, record.totalLoad.totalLatency_ms)

def share (l : ℕ) (r : DistillerRecord) : ℤ × UInt32 :=
  if r.isAwake ∧ r.launchRecord = some l then (1, r.load.totalLatency_ms) else 0

section Shares

variable {l : ℕ} {r : DistillerRecord} {record : LaunchRecord}

lemma share_of_counted (h : r.isAwake ∧ r.launchRecord = some l) :
    share l r = (1, r.load.totalLatency_ms) := if_pos h

lemma share_of_not_counted (h : ¬ (r.isAwake ∧ r.launchRecord = some l)) : share l r = 0 := if_neg h

lemma share_of_asleep (h : r.isAwake = false) : share l r = 0 :=
  share_of_not_counted fun hr => by simp [h] at hr

lemma tally_countIn : record.countIn.tally = record.tally + (1, 0) := by
  simp [tally, countIn]

lemma sum_share (distillers : Heap DistillerRecord) (ds : List ℕ) :
    (ds.map fun d => (distillers.cell d).elim 0 (share l)).sum =
      ((((ds.filterMap distillers.cell).filter fun r =>
        r.isAwake ∧ r.launchRecord = some l).length : ℤ),
        sumOfLoads ((ds.filterMap distillers.cell).filter fun r =>
          r.isAwake ∧ r.launchRecord = some l)) := by
  induction ds with
  | nil => rfl
  | cons d ds ih =>
    rw [List.map_cons, List.sum_cons, ih]
    cases hd : distillers.cell d with
    | none =>
      rw [List.filterMap_cons_none hd]
      exact zero_add _
    | some r =>
      rw [List.filterMap_cons_some hd, elim_some]
      by_cases hr : r.isAwake ∧ r.launchRecord = some l
      · rw [share_of_counted hr, List.filter_cons_of_pos (by simpa using hr)]
        simp [sumOfLoads, add_comm]
      · rw [share_of_not_counted hr, List.filter_cons_of_neg (by simpa using hr), zero_add]

end Shares

/-! ## Changes of launch records -/

lemma adjusted_next (records : Heap LaunchRecord) (r : DistillerRecord)
    (change : LaunchRecord → LaunchRecord) : (adjusted records r change).next = records.next := by
  unfold adjusted
  repeat' split
  all_goals rfl

variable {l : ℕ} {s s' : State}

lemma adjusted_cell_cases {records : Heap LaunchRecord} {r : DistillerRecord}
    {change : LaunchRecord → LaunchRecord} {record' : LaunchRecord}
    (h : (adjusted records r change).cell l = some record') :
    (∃ record, records.cell l = some record ∧ (r.isAwake ∧ r.launchRecord = some l) ∧
      record' = change record) ∨
    (records.cell l = some record' ∧ ¬ (r.isAwake ∧ r.launchRecord = some l)) := by
  by_cases hr : r.isAwake
  · cases hl : r.launchRecord with
    | none =>
      rw [adjusted_of_unbound hl] at h
      exact .inr ⟨h, by simp⟩
    | some l' =>
      cases hre : records.cell l' with
      | none =>
        simp only [adjusted, hl, hre] at h
        refine .inr ⟨h, ?_⟩
        rintro ⟨_, heq⟩
        rw [some.inj heq, h] at hre
        cases hre
      | some record =>
        rw [adjusted_of_awake hl hre hr] at h
        rcases set_cell_cases h with ⟨rfl, rfl, _⟩ | ⟨hne, h⟩
        · exact .inl ⟨record, hre, ⟨hr, rfl⟩, rfl⟩
        · exact .inr ⟨h, fun heq => hne (some.inj heq.2).symm⟩
  · rw [adjusted_of_asleep (by simpa using hr)] at h
    exact .inr ⟨h, fun heq => hr heq.1⟩

lemma reported_next (records : Heap LaunchRecord) (r : DistillerRecord) (newLoad : Load) :
    (reported records r newLoad).next = records.next := by
  unfold reported
  repeat' split
  all_goals rfl

lemma reported_cell_cases {records : Heap LaunchRecord} {r : DistillerRecord} {newLoad : Load}
    {record' : LaunchRecord} (h : (reported records r newLoad).cell l = some record') :
    (∃ record, records.cell l = some record ∧ r.launchRecord = some l ∧
      record' = { record with totalLoad := (record.totalLoad.sub r.load).add newLoad }) ∨
    (records.cell l = some record' ∧ (r.launchRecord = some l → record'.autoLaunchLimit = 0)) := by
  cases hl : r.launchRecord with
  | none =>
    simp only [reported, hl] at h
    exact .inr ⟨h, nofun⟩
  | some l' =>
    cases hr : records.cell l' with
    | none =>
      simp only [reported, hl, hr] at h
      refine .inr ⟨h, fun heq => ?_⟩
      rw [some.inj heq, h] at hr
      cases hr
    | some record =>
      simp only [reported, hl, hr] at h
      split_ifs at h with hli
      · refine .inr ⟨h, fun heq => ?_⟩
        rw [some.inj heq, h] at hr
        rw [some.inj hr]
        exact hli
      · rcases set_cell_cases h with ⟨rfl, rfl, _⟩ | ⟨hne, h⟩
        · exact .inl ⟨record, hr, rfl, rfl⟩
        · exact .inr ⟨h, fun heq => (hne (some.inj heq).symm).elim⟩

structure Keeps (records records' : Heap LaunchRecord) : Prop where
  next_le : records.next ≤ records'.next
  kept : ∀ l record', records'.cell l = some record' →
    (∃ record, records.cell l = some record ∧ record'.tally = record.tally ∧
      (record.autoLaunchLimit ≠ 0 → record'.autoLaunchLimit ≠ 0)) ∨
    (records.next ≤ l ∧ record'.tally = 0 ∧ record'.autoLaunchLimit ≠ 0)

namespace Keeps

variable {records records1 records' : Heap LaunchRecord} {l : ℕ} {record record' : LaunchRecord}

lemma refl (records : Heap LaunchRecord) : Keeps records records :=
  ⟨le_rfl, fun _ record' h => .inl ⟨record', h, rfl, id⟩⟩

lemma trans (h1 : Keeps records records1) (h2 : Keeps records1 records') :
    Keeps records records' := by
  refine ⟨h1.next_le.trans h2.next_le, fun l record' h => ?_⟩
  rcases h2.kept l record' h with ⟨record₁, hr1, ht, hli⟩ | ⟨hl, ht, hli⟩
  · rcases h1.kept l record₁ hr1 with
      ⟨record, hr, ht', hl'⟩ | ⟨hl, ht', hl'⟩
    · exact .inl ⟨record, hr, ht.trans ht', fun h => hli (hl' h)⟩
    · exact .inr ⟨hl, ht.trans ht', hli hl'⟩
  · exact .inr ⟨h1.next_le.trans hl, ht, hli⟩

lemma alloc (ht : record.tally = 0) (hl : record.autoLaunchLimit ≠ 0) :
    Keeps records (records.alloc record) := by
  refine ⟨Nat.le_succ _, fun l record' h => ?_⟩
  rcases alloc_cell_cases h with ⟨rfl, rfl⟩ | h
  · exact .inr ⟨le_rfl, ht, hl⟩
  · exact .inl ⟨record', h, rfl, id⟩

lemma set (hr : records.cell l = some record) (ht : record'.tally = record.tally)
    (hl : record.autoLaunchLimit ≠ 0 → record'.autoLaunchLimit ≠ 0) :
    Keeps records (records.set l record') := by
  refine ⟨le_rfl, fun l' record'' h => ?_⟩
  rcases set_cell_cases h with ⟨rfl, rfl, _⟩ | ⟨_, h⟩
  · exact .inl ⟨record, hr, ht, hl⟩
  · exact .inl ⟨record'', h, rfl, id⟩

lemma free (l : ℕ) : Keeps records (records.free l) :=
  ⟨le_rfl, fun _ record' h => .inl ⟨record', (free_cell_cases h).2, rfl, id⟩⟩

end Keeps

lemma Launching.keeps (h : Launching s s') : Keeps s.launchRecords s'.launchRecords := by
  cases h with
  | env _ henv =>
    cases henv
    exact .refl _
  | touch l record hr => exact .set hr rfl id
  | newPending => exact .refl _
  | unrequested _ he => cases he <;> exact .refl _
  | timeout => exact .refl _
  | conclude p pending record status _ _ =>
    show Keeps s.launchRecords (if record.mustDie then _ else _)
    split_ifs
    · exact .free _
    · exact .refl _

lemma Launches.keeps (h : Launches s s') : Keeps s.launchRecords s'.launchRecords := by
  induction h with
  | refl => exact .refl _
  | tail _ hs ih => exact ih.trans hs.keeps

lemma Requested.keeps {request : Option Asker} (h : Requested request s s') :
    Keeps s.launchRecords s'.launchRecords := by
  obtain ⟨s1, s2, hb, he, ha⟩ := h
  have hs : s2.launchRecords = s1.launchRecords := by
    cases he <;> rfl
  have hl := Launches.keeps ha
  rw [hs] at hl
  exact (Launches.keeps hb).trans hl

lemma Reloads.keeps (h : Reloads s s') : Keeps s.launchRecords s'.launchRecords := by
  induction h with
  | refl => exact .refl _
  | tail _ hs ih =>
    refine ih.trans ?_
    cases hs with
    | status => exact .refl _
    | new record hn hlo hl =>
      exact .alloc (by rw [tally, hn, hlo]; rfl) hl
    | assign l record record' hr hn hlo hl =>
      exact .set hr (by rw [tally, hn, hlo]; rfl) hl
    | delete l => exact .free l
    | add | remove => exact .refl _

/-! ## Keeping the books -/

structure Booked (distillers : Heap DistillerRecord) (records : Heap LaunchRecord) : Prop where
  tally_eq : ∀ l record, records.cell l = some record → record.tally = distillers.total (share l)
  idle : distillers.All fun r =>
    r.isAwake = false → r.launchRecord ≠ none → r.load.totalLatency_ms = 0
  bound : distillers.All fun r => ∀ l, r.launchRecord = some l → l < records.next
  limit : records.All fun record => record.autoLaunchLimit ≠ 0

lemma Found.lt_next {found : Option (ℕ × LaunchRecord)} (h : Found s found) (c : ℕ)
    (reg : Registration) (l : ℕ) (hl : (reg.record c found).launchRecord = some l) :
    l < s.launchRecords.next := by
  obtain ⟨⟨l', record⟩, hf, rfl⟩ := map_eq_some_iff.mp hl
  exact lt_next_of_cell (h l' record hf).2

namespace Booked

variable {distillers : Heap DistillerRecord} {records records' : Heap LaunchRecord} {d : ℕ}
  {r r' : DistillerRecord}

section

variable (h : Booked distillers records)

include h

lemma total_eq_zero (hl : records.next ≤ l) : distillers.total (share l) = 0 := by
  refine Finset.sum_eq_zero fun d _ => ?_
  cases hd : distillers.cell d with
  | none => rfl
  | some r =>
    refine share_of_not_counted fun hr => ?_
    exact absurd (h.bound d r hd l hr.2) (not_lt.mpr hl)

lemma keeps (hk : Keeps records records') : Booked distillers records' := by
  constructor
  · intro l record' hr'
    rcases hk.kept l record' hr' with ⟨record, hr, ht, _⟩ | ⟨hl, ht, _⟩
    · rw [ht]
      exact h.tally_eq l record hr
    · rw [ht, h.total_eq_zero hl]
  · exact h.idle
  · intro d r hd l hl
    exact (h.bound d r hd l hl).trans_le hk.next_le
  · intro l record' hr'
    rcases hk.kept l record' hr' with ⟨record, hr, _, hli⟩ | ⟨_, _, hli⟩
    · exact hli (h.limit l record hr)
    · exact hli

lemma limit_adjusted {change : LaunchRecord → LaunchRecord}
    (hc : ∀ record, (change record).autoLaunchLimit = record.autoLaunchLimit) :
    (adjusted records r change).All fun record => record.autoLaunchLimit ≠ 0 := by
  intro l record' hr'
  rcases adjusted_cell_cases hr' with ⟨record, hr, _, rfl⟩ | ⟨hr, _⟩
  · rw [hc]
    exact h.limit l record hr
  · exact h.limit l record' hr

lemma create (hl : r.load.totalLatency_ms = 0)
    (hb : ∀ l, r.launchRecord = some l → l < records.next) :
    Booked (distillers.alloc r) (adjusted records r countIn) := by
  constructor
  · intro l record' hr'
    rw [total_alloc]
    rcases adjusted_cell_cases hr' with ⟨record, hre, hr, rfl⟩ | ⟨hre, hr⟩
    · rw [tally_countIn, h.tally_eq l record hre, share_of_counted hr, hl]
    · rw [h.tally_eq l record' hre, share_of_not_counted hr, add_zero]
  · exact h.idle.alloc fun _ _ => hl
  · rw [adjusted_next]
    exact h.bound.alloc hb
  · exact h.limit_adjusted fun _ => rfl

lemma destroy (hr : distillers.cell d = some r) :
    Booked (distillers.free d) (adjusted records r (countOut r.load)) := by
  constructor
  · intro l record' hr'
    have ht := total_free (f := share l) hr
    rcases adjusted_cell_cases hr' with ⟨record, hre, hc, rfl⟩ | ⟨hre, hc⟩
    · show record.tally - (1, r.load.totalLatency_ms) = _
      rw [h.tally_eq l record hre, ht, share_of_counted hc]
      exact add_sub_cancel_left _ _
    · rw [h.tally_eq l record' hre, ht, share_of_not_counted hc, zero_add]
  · exact h.idle.free
  · rw [adjusted_next]
    exact h.bound.free
  · exact h.limit_adjusted fun _ => rfl

lemma wake (hr : distillers.cell d = some r) (ha : r.isAwake = false) :
    Booked (distillers.set d r.awaken) (adjusted records r.awaken countIn) := by
  constructor
  · intro l record' hr'
    have ht := total_set (f := share l) (b := r.awaken) hr
    rw [share_of_asleep ha, add_zero] at ht
    rw [ht]
    rcases adjusted_cell_cases hr' with ⟨record, hre, hc, rfl⟩ | ⟨hre, hc⟩
    · have hl : r.awaken.load.totalLatency_ms = 0 := by
        refine h.idle d r hr ha ?_
        intro hn
        cases hn.symm.trans hc.2
      rw [tally_countIn, h.tally_eq l record hre, share_of_counted hc, hl]
    · rw [h.tally_eq l record' hre, share_of_not_counted hc, add_zero]
  · refine h.idle.set fun haw => ?_
    cases haw
  · rw [adjusted_next]
    exact h.bound.set (h.bound d r hr)
  · exact h.limit_adjusted fun _ => rfl

lemma report (hr : distillers.cell d = some r)
    (ha : r.launchRecord ≠ none → r.isAwake = true) (load : Load) :
    Booked (distillers.set d (r.report load)) (reported records r (r.report load).load) := by
  constructor
  · intro l record' hr'
    have ht := total_set (f := share l) (b := r.report load) hr
    rcases reported_cell_cases hr' with ⟨record, hre, hl, rfl⟩ | ⟨hre, hl⟩
    · have hc : r.isAwake ∧ r.launchRecord = some l := by
        refine ⟨ha ?_, hl⟩
        intro hn
        cases hn.symm.trans hl
      rw [share_of_counted hc, ← h.tally_eq l record hre,
        share_of_counted (r := r.report load) hc] at ht
      refine Eq.trans ?_ (eq_sub_of_add_eq ht).symm
      refine Prod.ext ?_ ?_
      · simp [tally]
      · exact sub_add_eq_add_sub record.totalLoad.totalLatency_ms _ _
    · have hc : ¬ (r.isAwake ∧ r.launchRecord = some l) := by
        intro hc
        exact h.limit l record' hre (hl hc.2)
      rw [share_of_not_counted hc, share_of_not_counted (r := r.report load) hc,
        add_zero, add_zero] at ht
      rw [ht]
      exact h.tally_eq l record' hre
  · refine h.idle.set fun hal hb => ?_
    cases (ha hb).symm.trans hal
  · rw [reported_next]
    exact h.bound.set (h.bound d r hr)
  · intro l record' hr'
    rcases reported_cell_cases hr' with ⟨record, hre, _, rfl⟩ | ⟨hre, _⟩
    · exact h.limit l record hre
    · exact h.limit l record' hre

lemma retype (hr : distillers.cell d = some r)
    (type : DistillerType) : Booked (distillers.set d { r with type := type }) records := by
  constructor
  · intro l record hre
    rw [h.tally_eq l record hre, total_set_of_eq hr]
    rfl
  · exact h.idle.set (h.idle d r hr)
  · exact h.bound.set (h.bound d r hr)
  · exact h.limit

end

end Booked

lemma Waking.booked (h : Waking s s') (hs : Booked s.distillers s.launchRecords) :
    Booked s'.distillers s'.launchRecords := by
  cases h with
  | launching _ hst =>
    obtain ⟨_, hd, _⟩ := hst.frame
    rw [hd]
    exact hs.keeps hst.keeps
  | deregister => exact hs
  | wake d r hr ha => exact hs.wake hr ha
  | lose c d r hr _ _ => exact hs.destroy hr
  | stray => exact hs

lemma Woken.booked (h : Woken s s') (hs : Booked s.distillers s.launchRecords) :
    Booked s'.distillers s'.launchRecords :=
  h.invariant (I := fun s => Booked s.distillers s.launchRecords) Waking.booked hs

/-- **A round keeps the books**, unless a sleeping distiller reports a load. -/
theorem Round.booked {e : Event} (h : Round s e s') (hs : Booked s.distillers s.launchRecords)
    (hok : ∀ c p past, e = .packet c p past → PTMPacketType.ofWord p.type = some .pktDistillerLoad →
      ∀ r ∈ s.registeredOn c, r.launchRecord ≠ none → r.isAwake = true) :
    Booked s'.distillers s'.launchRecords := by
  cases h with
  | quiet _ _ hw => exact hw.booked hs
  | accepted => exact hs
  | closed c s1 s2 _ henv hrm =>
    cases henv
    cases within_removeBrokenConnection c hrm
    exact hs
  | registered c p past reg stream found s1 s2 _ _ _ henv hf hl =>
    obtain ⟨_, hd, _⟩ := hl.frame
    cases henv
    show Booked s2.distillers s2.launchRecords
    rw [hd]
    refine Booked.keeps ?_ hl.keeps
    exact hs.create rfl (hf.lt_next c reg)
  | rejected c p past reg found s1 s2 s3 _ _ _ henv hf he2 hrm he4 =>
    cases henv
    cases he2
    cases within_removeBrokenConnection c hrm
    cases he4
    exact (hs.create rfl (hf.lt_next c reg)).destroy alloc_cell_next
  | deregistered c p past d r _ hr => exact hs.destroy hr
  | reregistered c p past d r type stream s1 _ _ hr _ henv =>
    cases henv
    exact hs.retype hr type
  | asked c p past s1 s2 _ _ _ henv hw hre =>
    cases henv
    obtain ⟨_, hd, _⟩ := hre.frame
    rw [hd]
    exact (hw.booked hs).keeps hre.keeps
  | loaded c p past d r load s1 _ ht hc hr henv hw =>
    have hrg : s.registeredOn c = some r := by
      rw [State.registeredOn, hc]
      exact hr
    cases henv
    refine hw.booked (hs.report hr ?_ load)
    exact hok c p past rfl ht r hrg
  | reloaded options rexecUpdated b s1 _ hu henv =>
    have hrl : Reloads s s1 := reloads_update _ hu
    have hb := hs.keeps hrl.keeps
    obtain ⟨_, _, _, rfl⟩ := hrl.eq
    cases henv
    exact hb

lemma booked_of_initial (h : Initial s) : Booked s.distillers s.launchRecords := by
  obtain ⟨myAddress, myRandomID, now, options, hc⟩ := h
  have hr : Reloads _ s := reloads_create _ hc
  have hb : Booked (empty : Heap DistillerRecord) s.launchRecords := by
    refine Booked.keeps ⟨?_, ?_, ?_, ?_⟩ hr.keeps <;> intro _ _ hce <;> cases hce
  obtain ⟨_, _, _, rfl⟩ := hr.eq
  exact hb

lemma balanced_of_booked (hr : s.distillers.ListedIn s.distillerDB)
    (hb : Booked s.distillers s.launchRecords) : Balanced s := by
  intro l record hre _
  have ht := hb.tally_eq l record hre
  rw [← sum_map_eq_total hr, sum_share] at ht
  obtain ⟨hn, hl⟩ := Prod.mk.inj ht
  refine ⟨hn, hl, ?_⟩
  rw [Load.average, hn, hl, Int.toNat_natCast]
  rfl

section

variable {ipNumber : CString MAXIP → UInt32} {s s' : State} {inputs : List Input}

/-- **Launch records are balanced in every state of a run**, if no bound distiller reports a load
while it is not awake. -/
theorem balanced_of_run (hs : Initial s)
    (h : Run (Guarded ReportsAwake (step ipNumber)) s inputs s') : Balanced s' := by
  obtain ⟨hr, hb⟩ : s'.distillers.ListedIn s'.distillerDB ∧
      Booked s'.distillers s'.launchRecords := by
    refine runs_invariant (I := fun s => Booked s.distillers s.launchRecords)
      (fun s => booked_of_initial) ?_ hs h
    rintro s ⟨e, outcomes, now⟩ s' _ hb hok hro
    refine hro.booked hb ?_
    rintro c p past rfl
    exact hok
  exact balanced_of_booked hr hb

end

theorem balanced_of_run_awake :
    ∃ s s', Initial s ∧ Run (Guarded ReportsAwake (step fun _ => 0)) s (registerAndReport 50) s' ∧
      (s'.launchRecords.cell 0).map LaunchRecord.tally = some (1, 7) ∧ Balanced s' := by
  obtain ⟨s, s', hs, hrun, ht⟩ := exists_run_of_playFrom ReportsAwake (registerAndReport 50)
    (fun s' => (s'.launchRecords.cell 0).map tally = some (1, 7)) (by decide +kernel)
  exact ⟨s, s', hs, hrun, ht, balanced_of_run hs hrun⟩

/-- The report of a sleeping distiller enters the total of a launch record that counts nobody. -/
theorem asleepReport_unbalanced :
    ∃ s s', Initial s ∧ Run (step fun _ => 0) s (registerAndReport 48) s' ∧
      (s'.launchRecords.cell 0).map LaunchRecord.tally = some (0, 7) ∧
      s'.activeDistillers 0 = [] ∧ ¬ Balanced s' := by
  obtain ⟨s, s', hs, hrun, ⟨record, hr, hli, ht⟩, ha⟩ :=
    exists_run_of_playFrom (fun _ _ => True) (registerAndReport 48)
      (fun s' => (∃ record ∈ s'.launchRecords.cell 0,
        record.autoLaunchLimit ≠ 0 ∧ record.tally = (0, 7)) ∧ s'.activeDistillers 0 = [])
      (by decide +kernel)
  refine ⟨s, s', hs, hrun.mono fun _ _ _ h => h.2, by rw [hr, map_some, ht], ha, fun h => ?_⟩
  have hl := (h 0 record hr hli).2.1
  rw [ha, (Prod.mk.inj ht).2] at hl
  exact absurd hl (by decide)

end Glomop.Ptm
