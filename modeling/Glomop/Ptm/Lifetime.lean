import Glomop.Ptm.Runs

/-!
# How long launch records live

Distiller records and pending launches hold pointers to launch records, which the launch database
owns.  `LaunchRecord::Die` puts the deletion off while a launch is pending for it, but does not ask
whether a distiller is bound to it (`droppedType_dangles`).  The invariant of the other runs is
`Owned`.
-/

namespace Glomop.Ptm

open Lib Prog Relation List Heap Option LaunchRecord

/-- Every pointer to a launch record that a registered distiller or a pending launch holds is good,
and no launch record was deleted twice. -/
structure Intact (s : State) : Prop where
  distiller : ∀ d ∈ s.distillerDB, ∃ r, s.distillers.cell d = some r ∧
    ∀ l, r.launchRecord = some l → s.launchRecords.Live l
  pending : ∀ p ∈ s.pendingList, ∃ pending, s.pendingLaunches.cell p = some pending ∧
    s.launchRecords.Live pending.launchRecord
  deletedOnce : s.launchRecords.freed.Nodup

/-- The types of the launch records that registered distillers are bound to. -/
def State.boundTypes (s : State) : List DistillerType :=
  ((s.distillerDB.filterMap s.distillers.cell).filterMap (·.launchRecord)).filterMap fun l =>
    (s.launchRecords.cell l).map (·.type)

/-- A reload has an entry for every type that a registered distiller is bound to. -/
def KeepsBoundTypes (s : State) (i : Input) : Prop :=
  match i.event with
  | .reload options _ => ∀ type ∈ s.boundTypes, type ∈ options.entries.map DistEntry.type
  | _ => True

instance (s : State) (i : Input) : Decidable (KeepsBoundTypes s i) :=
  match i with
  | ⟨.reload options _, _, _⟩ => inferInstanceAs
      (Decidable (∀ type ∈ s.boundTypes, type ∈ options.entries.map DistEntry.type))
  | ⟨.packet _ _ _, _, _⟩ | ⟨.readError _ _, _, _⟩ | ⟨.accept, _, _⟩ | ⟨.bus _ _, _, _⟩
  | ⟨.launchTimer _, _, _⟩ | ⟨.beaconTimer, _, _⟩ => inferInstanceAs (Decidable True)

variable {b : Bool} {entry : DistEntry} {l : ℕ} {options : List DistEntry} {s s' : State} {u : Unit}

lemma mem_boundTypes (hli : s.distillers.ListedIn s.distillerDB) {d : ℕ} {r : DistillerRecord}
    {record : LaunchRecord} (hr : s.distillers.cell d = some r) (hl : r.launchRecord = some l)
    (hre : s.launchRecords.cell l = some record) : record.type ∈ s.boundTypes := by
  refine mem_filterMap.mpr ⟨l, mem_filterMap.mpr ⟨r, ?_, hl⟩, by rw [hre]; rfl⟩
  exact mem_filterMap.mpr ⟨d, hli.mem_of_cell hr, hr⟩

/-! ## Ownership -/

def LaunchRecord.identity (record : LaunchRecord) : DistillerType × Bool :=
  (record.type, record.mustDie)

structure Catalog (records : Heap LaunchRecord) (db : List ℕ) : Prop where
  nodup : db.Nodup
  entry : ∀ l ∈ db, ∃ record, records.cell l = some record ∧ record.mustDie = false
  type_inj : ∀ l₁ ∈ db, ∀ l₂ ∈ db, ∀ record₁ record₂, records.cell l₁ = some record₁ →
    records.cell l₂ = some record₂ → record₁.type = record₂.type → l₁ = l₂
  freedOnce : records.FreedOnce

namespace Catalog

variable {records records' : Heap LaunchRecord} {db : List ℕ} {l : ℕ} {record : LaunchRecord}

section

variable (h : Catalog records db)

include h

lemma live (hl : l ∈ db) : records.Live l := by
  obtain ⟨record, hr, _⟩ := h.entry l hl
  exact live_of_cell hr

lemma not_mem_of_mustDie (hr : records.cell l = some record)
    (hd : record.mustDie = true) : l ∉ db := by
  intro hl
  obtain ⟨record', hr', hs⟩ := h.entry l hl
  rw [hr] at hr'
  rw [some.inj hr', hs] at hd
  cases hd

lemma agree (hag : Heap.Agree identity records records') : Catalog records' db := by
  constructor
  · exact h.nodup
  · intro l hl
    obtain ⟨record, hr, hs⟩ := h.entry l hl
    obtain ⟨record', hr', hid⟩ := hag.symm.cell hr
    exact ⟨record', hr', (Prod.mk.inj hid).2.symm.trans hs⟩
  · intro l1 h1 l2 h2 record₁ record₂ hr1 hr2 ht
    obtain ⟨_, ho1, hi1⟩ := hag.cell hr1
    obtain ⟨_, ho2, hi⟩ := hag.cell hr2
    refine h.type_inj l1 h1 l2 h2 _ _ ho1 ho2 ?_
    exact (Prod.mk.inj hi1).1.symm.trans (ht.trans (Prod.mk.inj hi).1)
  · exact hag.freedOnce h.freedOnce

lemma of_cell_eq (hc : ∀ l ∈ db, records'.cell l = records.cell l)
    (hf : records'.FreedOnce) : Catalog records' db := by
  constructor
  · exact h.nodup
  · intro l hl
    rw [hc l hl]
    exact h.entry l hl
  · intro l1 h1 l2 h2 record₁ record₂ hr1 hr2 ht
    rw [hc l1 h1] at hr1
    rw [hc l2 h2] at hr2
    exact h.type_inj l1 h1 l2 h2 record₁ record₂ hr1 hr2 ht
  · exact hf

lemma ne_next (hl : l ∈ db) : l ≠ records.next := (lt_next_of_live (h.live hl)).ne

lemma discard : Catalog ((records.alloc record).free records.next) db := by
  refine h.of_cell_eq (fun l hl => ?_) (h.freedOnce.alloc.free ?_)
  · rw [free_cell_of_ne (h.ne_next hl), alloc_cell_of_ne (h.ne_next hl)]
  · exact live_of_cell alloc_cell_next

lemma enter (hs : record.mustDie = false)
    (ht : ∀ l ∈ db, ∀ record', records.cell l = some record' → record'.type ≠ record.type) :
    Catalog (records.alloc record) (records.next :: db) := by
  have hold : ∀ l ∈ db, (records.alloc record).cell l = records.cell l := fun l hl =>
    alloc_cell_of_ne (h.ne_next hl)
  constructor
  · exact nodup_cons.mpr ⟨fun hl => h.ne_next hl rfl, h.nodup⟩
  · intro l hl
    rcases mem_cons.mp hl with rfl | hl
    · exact ⟨record, alloc_cell_next, hs⟩
    · rw [hold l hl]
      exact h.entry l hl
  · intro l1 h1 l2 h2 record₁ record₂ hr1 hr2 heq
    rcases mem_cons.mp h1 with rfl | h1 <;> rcases mem_cons.mp h2 with rfl | h2
    · rfl
    · rw [alloc_cell_next, some.injEq] at hr1
      rw [hold l2 h2] at hr2
      exact absurd (heq.symm.trans (congrArg _ hr1.symm)) (ht l2 h2 record₂ hr2)
    · rw [alloc_cell_next, some.injEq] at hr2
      rw [hold l1 h1] at hr1
      exact absurd (heq.trans (congrArg _ hr2.symm)) (ht l1 h1 record₁ hr1)
    · rw [hold l1 h1] at hr1
      rw [hold l2 h2] at hr2
      exact h.type_inj l1 h1 l2 h2 record₁ record₂ hr1 hr2 heq
  · exact h.freedOnce.alloc

lemma erase (l : ℕ) : Catalog records (db.erase l) where
  nodup := h.nodup.erase l
  entry l' hl' := h.entry l' (mem_of_mem_erase hl')
  type_inj l1 h1 l2 h2 := h.type_inj l1 (mem_of_mem_erase h1) l2 (mem_of_mem_erase h2)
  freedOnce := h.freedOnce

lemma delete (hl : l ∉ db) (hli : records.Live l) : Catalog (records.free l) db := by
  refine h.of_cell_eq (fun l' hl' => free_cell_of_ne ?_) (h.freedOnce.free hli)
  rintro rfl
  exact hl hl'

end

end Catalog

/-- Who may hold a pointer to a launch record: a pending launch, which has its record to itself, and
a distiller, whose record is in the database. -/
structure Owned (records : Heap LaunchRecord) (db : List ℕ) (pendings : Heap PendingLaunch)
    (distillers : Heap DistillerRecord) : Prop where
  catalog : Catalog records db
  pending_live : pendings.All fun pending => records.Live pending.launchRecord
  pending_inj : ∀ p₁ p₂ pending₁ pending₂, pendings.cell p₁ = some pending₁ →
    pendings.cell p₂ = some pending₂ → pending₁.launchRecord = pending₂.launchRecord → p₁ = p₂
  bound : distillers.All fun r => ∀ l, r.launchRecord = some l → l ∈ db

namespace Owned

variable {records records' : Heap LaunchRecord} {db : List ℕ} {pendings : Heap PendingLaunch}
  {distillers : Heap DistillerRecord} {l p d : ℕ} {record : LaunchRecord}
  {pending pending' : PendingLaunch} {r r' : DistillerRecord}

lemma agree (h : Owned records db pendings distillers)
    (hag : Heap.Agree identity records records') :
    Owned records' db pendings distillers :=
  ⟨h.catalog.agree hag, fun p pending hp => hag.live_iff.mpr (h.pending_live p pending hp),
    h.pending_inj, h.bound⟩

/-! Pending launches. -/

section

variable (h : Owned records db pendings distillers)

include h

lemma newPending (hl : l ∈ db) (hn : pendings.All fun pending => pending.launchRecord ≠ l)
    (hp : pending.launchRecord = l) : Owned records db (pendings.alloc pending) distillers := by
  refine ⟨h.catalog, h.pending_live.alloc ?_, ?_, h.bound⟩
  · rw [hp]
    exact h.catalog.live hl
  · intro p1 p2 pending₁ pending₂ h1 h2 heq
    rcases alloc_cell_cases h1 with ⟨rfl, rfl⟩ | ho1 <;>
      rcases alloc_cell_cases h2 with ⟨rfl, rfl⟩ | ho2
    · rfl
    · exact absurd (heq.symm.trans hp) (hn p2 pending₂ ho2)
    · exact absurd (heq.trans hp) (hn p1 pending₁ ho1)
    · exact h.pending_inj p1 p2 pending₁ pending₂ ho1 ho2 heq

lemma setPending (hp : pendings.cell p = some pending)
    (hs : pending'.launchRecord = pending.launchRecord) :
    Owned records db (pendings.set p pending') distillers := by
  have hold : ∀ q pending'', (pendings.set p pending').cell q = some pending'' →
      ∃ pending, pendings.cell q = some pending ∧
        pending''.launchRecord = pending.launchRecord := by
    intro q pending'' hq
    rcases set_cell_cases hq with ⟨rfl, rfl, _⟩ | ⟨_, hq⟩
    · exact ⟨pending, hp, hs⟩
    · exact ⟨pending'', hq, rfl⟩
  refine ⟨h.catalog, ?_, ?_, h.bound⟩
  · refine h.pending_live.set ?_
    rw [hs]
    exact h.pending_live p pending hp
  · intro p1 p2 pending₁ pending₂ h1 h2 heq
    obtain ⟨old1, ho1, he1⟩ := hold p1 pending₁ h1
    obtain ⟨old2, ho2, he⟩ := hold p2 pending₂ h2
    exact h.pending_inj p1 p2 old1 old2 ho1 ho2 (he1.symm.trans (heq.trans he))

lemma conclude (hp : pendings.cell p = some pending)
    (hr : records.cell pending.launchRecord = some record) :
    Owned (if record.mustDie then records.free pending.launchRecord else records) db
      (pendings.free p) distillers := by
  have hi : ∀ p1 p2 pending₁ pending₂, (pendings.free p).cell p1 = some pending₁ →
      (pendings.free p).cell p2 = some pending₂ →
      pending₁.launchRecord = pending₂.launchRecord → p1 = p2 := by
    intro p1 p2 pending₁ pending₂ h1 h2
    exact h.pending_inj p1 p2 pending₁ pending₂ (free_cell_cases h1).2 (free_cell_cases h2).2
  split_ifs with hd
  · refine ⟨h.catalog.delete ?_ (live_of_cell hr), ?_, hi, h.bound⟩
    · exact h.catalog.not_mem_of_mustDie hr hd
    · intro q pending' hq
      obtain ⟨hne, hq⟩ := free_cell_cases hq
      refine free_live_iff.mpr ⟨fun heq => ?_, h.pending_live q pending' hq⟩
      exact hne (h.pending_inj q p pending' pending hq hp heq)
  · exact ⟨h.catalog, h.pending_live.free, hi, h.bound⟩

end

/-! Distillers. -/

section

variable (h : Owned records db pendings distillers)

include h

lemma newDistiller (hr : ∀ l, r.launchRecord = some l → l ∈ db) :
    Owned records db pendings (distillers.alloc r) :=
  ⟨h.catalog, h.pending_live, h.pending_inj, h.bound.alloc hr⟩

lemma setDistiller (hr : distillers.cell d = some r) (hs : r'.launchRecord = r.launchRecord) :
    Owned records db pendings (distillers.set d r') := by
  refine ⟨h.catalog, h.pending_live, h.pending_inj, h.bound.set ?_⟩
  rw [hs]
  exact h.bound d r hr

lemma deleteDistiller : Owned records db pendings (distillers.free d) :=
  ⟨h.catalog, h.pending_live, h.pending_inj, h.bound.free⟩

end

/-! The options file. -/

section

variable (h : Owned records db pendings distillers)

include h

lemma discard : Owned ((records.alloc record).free records.next) db pendings distillers := by
  refine ⟨h.catalog.discard, fun p pending hp => ?_, h.pending_inj, h.bound⟩
  have hl := h.pending_live p pending hp
  exact free_live_iff.mpr ⟨(lt_next_of_live hl).ne, alloc_live_iff.mpr (.inr hl)⟩

lemma enter (hs : record.mustDie = false)
    (ht : ∀ l ∈ db, ∀ record', records.cell l = some record' → record'.type ≠ record.type) :
    Owned (records.alloc record) (records.next :: db) pendings distillers := by
  refine ⟨h.catalog.enter hs ht, fun p pending hp => ?_, h.pending_inj, fun d r hr l hl => ?_⟩
  · exact alloc_live_iff.mpr (.inr (h.pending_live p pending hp))
  · exact .tail _ (h.bound d r hr l hl)

lemma erase (hu : distillers.All fun r => r.launchRecord ≠ some l) :
    Owned records (db.erase l) pendings distillers := by
  refine ⟨h.catalog.erase l, h.pending_live, h.pending_inj, fun d r hr l' hl' => ?_⟩
  refine (mem_erase_of_ne ?_).mpr (h.bound d r hr l' hl')
  rintro rfl
  exact hu d r hr hl'

lemma condemn (hl : l ∉ db) : Owned (records.set l record) db pendings distillers := by
  refine ⟨h.catalog.of_cell_eq (fun l' hl' => set_cell_of_ne ?_) h.catalog.freedOnce.set,
    fun p pending hp => ?_, h.pending_inj, h.bound⟩
  · rintro rfl
    exact hl hl'
  · exact set_live.mpr (h.pending_live p pending hp)

lemma delete (hl : l ∉ db) (hli : records.Live l)
    (hn : pendings.All fun pending => pending.launchRecord ≠ l) :
    Owned (records.free l) db pendings distillers := by
  refine ⟨h.catalog.delete hl hli, fun p pending hp => ?_, h.pending_inj, h.bound⟩
  exact free_live_iff.mpr ⟨hn p pending hp, h.pending_live p pending hp⟩

end

end Owned

abbrev State.Owns (s : State) : Prop :=
  Owned s.launchRecords s.launchDB s.pendingLaunches s.distillers

/-! ## Launching and waking -/

lemma forall_pending_ne {pendings : Heap PendingLaunch} {list : List ℕ}
    (hl : pendings.ListedIn list)
    (h : ∀ p ∈ list, ∀ pending, pendings.cell p = some pending → pending.launchRecord ≠ l) :
    pendings.All fun pending => pending.launchRecord ≠ l :=
  fun p pending hp => h p (hl.mem_of_cell hp) pending hp

def State.Listed (s : State) : Prop := s.pendingLaunches.ListedIn s.pendingList ∧ s.Owns

lemma Launching.owns (h : Launching s s') (hs : s.Listed) : s'.Listed := by
  obtain ⟨hli, hs⟩ := hs
  cases h with
  | env _ henv =>
    cases henv
    exact ⟨hli, hs⟩
  | touch l record hr => exact ⟨hli, hs.agree (.set hr rfl)⟩
  | newPending l hl _ hn =>
    exact ⟨hli.add, hs.newPending hl (forall_pending_ne hli hn) rfl⟩
  | unrequested _ he =>
    cases he with
    | held _ _ p pending _ hp => exact ⟨hli.assign, hs.setPending hp rfl⟩
    | dropped => exact ⟨hli, hs⟩
  | timeout p pending hp => exact ⟨hli.assign, hs.setPending hp rfl⟩
  | conclude p pending record status hp hr =>
    exact ⟨hli.remove p, hs.conclude hp hr⟩

lemma Launches.owns (h : Launches s s') (hs : s.Listed) : s'.Listed := by
  induction h with
  | refl => exact hs
  | tail _ hst ih => exact hst.owns ih

lemma Requested.owns {a : Asker} (h : Requested (some a) s s') (hs : s.Listed) : s'.Listed := by
  obtain ⟨s1, s2, hb, he, ha⟩ := h
  obtain ⟨hl1, hs1⟩ := Launches.owns hb hs
  refine Launches.owns ha ?_
  cases he with
  | answered => exact ⟨hl1, hs1⟩
  | held _ _ p pending _ hp => exact ⟨hl1.assign, hs1.setPending hp rfl⟩

lemma agree_adjusted (records : Heap LaunchRecord) (r : DistillerRecord)
    (change : LaunchRecord → LaunchRecord)
    (hc : ∀ record, (change record).identity = record.identity) :
    Heap.Agree identity records (adjusted records r change) := by
  unfold adjusted
  split
  · exact .refl _
  · split
    · exact .refl _
    · rename_i hr
      split_ifs
      · exact .set hr (hc _)
      · exact .refl _

lemma agree_reported (records : Heap LaunchRecord) (r : DistillerRecord) (newLoad : Load) :
    Heap.Agree identity records (reported records r newLoad) := by
  unfold reported
  split
  · exact .refl _
  · split
    · exact .refl _
    · rename_i hr
      split_ifs
      · exact .refl _
      · exact .set hr rfl

lemma Waking.owns (h : Waking s s') (hs : s.Listed) : s'.Listed := by
  obtain ⟨hl, hs⟩ := hs
  cases h with
  | launching _ hst => exact hst.owns ⟨hl, hs⟩
  | deregister => exact ⟨hl, hs⟩
  | wake d r hr _ =>
    have hse : Owned s.launchRecords s.launchDB s.pendingLaunches (s.distillers.set d r.awaken) :=
      hs.setDistiller hr rfl
    exact ⟨hl, hse.agree (agree_adjusted _ r.awaken countIn fun _ => rfl)⟩
  | lose c d r _ _ _ =>
    refine ⟨hl, hs.deleteDistiller.agree ?_⟩
    exact agree_adjusted _ r (countOut r.load) fun _ => rfl
  | stray => exact ⟨hl, hs⟩

lemma Woken.owns (h : Woken s s') (hs : s.Listed) : s'.Listed := h.invariant Waking.owns hs

/-! ## Reading the options file

A record that has an entry in the new file is unmarked when the walk over the entries is done, and
so it is not swept. -/

/-- The records of the database whose type is among `types` are not marked. -/
def Unmarked (types : List DistillerType) (s : State) : Prop :=
  ∀ l ∈ s.launchDB, ∀ record, s.launchRecords.cell l = some record → record.type ∈ types →
    record.marked = false

def Stays (s s' : State) : Prop :=
  ∀ l ∈ s.launchDB, l ∈ s'.launchDB ∧ ∀ record, s.launchRecords.cell l = some record →
    ∃ record', s'.launchRecords.cell l = some record' ∧ record'.type = record.type

lemma Stays.refl (s : State) : Stays s s := fun _ hl => ⟨hl, fun record h => ⟨record, h, rfl⟩⟩

lemma Stays.trans {s1 : State} (h1 : Stays s s1) (h2 : Stays s1 s') : Stays s s' := by
  intro l hl
  obtain ⟨hl1, hr1⟩ := h1 l hl
  obtain ⟨hl2, hr2⟩ := h2 l hl1
  refine ⟨hl2, fun record hr => ?_⟩
  obtain ⟨record₁, hc1, ht1⟩ := hr1 record hr
  obtain ⟨record₂, hc2, ht2⟩ := hr2 record₁ hc1
  exact ⟨record₂, hc2, ht2.trans ht1⟩

lemma stays_of_agree (hdb : s'.launchDB = s.launchDB)
    (hag : Heap.Agree identity s.launchRecords s'.launchRecords) : Stays s s' := by
  intro l hl
  refine ⟨hdb ▸ hl, fun record hr => ?_⟩
  obtain ⟨record', hr', hid⟩ := hag.symm.cell hr
  exact ⟨record', hr', (Prod.mk.inj hid).1.symm⟩

lemma setMark_spec {marked : Bool} (h : setMark l marked s = some (u, s')) :
    ∃ record, s.launchRecords.cell l = some record ∧
      s' = s.setLaunch l { record with marked := marked } := by
  simp only [setMark, derefLaunch, run_iff] at h
  obtain ⟨record, hr, rfl⟩ := h
  exact ⟨record, hr, rfl⟩

lemma agree_mark {records : List ℕ} (h : mark records s = some (u, s')) :
    s'.launchDB = s.launchDB ∧ Heap.Agree identity s.launchRecords s'.launchRecords := by
  induction records generalizing s with
  | nil =>
    cases h
    exact ⟨rfl, .refl _⟩
  | cons l records ih =>
    simp only [mark, bind_eq_some] at h
    obtain ⟨_, s1, hm, h⟩ := h
    obtain ⟨record, hr, rfl⟩ := setMark_spec hm
    obtain ⟨hdb, hag⟩ := ih h
    have hs : Heap.Agree identity s.launchRecords
        (s.launchRecords.set l { record with marked := true }) := .set hr rfl
    exact ⟨hdb, hs.trans hag⟩

lemma createRecord_spec {o : Option ℕ} (h : createRecord entry s = some (o, s')) :
    (o = none ∧ ∃ record, s'.launchDB = s.launchDB ∧
      s'.launchRecords = (s.launchRecords.alloc record).free s.launchRecords.next) ∨
    (o = some s.launchRecords.next ∧ ∃ record : LaunchRecord,
      (record.type = entry.type ∧ record.mustDie = false ∧ record.marked = false) ∧
      s' = s.newLaunch record) := by
  simp only [createRecord, run_iff] at h
  cases hp : parse entry.value with
  | none =>
    simp only [hp, setStatus, run_iff] at h
    obtain ⟨rfl, rfl⟩ := h
    exact .inl ⟨rfl, _, rfl, rfl⟩
  | some parameters =>
    simp only [hp, ite_eq_some, run_iff] at h
    rcases h with ⟨_, rfl, rfl⟩ | ⟨_, rfl, rfl⟩
    · exact .inl ⟨rfl, _, rfl, rfl⟩
    · exact .inr ⟨rfl, _, ⟨rfl, rfl, rfl⟩, rfl⟩

lemma updateRecord_spec {value : Bytes} {record : LaunchRecord}
    (hr : s.launchRecords.cell l = some record) (h : updateRecord l value s = some (b, s')) :
    s'.launchDB = s.launchDB ∧ ∃ record' : LaunchRecord,
      (record'.identity = record.identity ∧ record'.marked = record.marked) ∧
      (s'.launchRecords = s.launchRecords.set l record' ∨
        s'.launchRecords = s.launchRecords ∧ record' = record) := by
  simp only [updateRecord, derefLaunch, run_iff] at h
  obtain ⟨_, hc, h⟩ := h
  rw [hr] at hc
  cases hc
  cases hp : parse value with
  | none =>
    simp only [hp, setStatus, run_iff] at h
    obtain ⟨_, rfl⟩ := h
    exact ⟨rfl, record, ⟨rfl, rfl⟩, .inr ⟨rfl, rfl⟩⟩
  | some parameters =>
    simp only [hp, run_iff] at h
    obtain ⟨_, rfl⟩ := h
    refine ⟨rfl, { record with autoLaunchLimit := parameters.1, loadHistorySize := parameters.2 },
      ⟨rfl, rfl⟩, .inl rfl⟩

/-- What an entry does: it has a record already, which stays and is unmarked; it is faulty; or a
record for it enters the database. -/
lemma updateEntry_spec (h : updateEntry entry s = some (b, s')) :
    (∃ l ∈ s.launchDB, ∃ record, s.launchRecords.cell l = some record ∧
      record.type = entry.type ∧ s'.launchDB = s.launchDB ∧
      Heap.Agree identity s.launchRecords s'.launchRecords ∧
      (∀ l', l' ≠ l → s'.launchRecords.cell l' = s.launchRecords.cell l') ∧
      ∃ record', s'.launchRecords.cell l = some record' ∧ record'.marked = false) ∨
    (b = false ∧ ∃ record, s'.launchDB = s.launchDB ∧
      s'.launchRecords = (s.launchRecords.alloc record).free s.launchRecords.next) ∨
    (∃ record : LaunchRecord,
      (∀ l ∈ s.launchDB, ∀ record', s.launchRecords.cell l = some record' →
        record'.type ≠ record.type) ∧
      (record.type = entry.type ∧ record.mustDie = false ∧ record.marked = false) ∧
      s'.launchDB = s.launchRecords.next :: s.launchDB ∧
      s'.launchRecords = s.launchRecords.alloc record) := by
  simp only [updateEntry, getLaunchRecord, run_iff] at h
  obtain ⟨found, hf, h⟩ := h
  cases found with
  | some l =>
    obtain ⟨hl, record, hr, ht⟩ := findFirst_eq_some hf
    simp only [bind_eq_some] at h
    obtain ⟨_, s1, hm, hup⟩ := h
    obtain ⟨_, hc, rfl⟩ := setMark_spec hm
    rw [hr] at hc
    cases hc
    have hu := set_cell_self (a := { record with marked := false }) hr
    obtain ⟨hdb, record', ⟨hid, hma⟩, hse⟩ := updateRecord_spec hu hup
    have hag : Heap.Agree identity s.launchRecords
        (s.launchRecords.set l { record with marked := false }) := .set hr rfl
    refine .inl ⟨l, hl, record, hr, by simpa using ht, hdb, ?_⟩
    rcases hse with hse | ⟨hse, rfl⟩
    · rw [hse]
      refine ⟨hag.trans (.set hu hid), fun l' hne => ?_, record', set_cell_self hu, hma⟩
      exact (set_cell_of_ne hne).trans (set_cell_of_ne hne)
    · rw [hse]
      exact ⟨hag, fun l' hne => set_cell_of_ne hne, _, hu, rfl⟩
  | none =>
    simp only [bind_eq_some] at h
    obtain ⟨o, s1, hcr, h⟩ := h
    rcases createRecord_spec hcr with ⟨rfl, record, hdb, hre⟩ | ⟨rfl, record, hn, rfl⟩
    · cases h
      exact .inr (.inl ⟨rfl, record, hdb, hre⟩)
    · simp only [run_iff] at h
      obtain ⟨_, _, hm, _, rfl⟩ := h
      obtain ⟨_, hc, rfl⟩ := setMark_spec hm
      have heq := some.inj (alloc_cell_next.symm.trans hc)
      subst heq
      refine .inr (.inr ⟨record, fun l hl record' hr' => ?_, hn, rfl, ?_⟩)
      · rw [hn.1]
        simpa using findFirst_eq_none hf hl hr'
      · -- the new record is unmarked as it is
        have hs : { record with marked := false } = record := by
          rw [← hn.2.2]
        rw [hs]
        exact set_eq_self alloc_cell_next

lemma Reloads.frame (h : Reloads s s') :
    s'.pendingLaunches = s.pendingLaunches ∧ s'.pendingList = s.pendingList ∧
      s'.distillers = s.distillers := by
  obtain ⟨_, _, _, rfl⟩ := h.eq
  exact ⟨rfl, rfl, rfl⟩

lemma owns_updateEntry (h : updateEntry entry s = some (b, s')) (hs : s.Owns) :
    s'.Owns ∧ Stays s s' := by
  obtain ⟨hp, _, hd⟩ := Reloads.frame (reloads_updateEntry entry h)
  rw [State.Owns, hp, hd]
  rcases updateEntry_spec h with ⟨l, _, record, _, _, hdb, hag, _, _⟩ |
    ⟨_, record, hdb, hr⟩ | ⟨record, ht, ⟨_, hst, _⟩, hdb, hr⟩
  · exact ⟨hdb ▸ hs.agree hag, stays_of_agree hdb hag⟩
  · rw [hdb, hr]
    refine ⟨hs.discard, fun l hl => ⟨hdb ▸ hl, fun record' hr' => ⟨record', ?_, rfl⟩⟩⟩
    have hne := hs.catalog.ne_next hl
    rw [hr, free_cell_of_ne hne, alloc_cell_of_ne hne, hr']
  · rw [hdb, hr]
    refine ⟨hs.enter hst ht, fun l hl => ⟨?_, fun record' hr' => ⟨record', ?_, rfl⟩⟩⟩
    · rw [hdb]
      exact .tail _ hl
    · rw [hr]
      exact alloc_cell_of_cell hr'

lemma unmarked_updateEntry {types : List DistillerType}
    (h : updateEntry entry s = some (true, s')) (hs : s.Owns) (hu : Unmarked types s) :
    Unmarked (entry.type :: types) s' := by
  intro l' hl' record' hr' ht
  rcases updateEntry_spec h with
    ⟨l, hl, record, hre, hty, hdb, hag, ho, unmarked, hc, hf⟩ |
    ⟨hb, _⟩ | ⟨record, hn, ⟨hty, _, hf⟩, hdb, hr⟩
  · by_cases heq : l' = l
    · rw [heq, hc] at hr'
      rw [← some.inj hr']
      exact hf
    · rw [hdb] at hl'
      rw [ho l' heq] at hr'
      rcases mem_cons.mp ht with ht' | ht
      · exact (heq (hs.catalog.type_inj l' hl' l hl record' record hr' hre
          (ht'.trans hty.symm))).elim
      · exact hu l' hl' record' hr' ht
  · cases hb
  · rw [hdb] at hl'
    rw [hr] at hr'
    rcases mem_cons.mp hl' with rfl | hl'
    · rw [alloc_cell_next] at hr'
      rw [← some.inj hr']
      exact hf
    · rw [alloc_cell_of_ne (hs.catalog.ne_next hl')] at hr'
      rcases mem_cons.mp ht with ht' | ht
      · exact (hn l' hl' record' hr' (ht'.trans hty.symm)).elim
      · exact hu l' hl' record' hr' ht

lemma unmarked_nil : Unmarked [] s := nofun

lemma owns_updateEntries {types : List DistillerType} (h : updateEntries options s = some (b, s'))
    (hs : s.Owns) (hu : Unmarked types s) :
    s'.Owns ∧ Stays s s' ∧
      (b = true → Unmarked ((options.map DistEntry.type).reverse ++ types) s') := by
  induction options generalizing s types with
  | nil =>
    cases h
    exact ⟨hs, .refl _, fun _ => hu⟩
  | cons entry options ih =>
    simp only [updateEntries, bind_eq_some, ite_eq_some, pure_eq_some] at h
    obtain ⟨b1, s1, he, h⟩ := h
    obtain ⟨hs1, hst⟩ := owns_updateEntry he hs
    rcases h with ⟨rfl, h⟩ | ⟨hf, rfl, rfl⟩
    · obtain ⟨hs', hst', hu'⟩ := ih h hs1 (unmarked_updateEntry he hs hu)
      refine ⟨hs', hst.trans hst', fun hb => ?_⟩
      rw [map_cons, reverse_cons, append_assoc]
      exact hu' hb
    · exact ⟨hs1, hst, (by rintro ⟨⟩)⟩

/-! ## Sweeping -/

lemma owns_die (h : die l s = some (u, s')) (hli : s.pendingLaunches.ListedIn s.pendingList)
    (hs : s.Owns) (hl : l ∉ s.launchDB) : s'.Owns := by
  simp only [die, derefLaunch, findPendingLaunch, run_iff] at h
  obtain ⟨record, hr, found, hf, h⟩ := h
  cases found with
  | some p =>
    obtain rfl := modify_eq_some.mp h
    exact hs.condemn hl
  | none =>
    obtain rfl := modify_eq_some.mp h
    refine hs.delete hl (live_of_cell hr) (forall_pending_ne hli ?_)
    intro p hp pending hpe
    simpa using findFirst_eq_none hf hp hpe

/-- **Sweeping deletes no record that someone points to**, if no distiller is bound to those that
are swept. -/
theorem owns_sweepAll {ls : List ℕ} (h : sweepAll ls s = some (u, s'))
    (hl : s.pendingLaunches.ListedIn s.pendingList) (hs : s.Owns)
    (hu : ∀ l ∈ ls, s.distillers.All fun r => r.launchRecord ≠ some l) : s'.Owns := by
  induction ls generalizing s with
  | nil =>
    cases h
    exact hs
  | cons l ls ih =>
    simp only [sweepAll, run_iff] at h
    obtain ⟨_, s2, hd, h⟩ := h
    have hs1 : (s.removeLaunch l).Owns := hs.erase (hu l (.head _))
    have hs2 := owns_die hd hl hs1 hs.catalog.nodup.not_mem_erase
    obtain ⟨_, _, _, rfl⟩ := Reloads.eq (reloads_die l hd)
    exact ih h hl hs2 fun l' hl' => hu l' (.tail _ hl')

/-- **A reload keeps the pointers good**, if the file has an entry for every type that a distiller
is bound to. -/
theorem owns_update (h : update options s = some (b, s'))
    (hli : s.pendingLaunches.ListedIn s.pendingList) (hs : s.Owns)
    (hk : s.distillers.All fun r => ∀ l, r.launchRecord = some l → ∀ record,
      s.launchRecords.cell l = some record → record.type ∈ options.map DistEntry.type) :
    s'.Owns := by
  simp only [update, ite_eq_some, run_iff] at h
  obtain ⟨_, s1, hm, b1, s2, he, h⟩ := h
  obtain ⟨hd, ha⟩ := agree_mark hm
  obtain ⟨hp1, hl1, hd1⟩ := Reloads.frame (reloads_mark _ hm)
  obtain ⟨hp2, hli2, hd2⟩ := Reloads.frame (reloads_updateEntries _ he)
  have hs1 : s1.Owns := by
    rw [State.Owns, hd, hp1, hd1]
    exact hs.agree ha
  obtain ⟨hs2, hst2, hu⟩ := owns_updateEntries he hs1 unmarked_nil
  rcases h with ⟨rfl, _, _, hsw, _, rfl⟩ | ⟨_, _, rfl⟩
  · simp only [sweep, run_iff] at hsw
    obtain ⟨ls, hse, hsw⟩ := hsw
    have hma := select_spec hse
    have hl2 : s2.pendingLaunches.ListedIn s2.pendingList := by
      rw [hp2, hp1, hli2, hl1]
      exact hli
    refine owns_sweepAll hsw hl2 hs2 fun l hl d r hr hb => ?_
    -- a distiller is bound to a record that is swept; but that has an entry, so it is unmarked
    rw [hd2, hd1] at hr
    have hmem := hs.bound d r hr l hb
    obtain ⟨record, hre, _⟩ := hs.catalog.entry l hmem
    have hst := (stays_of_agree hd ha).trans hst2
    obtain ⟨hm2, hsa⟩ := hst l hmem
    obtain ⟨record₂, hr2, hty⟩ := hsa record hre
    obtain ⟨record', hr', ht⟩ := hma l hl
    have hf : record₂.marked = false := by
      refine hu rfl l hm2 record₂ hr2 ?_
      rw [hty, append_nil, mem_reverse]
      exact hk d r hr l hb record hre
    rw [hr2] at hr'
    rw [← some.inj hr', hf] at ht
    cases ht
  · exact hs2

lemma Found.mem_launchDB {found : Option (ℕ × LaunchRecord)} (h : Found s found) (c : ℕ)
    (reg : Registration) (l : ℕ) (hl : (reg.record c found).launchRecord = some l) :
    l ∈ s.launchDB := by
  obtain ⟨⟨l', record⟩, hf, rfl⟩ := map_eq_some_iff.mp hl
  exact (h l' record hf).1

/-- **A round keeps the pointers good**, unless it is a reload that drops a type with distillers. -/
theorem Round.owns {e : Event} (h : Round s e s') (hs : s.Listed)
    (hok : ∀ options rexecUpdated, e = .reload options rexecUpdated →
      s.distillers.All fun r => ∀ l, r.launchRecord = some l → ∀ record,
        s.launchRecords.cell l = some record → record.type ∈ options.entries.map DistEntry.type) :
    s'.Listed := by
  obtain ⟨hl, hs⟩ := hs
  cases h with
  | quiet _ _ hw => exact hw.owns ⟨hl, hs⟩
  | accepted => exact ⟨hl, hs⟩
  | closed c s1 s2 _ henv hre =>
    cases henv
    cases within_removeBrokenConnection c hre
    exact ⟨hl, hs⟩
  | registered c p past reg stream found s1 s2 _ _ _ henv hf hla =>
    cases henv
    refine hla.owns ⟨hl, ?_⟩
    exact (hs.newDistiller (hf.mem_launchDB c reg)).agree (agree_adjusted _ _ countIn fun _ => rfl)
  | rejected c p past reg found s1 s2 s3 _ _ _ henv hf he2 hre he4 =>
    cases henv
    cases he2
    cases within_removeBrokenConnection c hre
    cases he4
    refine ⟨hl, Owned.agree ?_ (agree_adjusted _ _ (countOut _) fun _ => rfl)⟩
    exact ((hs.newDistiller (hf.mem_launchDB c reg)).agree
      (agree_adjusted _ _ countIn fun _ => rfl)).deleteDistiller
  | deregistered c p past d r _ _ =>
    exact ⟨hl, hs.deleteDistiller.agree (agree_adjusted _ r (countOut r.load) fun _ => rfl)⟩
  | reregistered c p past d r type stream s1 _ _ hr _ henv =>
    cases henv
    exact ⟨hl, hs.setDistiller hr rfl⟩
  | asked c p past s1 s2 _ _ _ henv hw hrq =>
    cases henv
    exact hrq.owns (hw.owns ⟨hl, hs⟩)
  | loaded c p past d r load s1 _ _ _ hr henv hw =>
    cases henv
    refine hw.owns ⟨hl, ?_⟩
    have hse : Owned s.launchRecords s.launchDB s.pendingLaunches
        (s.distillers.set d (r.report load)) := hs.setDistiller hr rfl
    exact hse.agree (agree_reported _ r (r.report load).load)
  | reloaded options rexecUpdated b s1 _ hu henv =>
    have hs1 := owns_update hu hl hs (hok options rexecUpdated rfl)
    obtain ⟨_, _, _, rfl⟩ := Reloads.eq (reloads_update _ hu)
    cases henv
    exact ⟨hl, hs1⟩

lemma owns_createRecords (h : create options s = some (b, s')) (hs : s.Owns)
    (hne : ∀ l ∈ s.launchDB, ∀ record, s.launchRecords.cell l = some record →
      record.type ∉ options.map DistEntry.type) (hn : (options.map DistEntry.type).Nodup) :
    s'.Owns := by
  induction options generalizing s with
  | nil =>
    cases h
    exact hs
  | cons entry options ih =>
    simp only [create, bind_eq_some] at h
    obtain ⟨o, s1, hc, h⟩ := h
    obtain ⟨hp, _, hd⟩ := Reloads.frame (reloads_createRecord entry hc)
    rw [map_cons, nodup_cons] at hn
    rcases createRecord_spec hc with ⟨rfl, record, hdb, hr⟩ |
      ⟨rfl, record, ⟨ht, hst, _⟩, rfl⟩
    · cases h
      rw [State.Owns, hdb, hr, hp, hd]
      exact hs.discard
    · simp only [run_iff] at h
      have ho : ∀ l ∈ s.launchDB, ∀ record', s.launchRecords.cell l = some record' →
          record'.type ≠ record.type := by
        intro l hl record' hr' heq
        refine hne l hl record' hr' ?_
        rw [heq, ht]
        exact .head _
      refine ih h (hs.enter hst ho) ?_ hn.2
      intro l hl record' hr' hmem
      rcases alloc_cell_cases hr' with ⟨_, rfl⟩ | hold
      · rw [ht] at hmem
        exact hn.1 hmem
      · rcases mem_cons.mp hl with rfl | hl
        · exact (lt_next_of_cell hold).false
        · exact hne l hl record' hold (.tail _ hmem)

lemma owns_of_initial (h : Initial s) : s.pendingLaunches.ListedIn s.pendingList ∧ s.Owns := by
  obtain ⟨myAddress, myRandomID, now, options, hc⟩ := h
  constructor
  · obtain ⟨hp, hl, _⟩ := Reloads.frame (reloads_create _ hc)
    rw [hp, hl]
    exact .empty
  · refine owns_createRecords hc ?_ nofun options.nodup
    exact ⟨⟨nodup_nil, nofun, nofun, .empty⟩, nofun, nofun, nofun⟩

lemma intact_of_owns (hdi : s.distillers.ListedIn s.distillerDB)
    (hli : s.pendingLaunches.ListedIn s.pendingList) (hs : s.Owns) : Intact s := by
  constructor
  · intro d hd
    obtain ⟨r, hr⟩ := live_iff.mp ((hdi.mem_iff d).mp hd)
    exact ⟨r, hr, fun l hl => hs.catalog.live (hs.bound d r hr l hl)⟩
  · intro p hp
    obtain ⟨pending, hpe⟩ := live_iff.mp ((hli.mem_iff p).mp hp)
    exact ⟨pending, hpe, hs.pending_live p pending hpe⟩
  · exact hs.catalog.freedOnce.nodup

section

variable {ipNumber : CString MAXIP → UInt32} {s s' : State} {inputs : List Input}

/-- **Pointers to launch records are good in every state of a run**, if no reload drops a type that
a registered distiller is bound to. -/
theorem intact_of_run (hs : Initial s)
    (h : Run (Guarded KeepsBoundTypes (step ipNumber)) s inputs s') : Intact s' := by
  obtain ⟨hd, hli, ho⟩ : s'.distillers.ListedIn s'.distillerDB ∧
      s'.Listed := by
    refine runs_invariant (fun s => owns_of_initial) ?_ hs h
    rintro s ⟨e, outcomes, now⟩ s' hre ho hok hro
    refine hro.owns ho ?_
    rintro options rexecUpdated rfl d r hr l hl record hrc
    exact hok record.type (mem_boundTypes hre hr hl hrc)
  exact intact_of_owns hd hli ho

end

/-- A distiller registers, and the options file is read again. -/
def registerAndReload (options : Options) : List Input :=
  [calm .accept, registerA 0 0 50, calm (.reload options true)]

theorem intact_of_run_sameOptions :
    ∃ s s', Initial s ∧ Run (Guarded KeepsBoundTypes (step fun _ => 0)) s
      (registerAndReload optionsA) s' ∧ s'.boundTypes = [typeA] ∧ Intact s' := by
  obtain ⟨s, s', hs, hrun, hb⟩ := exists_run_of_playFrom KeepsBoundTypes
    (registerAndReload optionsA) (fun s' => s'.boundTypes = [typeA]) (by decide +kernel)
  exact ⟨s, s', hs, hrun, hb, intact_of_run hs hrun⟩

/-- The file no longer has an entry: the distiller keeps a pointer to a deleted record. -/
theorem droppedType_dangles :
    ∃ s s', Initial s ∧ Run (step fun _ => 0) s (registerAndReload ⟨[], nodup_nil⟩) s' ∧
      ¬ Intact s' := by
  obtain ⟨s, s', hs, hrun, hdb, ⟨r, hr, hb⟩, hd⟩ := exists_run_of_playFrom (fun _ _ => True)
    (registerAndReload ⟨[], nodup_nil⟩) (fun s' => s'.distillerDB = [0] ∧
      (∃ r ∈ s'.distillers.cell 0, r.launchRecord = some 0) ∧ ¬ s'.launchRecords.Live 0)
    (by decide +kernel)
  refine ⟨s, s', hs, hrun.mono fun _ _ _ h => h.2, fun h => hd ?_⟩
  obtain ⟨r', hr', hl⟩ := h.distiller 0 (by simp [hdb])
  rw [hr] at hr'
  cases hr'
  exact hl 0 hb

end Glomop.Ptm
