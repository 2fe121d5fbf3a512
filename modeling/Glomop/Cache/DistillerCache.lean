import Glomop.Database.Distiller
import Glomop.Database.Index
import Glomop.Lib.CharSum
import Glomop.Lib.Keyed

/-!
# The front end's cache of distillers

`DistillerCache::Update` goes through announcements of distillers; for a complete update it first
marks every record as invalid and in the end sweeps out those that are still invalid and not
connected.  A distiller that has changed its type is renamed, and nothing marks a renamed record, so
that it is swept out at the end of the same update (`upToDate_iff`).

`Glomop.Database.Index` shows that the indices and the list of a `Database` hold the same records,
so here the list stands for all three; a key whose hash is `2 ^ 31` has no bucket (`none`).
Source: `cache.h`, `cache.cc`.
-/

namespace Glomop.Cache

open Lib List Option

/-- `distdb.h` `RemoteID::Hash`, `database.h` `HashString`. -/
def ridHash (rid : RemoteID) : UInt32 := rid.port.toUInt32 + charSum rid.ipAddress.chars

/-- What the cache knows of a distiller; its requests, its connection and its reference count are in
`Glomop.Cache.Distilling`.  `struct CachedDistiller`. -/
structure CachedRecord extends BasicDistiller where
  /-- `connection != NULL`. -/
  connected : Bool
  validFlag : Bool
  pendingCount : Int32
deriving DecidableEq

/-- A new record for a distiller.  `CachedDistiller::CachedDistiller`. -/
def CachedRecord.new (d : BasicDistiller) : CachedRecord := ⟨d, false, true, 0⟩

/-- The records, with distinct addresses that all have a bucket. -/
structure DistillerCache where
  records : Keyed fun r : CachedRecord => r.rid
  hashable : ∀ r ∈ records.entries, ridHash r.rid ≠ badHash

variable {new : BasicDistiller} {r : CachedRecord} {records : List BasicDistiller} {rid : RemoteID}

namespace DistillerCache

variable (cache : DistillerCache)

def lookup (rid : RemoteID) : Option CachedRecord := cache.records.lookup rid

/-- `DistillerCache::Find_(RemoteID*)`. -/
def find (rid : RemoteID) : Option (Option CachedRecord) :=
  if ridHash rid = badHash then none else some (cache.lookup rid)

def change (f : CachedRecord → CachedRecord) (hf : ∀ r, (f r).rid = r.rid) : DistillerCache where
  records := cache.records.map f hf
  hashable := by
    intro r hr
    obtain ⟨r, hmem, rfl⟩ := mem_map.mp hr
    rw [hf]
    exact cache.hashable r hmem

def keep (p : CachedRecord → Bool) : DistillerCache where
  records := cache.records.filter p
  hashable r hr := cache.hashable r (mem_filter.mp hr).1

def markAsValid (flag : Bool) : DistillerCache :=
  cache.change (fun r => { r with validFlag := flag }) fun _ => rfl

/-- `DistillerCache::Sweep_`, `DistillerCache::SweepFunction_`. -/
def sweep : DistillerCache := cache.keep fun r => r.validFlag || r.connected

def remove (rid : RemoteID) : DistillerCache := cache.keep fun r => decide (r.rid ≠ rid)

/-- A second record with the same address is refused.  `DistillerCache::Add_`, `database.cc`
`Database::Add`. -/
def add (r : CachedRecord) : Option (Bool × DistillerCache) :=
  if hbad : ridHash r.rid = badHash then none
  else if hnew : cache.records.lookup r.rid = none then
    some (true, {
      records := cache.records.insert r hnew
      hashable := by
        intro r' hr'
        rcases mem_cons.mp hr' with rfl | hmem
        · exact hbad
        · exact cache.hashable r' hmem })
  else some (false, cache)

/-- Bring a record up to date with an announcement of the same type, and mark it.
`CachedDistiller::Update`, `CachedDistiller::MarkAsValid`. -/
def refresh (new : BasicDistiller) (r : CachedRecord) : CachedRecord :=
  { r with load := new.load, pendingCount := 0, validFlag := true }

/-- `DistillerCache::Update_`. -/
def updateRecord (newRecord : BasicDistiller) : Option (Bool × DistillerCache) :=
  (cache.find newRecord.rid).bind fun
    | some record =>
      if record.type = newRecord.type then
        some (true, cache.change
          (fun r => if r.rid = newRecord.rid then refresh newRecord r else r)
          fun r => by split_ifs <;> rfl)
      else
        -- the record keeps its connection, its mark and its pending count
        (cache.remove newRecord.rid).add { record with toBasicDistiller := newRecord }
    | none => cache.add (.new newRecord)

/-- The loop of `DistillerCache::Update`; it ends at the first record that is refused. -/
def updateRecords (cache : DistillerCache) : List BasicDistiller → Option (Bool × DistillerCache)
  | [] => some (true, cache)
  | record :: records =>
    (cache.updateRecord record).bind fun (updated, cache') =>
      if updated then cache'.updateRecords records else some (false, cache')

/-- An update.  `parsed`: the handler has found no error in what it has read. -/
def update (complete : Bool) (records : List BasicDistiller) (parsed : Bool) :
    Option (Bool × DistillerCache) :=
  ((if complete then cache.markAsValid false else cache).updateRecords records).map
    fun (updated, cache') =>
      if complete then
        if parsed && updated then (true, cache'.sweep) else (false, cache'.markAsValid true)
      else (true, cache')

/-! ## What the operations do at an address -/

variable {cache}

@[simp] lemma lookup_change (f : CachedRecord → CachedRecord) (hf : ∀ r, (f r).rid = r.rid)
    (rid : RemoteID) : (cache.change f hf).lookup rid = (cache.lookup rid).map f :=
  cache.records.lookup_map f hf rid

@[simp] lemma lookup_keep (p : CachedRecord → Bool) (rid : RemoteID) :
    (cache.keep p).lookup rid = (cache.lookup rid).filter p :=
  cache.records.lookup_filter p rid

@[simp] lemma lookup_remove (rid rid' : RemoteID) :
    (cache.remove rid).lookup rid' = if rid' = rid then none else cache.lookup rid' :=
  cache.records.lookup_erase rid rid'

lemma rid_of_lookup (h : cache.lookup rid = some r) : r.rid = rid :=
  (Keyed.lookup_eq_some_iff (s := cache.records) (a := r)).mp h |>.2

lemma add_spec (hh : ridHash r.rid ≠ badHash) (hn : cache.lookup r.rid = none) :
    ∃ cache', cache.add r = some (true, cache') ∧
      ∀ rid, cache'.lookup rid = if r.rid = rid then some r else cache.lookup rid := by
  have hn' : cache.records.lookup r.rid = none := hn
  unfold add
  rw [dif_neg hh, dif_pos hn']
  exact ⟨_, rfl, cache.records.lookup_insert r hn⟩

def announce (old : Option CachedRecord) (new : BasicDistiller) : CachedRecord :=
  match old with
  | none => .new new
  | some r => if r.type = new.type then refresh new r else { r with toBasicDistiller := new }

/-- **One announcement** changes the record at its address and no other. -/
theorem updateRecord_spec (hh : ridHash new.rid ≠ badHash) :
    ∃ cache', cache.updateRecord new = some (true, cache') ∧
      ∀ rid, cache'.lookup rid =
        if new.rid = rid then some (announce (cache.lookup rid) new) else cache.lookup rid := by
  unfold updateRecord find
  rw [if_neg hh, bind_some]
  cases hold : cache.lookup new.rid with
  | none =>
    obtain ⟨cache', ha, hl⟩ := add_spec (r := .new new) hh hold
    refine ⟨cache', ha, fun rid => ?_⟩
    rw [hl]
    by_cases hr : new.rid = rid
    · subst hr
      rw [if_pos rfl, hold]
      exact if_pos rfl
    · exact (if_neg hr).trans (if_neg hr).symm
  | some r =>
    dsimp only
    by_cases ht : r.type = new.type
    · rw [if_pos ht]
      refine ⟨_, rfl, fun rid => ?_⟩
      rw [lookup_change]
      by_cases hr : new.rid = rid
      · subst hr
        simp [hold, announce, ht, rid_of_lookup hold]
      · rw [if_neg hr]
        cases ho : cache.lookup rid with
        | none => rfl
        | some r' =>
          have hne : r'.rid ≠ new.rid := (rid_of_lookup ho).trans_ne (Ne.symm hr)
          simp [hne]
    · rw [if_neg ht]
      obtain ⟨cache', ha, hl⟩ := (cache.remove new.rid).add_spec
        (r := { r with toBasicDistiller := new }) hh (by simp)
      refine ⟨cache', ha, fun rid => ?_⟩
      rw [hl]
      by_cases hr : new.rid = rid
      · subst hr
        simp [hold, announce, ht]
      · simp [hr, Ne.symm hr]

lemma updateRecord_eq_none (hh : ridHash new.rid = badHash) : cache.updateRecord new = none := by
  unfold updateRecord find
  rw [if_pos hh]
  rfl

/-! ## A whole list of announcements -/

def announcements (records : List BasicDistiller) (rid : RemoteID) : List BasicDistiller :=
  records.filter fun new => new.rid = rid

def announceAll (old : Option CachedRecord) (news : List BasicDistiller) : Option CachedRecord :=
  news.foldl (fun old new => some (announce old new)) old

/-- **The loop**: at every address, the announcements about it. -/
theorem updateRecords_spec (hh : ∀ new ∈ records, ridHash new.rid ≠ badHash) :
    ∃ cache', cache.updateRecords records = some (true, cache') ∧
      ∀ rid, cache'.lookup rid = announceAll (cache.lookup rid) (announcements records rid) := by
  induction records generalizing cache with
  | nil => exact ⟨cache, rfl, fun _ => rfl⟩
  | cons new records ih =>
    obtain ⟨hn, hr⟩ := forall_mem_cons.mp hh
    obtain ⟨cache₁, ho, hl1⟩ := cache.updateRecord_spec hn
    obtain ⟨cache', hre, hl⟩ := @ih cache₁ hr
    refine ⟨cache', ?_, fun rid => ?_⟩
    · rw [updateRecords, ho]
      exact hre
    · rw [hl, hl1]
      by_cases hri : new.rid = rid
      · have hc : announcements (new :: records) rid = new :: announcements records rid :=
          filter_cons_of_pos (decide_eq_true hri)
        rw [if_pos hri, hc]
        rfl
      · have hc : announcements (new :: records) rid = announcements records rid :=
          filter_cons_of_neg (by simpa using hri)
        rw [if_neg hri, hc]

lemma hashable_of_updateRecords {result : Bool × DistillerCache}
    (h : cache.updateRecords records = some result) :
    ∀ new ∈ records, ridHash new.rid ≠ badHash := by
  induction records generalizing cache with
  | nil => exact forall_mem_nil _
  | cons new records ih =>
    rw [updateRecords] at h
    by_cases hh : ridHash new.rid = badHash
    · rw [updateRecord_eq_none hh] at h
      cases h
    · obtain ⟨cache₁, ho, _⟩ := cache.updateRecord_spec hh
      rw [ho] at h
      exact forall_mem_cons.mpr ⟨hh, ih h⟩

/-! ## What is announced last, and what stays marked -/

/-- A distiller of type `type` is announced with some type twice in a row, or first of all with the
type it has. -/
def Repeats : DistillerType → List DistillerType → Prop
  | _, [] => False
  | type, type' :: types => type = type' ∨ Repeats type' types

lemma toBasicDistiller_announce {old : Option CachedRecord} (hold : ∀ r ∈ old, r.rid = new.rid) :
    (announce old new).toBasicDistiller = new := by
  cases old with
  | none => rfl
  | some r =>
    have hr := hold r rfl
    unfold announce
    dsimp only
    split_ifs with ht
    · obtain ⟨⟨rid, type, load⟩, _, _, _⟩ := r
      obtain ⟨rid', type', load'⟩ := new
      obtain rfl : rid = rid' := hr
      obtain rfl : type = type' := ht
      rfl
    · rfl

lemma announceAll_getLast {old : Option CachedRecord} (hold : ∀ r ∈ old, r.rid = rid)
    {news : List BasicDistiller} (hn : ∀ new ∈ news, new.rid = rid) {last : BasicDistiller}
    (hl : news.getLast? = some last) :
    ∃ r, announceAll old news = some r ∧ r.toBasicDistiller = last := by
  induction news generalizing old with
  | nil => simp at hl
  | cons new news ih =>
    obtain ⟨hne, hn⟩ := forall_mem_cons.mp hn
    have ho : (announce old new).toBasicDistiller = new :=
      toBasicDistiller_announce fun r hr => (hold r hr).trans hne.symm
    cases news with
    | nil =>
      obtain rfl : new = last := by simpa using hl
      exact ⟨announce old new, rfl, ho⟩
    | cons new' news =>
      have ho' : ∀ r ∈ some (announce old new), r.rid = rid := by
        intro r hr
        cases hr
        rw [ho, hne]
      exact ih ho' hn (by simpa using hl)

/-- **What announcements do to the mark** of a record that exists: only one that repeats the type
sets it. -/
theorem announceAll_some (r : CachedRecord) (news : List BasicDistiller) :
    ∃ r', announceAll (some r) news = some r' ∧ r'.connected = r.connected ∧
      (r'.validFlag = true ↔ r.validFlag = true ∨ Repeats r.type (news.map (·.type))) := by
  induction news generalizing r with
  | nil => exact ⟨r, rfl, rfl, by simp [Repeats]⟩
  | cons new news ih =>
    obtain ⟨r', hr', hc, hv⟩ := ih (announce (some r) new)
    refine ⟨r', hr', ?_, ?_⟩
    · rw [hc]
      unfold announce
      dsimp only
      split_ifs <;> rfl
    · rw [hv, map_cons, Repeats]
      by_cases ht : r.type = new.type
      · have ho : announce (some r) new = refresh new r := if_pos ht
        simp [ho, ht, refresh]
      · have ho : announce (some r) new = { r with toBasicDistiller := new } := if_neg ht
        simp [ho, ht]

lemma announceAll_none (new : BasicDistiller) (news : List BasicDistiller) :
    ∃ r', announceAll none (new :: news) = some r' ∧ r'.validFlag = true := by
  obtain ⟨r', hr', _, hv⟩ := announceAll_some (.new new) news
  exact ⟨r', hr', hv.mpr (.inl rfl)⟩

/-! ## Complete updates -/

/-- **What a complete update is for**: what was announced is in the cache as it was announced last,
and of what was not announced only the connected distillers are left. -/
structure UpToDate (cache cache' : DistillerCache) (records : List BasicDistiller) : Prop where
  announced : ∀ rid last, (announcements records rid).getLast? = some last →
    ∃ r, cache'.lookup rid = some r ∧ r.toBasicDistiller = last
  unannounced : ∀ r ∈ cache.records.entries, announcements records r.rid = [] →
    (cache'.lookup r.rid ≠ none ↔ r.connected = true)

/-- The front end is not connected to a distiller, and no announcement about it repeats the type it
has at that time. -/
def Renamed (records : List BasicDistiller) (r : CachedRecord) : Prop :=
  r.connected = false ∧ announcements records r.rid ≠ [] ∧
    ¬ Repeats r.type ((announcements records r.rid).map (·.type))

lemma update_spec (hh : ∀ new ∈ records, ridHash new.rid ≠ badHash) :
    ∃ cache', cache.update true records true = some (true, cache') ∧
      ∀ rid, cache'.lookup rid =
        (announceAll ((cache.lookup rid).map fun r => { r with validFlag := false })
          (announcements records rid)).filter fun r => r.validFlag || r.connected := by
  obtain ⟨cache₁, hrun, hl⟩ := (cache.markAsValid false).updateRecords_spec hh
  refine ⟨cache₁.sweep, ?_, fun rid => ?_⟩
  · rw [update, if_pos rfl, hrun]
    rfl
  · rw [sweep, lookup_keep, hl, markAsValid, lookup_change]

lemma lookup_of_mem (h : r ∈ cache.records.entries) : cache.lookup r.rid = some r :=
  Keyed.lookup_of_mem h

lemma kept_of_not_renamed (hrn : ∀ r ∈ cache.records.entries, ¬ Renamed records r)
    (hne : announcements records rid ≠ [])
    (hr : announceAll ((cache.lookup rid).map fun r => { r with validFlag := false })
      (announcements records rid) = some r) : (r.validFlag || r.connected) = true := by
  cases hc : cache.lookup rid with
  | none =>
    obtain ⟨new, news, hcn⟩ := exists_cons_of_ne_nil hne
    obtain ⟨r', hr', hv⟩ := announceAll_none new news
    rw [hc, map_none, hcn, hr'] at hr
    cases hr
    rw [hv, Bool.true_or]
  | some r0 =>
    obtain ⟨hmem, rfl⟩ := (Keyed.lookup_eq_some_iff (s := cache.records) (a := r0)).mp hc
    obtain ⟨r', hr', hco, hv⟩ := announceAll_some { r0 with validFlag := false }
      (announcements records r0.rid)
    rw [hc, map_some, hr'] at hr
    cases hr
    cases hc0 : r0.connected with
    | true => rw [hco, hc0, Bool.or_true]
    | false =>
      have hre : Repeats r0.type ((announcements records r0.rid).map (·.type)) := by
        by_contra hn
        exact hrn r0 hmem ⟨hc0, hne, hn⟩
      rw [hv.mpr (.inr hre), Bool.true_or]

lemma lookup_of_renamed (hr : r ∈ cache.records.entries) (hrn : Renamed records r) :
    (announceAll ((cache.lookup r.rid).map fun r => { r with validFlag := false })
      (announcements records r.rid)).filter (fun r => r.validFlag || r.connected) = none := by
  obtain ⟨hc, _, hre⟩ := hrn
  obtain ⟨r', hr', hc', hv⟩ := announceAll_some { r with validFlag := false }
    (announcements records r.rid)
  have hv' : r'.validFlag = false := by
    rw [Bool.eq_false_iff]
    intro hm
    exact hre ((hv.mp hm).resolve_left Bool.false_ne_true)
  rw [lookup_of_mem hr, map_some, hr', filter_some, hv', hc', hc]
  rfl

/-- **Which complete updates bring the cache up to date**: those that announce only addresses with a
bucket, and no new type for a distiller that the front end is not connected to, unless they repeat
it. -/
theorem upToDate_iff (cache : DistillerCache) (records : List BasicDistiller) :
    (∃ cache', cache.update true records true = some (true, cache') ∧
        UpToDate cache cache' records) ↔
      (∀ new ∈ records, ridHash new.rid ≠ badHash) ∧
        ∀ r ∈ cache.records.entries, ¬ Renamed records r := by
  constructor
  · rintro ⟨cache', hrun, hd⟩
    obtain ⟨_, hu, -⟩ := map_eq_some_iff.mp hrun
    have hh := hashable_of_updateRecords hu
    refine ⟨hh, fun r hr hre => ?_⟩
    obtain ⟨cache₁, hr1, hl⟩ := cache.update_spec hh
    obtain rfl : cache₁ = cache' := congrArg Prod.snd (some.inj (hr1.symm.trans hrun))
    obtain ⟨last, hla⟩ := ne_none_iff_exists'.mp (mt getLast?_eq_none_iff.mp hre.2.1)
    obtain ⟨found, hf, _⟩ := hd.announced r.rid last hla
    rw [hl, lookup_of_renamed hr hre] at hf
    cases hf
  · rintro ⟨hh, hre⟩
    obtain ⟨cache', hrun, hl⟩ := cache.update_spec hh
    refine ⟨cache', hrun, ?_, ?_⟩
    · intro rid last hla
      have hne : announcements records rid ≠ [] := by
        intro hni
        rw [hni] at hla
        cases hla
      have hn : ∀ new ∈ announcements records rid, new.rid = rid := fun new hnw =>
        of_decide_eq_true (mem_filter.mp hnw).2
      have hold : ∀ r ∈ (cache.lookup rid).map fun r => { r with validFlag := false },
          r.rid = rid := by
        intro r hr
        obtain ⟨r₀, hr0, rfl⟩ := map_eq_some_iff.mp hr
        have hri : r₀.rid = rid := rid_of_lookup hr0
        exact hri
      obtain ⟨r, hr, hb⟩ := announceAll_getLast hold hn hla
      refine ⟨r, ?_, hb⟩
      rw [hl, filter_eq_some_iff]
      exact ⟨hr, kept_of_not_renamed hre hne hr⟩
    · intro r hr hni
      rw [hl, hni, lookup_of_mem hr]
      cases hc : r.connected <;> simp [announceAll, hc]

end DistillerCache

/-! ## A renamed distiller -/

def idleDistiller (type : DistillerType) : CachedRecord :=
  ⟨⟨⟨CString.empty _, 5⟩, type, .zero⟩, false, true, 0⟩

def oneDistiller (type : DistillerType) : DistillerCache where
  records := ⟨[idleDistiller type], nodup_singleton _⟩
  hashable := by
    intro r hr
    obtain rfl := mem_singleton.mp hr
    have hrid : ridHash ⟨CString.empty _, 5⟩ ≠ badHash := by decide
    exact hrid

/-- A distiller that is announced under a new type is gone from the cache after the update. -/
theorem renamed_swept_out :
    ∃ cache', (oneDistiller ⟨[97], by decide, by decide⟩).update true
        [⟨⟨CString.empty _, 5⟩, ⟨[98], by decide, by decide⟩, .zero⟩] true = some (true, cache') ∧
      cache'.records.entries = [] :=
  ⟨_, rfl, by decide⟩

end Glomop.Cache
