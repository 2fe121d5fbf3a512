import Glomop.Lib.Buckets
import Glomop.Lib.CText
import Glomop.Lib.Run

/-!
# Indexed databases

A `Database` is a list of records and a list of hash indices over them.  `Database::Add` enters a
record in the list and then in one index after the other, and if one of them refuses it takes the
record out again.  A bucket outside the array (for the hash `2 ^ 31`) and the key of a record that
`DeleteAllRecords` has destroyed are faults (`none`).

`consistent_of_run`: whatever operations are carried out, the list and the indices hold the same
records, searches find what is stored, and an `Add` that is refused changes nothing.
Source: `database.h`, `database.cc`.
-/

namespace Glomop

open Lib List Option Int32 Buckets

/-! ## Keys -/

/-- Comparison and hashing of keys.  Equal keys have equal hashes. -/
structure IndexKey (K : Type) where
  equal : K → K → Bool
  hash : K → UInt32
  equivalence : Equivalence fun a b => equal a b = true
  hash_eq : ∀ a b, equal a b = true → hash a = hash b

/-- Words that are their own hashes.
`reqrep.h` `struct RequestReplyKey`. -/
def wordKey : IndexKey UInt32 where
  equal a b := a == b
  hash := id
  equivalence := by simpa using eq_equivalence
  hash_eq a b h := by simpa using h

abbrev badHash : UInt32 := 0x80000000

/-- An index. -/
structure Index (Rec K : Type) where
  key : IndexKey K
  getIndexKey : Rec → K
  duplicatesAllowed : Bool
  numberOfBuckets : ℕ
  buckets : Buckets numberOfBuckets Rec
  size_pos : 0 < numberOfBuckets
  size_lt : numberOfBuckets < 2 ^ 31

namespace Index

variable {Rec K : Type}

/-- A new index.  `Index::Index`. -/
def new (key : IndexKey K) (getIndexKey : Rec → K) (duplicatesAllowed : Bool)
    (numberOfBuckets : ℕ) (size_pos : 0 < numberOfBuckets)
    (size_lt : numberOfBuckets < 2 ^ 31) : Index Rec K :=
  ⟨key, getIndexKey, duplicatesAllowed, numberOfBuckets, fun _ => [], size_pos, size_lt⟩

lemma defaultSize_pos : 0 < 13 := by decide

lemma defaultSize_lt : 13 < 2 ^ 31 := by decide

def normalize (numberOfBuckets : ℕ) (hashValue : Int32) : Int32 :=
  (if hashValue < 0 then -hashValue else hashValue) % Int32.ofNat numberOfBuckets

/-- `buckets[Normalize(hash)]`, if it is inside the array. -/
def bucketAt (numberOfBuckets : ℕ) (hash : UInt32) : Option (Fin numberOfBuckets) :=
  let i := (normalize numberOfBuckets hash.toInt32).toInt
  if h : 0 ≤ i ∧ i < numberOfBuckets then some ⟨i.toNat, by omega⟩ else none

/-- The bucket of a key. -/
def getBucket (index : Index Rec K) (key : K) : Option (Fin index.numberOfBuckets) :=
  bucketAt index.numberOfBuckets (index.key.hash key)

def findOne (index : Index Rec K) (key : K) : Option (Option Rec) := do
  let i ← index.getBucket key
  return (index.buckets i).find? fun r => index.key.equal (index.getIndexKey r) key

/-- A unique index refuses a record whose key it has; the search is made only there. -/
def add (index : Index Rec K) (record : Rec) : Option (Bool × Index Rec K) := do
  let i ← index.getBucket (index.getIndexKey record)
  let found ← index.findOne (index.getIndexKey record)
  if index.duplicatesAllowed = false ∧ found.isSome then return (false, index)
  else return (true, { index with buckets := index.buckets.push i record })

/-- `Index::Remove(DatabaseRecord*)`, `linkedlist.h` `List::Remove(T*)`. -/
def remove [DecidableEq Rec] (index : Index Rec K) (record : Rec) : Option (Index Rec K) := do
  let i ← index.getBucket (index.getIndexKey record)
  return { index with buckets := index.buckets.pull i record }

def entries (index : Index Rec K) : List Rec := index.buckets.entries

end Index

/-! ## Databases -/

/-- A database. -/
structure Database (Rec K : Type) where
  indices : List (Index Rec K)
  records : List Rec
  /-- The records that `DeleteAllRecords` has destroyed. -/
  destroyed : List Rec

namespace Database

variable {Rec K : Type} [DecidableEq Rec]

/-- `Database::Database`. -/
def new : Database Rec K := ⟨[], [], []⟩

/-- The loop of `Database::Add` over the indices.  If an index refuses, the record is taken out of
the indices before it, the last one first.  `Database::Add`. -/
def addIndices (record : Rec) : List (Index Rec K) → Option (Bool × List (Index Rec K))
  | [] => some (true, [])
  | index :: rest => do
    let (added, index') ← index.add record
    if added then
      let (added, rest') ← addIndices record rest
      if added then return (true, index' :: rest')
      else return (false, (← index'.remove record) :: rest')
    else return (false, index :: rest)

def add (s : Database Rec K) (record : Rec) : Option (Bool × Database Rec K) := do
  let records := record :: s.records
  let (added, indices) ← addIndices record s.indices
  if added then return (true, { s with indices := indices, records := records })
  else return (false, { s with indices := indices, records := records.erase record })

/-- The loop of `Database::Remove` over the indices. -/
def removeIndices (record : Rec) : List (Index Rec K) → Option (List (Index Rec K))
  | [] => some []
  | index :: rest => do
    let index' ← index.remove record
    let rest' ← removeIndices record rest
    return index' :: rest'

def remove (s : Database Rec K) (record : Rec) : Option (Database Rec K) := do
  let indices ← removeIndices record s.indices
  return { s with indices := indices, records := s.records.erase record }

/-- The loop of `Database::DeleteAllRecords`, for at most so many rounds. -/
def deleteLoop : ℕ → Database Rec K → Option (Database Rec K)
  | 0, s => if s.records = [] then some s else none
  | rounds + 1, s =>
    match s.records with
    | [] => some s
    | record :: _ =>
      -- a record that was destroyed cannot be asked for its key, nor destroyed again
      if record ∈ s.destroyed then none
      else do
        let s ← s.remove record
        deleteLoop rounds { s with destroyed := record :: s.destroyed }

/-- Every round takes one record off the list. -/
def deleteAllRecords (s : Database Rec K) : Option (Database Rec K) :=
  deleteLoop s.records.length s

inductive Op (Rec K : Type)
  | addIndex (index : Index Rec K)
  | add (record : Rec)
  | remove (record : Rec)
  | deleteAllRecords

def next (s : Database Rec K) : Op Rec K → Option (Database Rec K)
  | .addIndex index => some { s with indices := index :: s.indices }
  | .add record => (s.add record).map Prod.snd
  | .remove record => s.remove record
  | .deleteAllRecords => s.deleteAllRecords

def step (s : Database Rec K) (op : Op Rec K) (s' : Database Rec K) : Prop := s.next op = some s'

def Hashable (s : Database Rec K) (record : Rec) : Prop :=
  record ∉ s.destroyed ∧
    ∀ index ∈ s.indices, index.key.hash (index.getIndexKey record) ≠ badHash

/-- What is assumed of an operation: indices are added at the start, no key hashes to `2 ^ 31`, and
keys do not change while their records are stored. -/
def Allowed (s : Database Rec K) : Op Rec K → Prop
  | .addIndex index => s.records = [] ∧ index.entries = []
  | .add record => s.Hashable record
  | .remove record => s.Hashable record
  | .deleteAllRecords => s.records.Nodup

def Finds (s : Database Rec K) (index : Index Rec K) (key : K) : Option Rec → Prop
  | some r => r ∈ s.records ∧ index.key.equal (index.getIndexKey r) key = true
  | none => ∀ r ∈ s.records, index.key.equal (index.getIndexKey r) key = false

structure Consistent (s : Database Rec K) : Prop where
  same : ∀ index ∈ s.indices, index.entries.Perm s.records
  /-- A search returns, with a record that has the key if and only if one is stored. -/
  finds : ∀ index ∈ s.indices, ∀ key, index.key.hash key ≠ badHash →
    ∃ found, index.findOne key = some found ∧ s.Finds index key found
  unique : ∀ index ∈ s.indices, index.duplicatesAllowed = false →
    index.entries.Pairwise fun r r' =>
      index.key.equal (index.getIndexKey r) (index.getIndexKey r') = false
  returns : ∀ op, s.Allowed op → ∃ s', s.step op s'
  /-- An `Add` that is refused changes nothing. -/
  refused : ∀ record s', s.Allowed (.add record) → s.add record = some (false, s') → s' = s

end Database

/-! ## One index -/

namespace Index

lemma eq_badHash {hash : UInt32} (h : hash.toInt32.toInt = -2 ^ 31) : hash = badHash := by
  have hm : hash.toInt32 = minValue := toInt_inj.mp (h.trans toInt_minValue.symm)
  rw [← UInt32.toUInt32_toInt32 hash, hm]
  rfl

lemma exists_bucketAt {n : ℕ} (hpos : 0 < n) (hlt : n < 2 ^ 31) {hash : UInt32}
    (h : hash ≠ badHash) : ∃ i, bucketAt n hash = some i := by
  have hlo := hash.toInt32.le_toInt
  have hne : hash.toInt32.toInt ≠ -2 ^ 31 := mt eq_badHash h
  have ha : 0 ≤ (if hash.toInt32 < 0 then -hash.toInt32 else hash.toInt32).toInt := by
    split_ifs with hn
    · rw [lt_iff_toInt_lt, toInt_zero] at hn
      rw [toInt_neg, Int.bmod_eq_of_le (by omega) (by omega)]
      omega
    · rw [lt_iff_toInt_lt, toInt_zero] at hn
      omega
  have hs : (ofNat n).toInt = n := toInt_ofNat_of_lt hlt
  have hr : 0 ≤ (normalize n hash.toInt32).toInt ∧ (normalize n hash.toInt32).toInt < n := by
    rw [normalize, toInt_mod, hs]
    exact ⟨Int.tmod_nonneg _ ha, Int.tmod_lt_of_pos _ (by omega)⟩
  exact ⟨_, dif_pos hr⟩

variable {Rec K : Type}

lemma exists_getBucket (index : Index Rec K) {key : K} (h : index.key.hash key ≠ badHash) :
    ∃ i, index.getBucket key = some i :=
  exists_bucketAt index.size_pos index.size_lt h

def Differ (index : Index Rec K) (r r' : Rec) : Prop :=
  index.key.equal (index.getIndexKey r) (index.getIndexKey r') = false

lemma Differ.symm {index : Index Rec K} {r r' : Rec} (h : index.Differ r r') :
    index.Differ r' r := by
  unfold Differ
  by_contra he
  rw [Bool.not_eq_false] at he
  exact absurd (index.key.equivalence.symm he) (by rw [h]; simp)

/-- Every record is in the bucket of its key, and a unique index is unique. -/
structure Sound (index : Index Rec K) : Prop where
  placed : index.buckets.Placed fun r => index.getBucket (index.getIndexKey r)
  unique : index.duplicatesAllowed = false → index.entries.Pairwise index.Differ

lemma sound_of_empty {index : Index Rec K} (h : index.entries = []) : index.Sound where
  placed i r hr := by
    have hmem : r ∈ index.entries := mem_entries.mpr ⟨i, hr⟩
    rw [h] at hmem
    exact absurd hmem not_mem_nil
  unique _ := h ▸ Pairwise.nil

variable {index : Index Rec K} {r : Rec}

/-- **A search of the key's bucket is a search of the index.** -/
theorem Sound.findOne (h : index.Sound) {key : K} {i : Fin index.numberOfBuckets}
    (hi : index.getBucket key = some i) :
    ∃ found, index.findOne key = some found ∧
      (∀ r, found = some r → r ∈ index.entries ∧ index.key.equal (index.getIndexKey r) key = true) ∧
      (found = none → ∀ r ∈ index.entries, index.key.equal (index.getIndexKey r) key = false) := by
  refine ⟨_, by rw [Index.findOne, hi]; rfl, ?_, ?_⟩
  · intro r hr
    have he := find?_some (p := fun r => index.key.equal (index.getIndexKey r) key) hr
    exact ⟨mem_entries.mpr ⟨i, mem_of_find?_eq_some hr⟩, he⟩
  · intro hn r hr
    by_contra he
    rw [Bool.not_eq_false] at he
    -- a record with the key would be in the bucket that was searched
    have hp : index.getBucket (index.getIndexKey r) = some i :=
      (congrArg (bucketAt index.numberOfBuckets) (index.key.hash_eq _ _ he)).trans hi
    have hmem := (h.placed.mem_bucket_iff hp).mpr hr
    exact find?_eq_none.mp hn r hmem he

lemma Sound.exists_getBucket (h : index.Sound) (hr : r ∈ index.entries) :
    ∃ i, index.getBucket (index.getIndexKey r) = some i := by
  obtain ⟨i, hi⟩ := mem_entries.mp hr
  exact ⟨i, h.placed i r hi⟩

lemma Sound.eq_of_equal (h : index.Sound) (hdu : index.duplicatesAllowed = false) {r' : Rec}
    (hr : r ∈ index.entries) (hr' : r' ∈ index.entries)
    (he : index.key.equal (index.getIndexKey r) (index.getIndexKey r') = true) : r = r' := by
  by_contra hne
  have : Std.Symm index.Differ := ⟨fun _ _ => Differ.symm⟩
  have hd : index.Differ r r' := (h.unique hdu).forall hr hr' hne
  exact absurd he (by rw [hd]; simp)

lemma Sound.nodup (h : index.Sound) (hdu : index.duplicatesAllowed = false) :
    index.entries.Nodup := by
  refine (h.unique hdu).imp ?_
  rintro r r' hd rfl
  exact absurd (index.key.equivalence.refl _) (by rw [hd]; simp)

structure SameShape (index index' : Index Rec K) : Prop where
  key_eq : index'.key = index.key
  getIndexKey_eq : index'.getIndexKey = index.getIndexKey
  duplicatesAllowed_eq : index'.duplicatesAllowed = index.duplicatesAllowed

variable {index' : Index Rec K}

lemma add_inv {added : Bool} (h : index.add r = some (added, index')) :
    (∃ i, index.getBucket (index.getIndexKey r) = some i) ∧ index.SameShape index' := by
  simp only [add, bind_eq_bind, bind_eq_some_iff] at h
  obtain ⟨i, hi, found, _, h⟩ := h
  refine ⟨⟨i, hi⟩, ?_⟩
  split_ifs at h
  all_goals
    cases h
    exact ⟨rfl, rfl, rfl⟩

lemma Sound.exists_of_refused (h : index.Sound) (ha : index.add r = some (false, index')) :
    ∃ r' ∈ index.entries, index.key.equal (index.getIndexKey r') (index.getIndexKey r) = true := by
  obtain ⟨⟨i, hi⟩, -⟩ := add_inv ha
  obtain ⟨found, hf, hs, -⟩ := h.findOne hi
  simp only [add, hi, hf, bind_eq_bind, bind_some] at ha
  split_ifs at ha with hr
  · obtain ⟨r', hr'⟩ := isSome_iff_exists.mp hr.2
    exact ⟨r', hs r' hr'⟩
  · exact absurd (Prod.mk.inj (some.inj ha)).1 (by simp)

lemma add_numberOfBuckets {added : Bool} (h : index.add r = some (added, index')) :
    index'.numberOfBuckets = index.numberOfBuckets := by
  simp only [add, bind_eq_bind, bind_eq_some_iff] at h
  obtain ⟨i, -, found, -, h⟩ := h
  split_ifs at h
  all_goals rw [← (Prod.mk.inj (some.inj h)).2]

variable [DecidableEq Rec]

lemma remove_numberOfBuckets (h : index.remove r = some index') :
    index'.numberOfBuckets = index.numberOfBuckets := by
  obtain ⟨i, -, h⟩ := bind_eq_some_iff.mp h
  rw [← some.inj h]

lemma Sound.add (h : index.Sound) {i : Fin index.numberOfBuckets}
    (hi : index.getBucket (index.getIndexKey r) = some i) :
    index.add r = some (false, index) ∨
      ∃ index', index.add r = some (true, index') ∧ index'.Sound ∧
        index'.entries.Perm (r :: index.entries) ∧ index'.remove r = some index := by
  obtain ⟨found, hfo, _, hn⟩ := h.findOne hi
  by_cases hr : index.duplicatesAllowed = false ∧ found.isSome
  · refine .inl ?_
    simp only [Index.add, hi, hfo, bind_eq_bind, bind_some, if_pos hr]
    rfl
  · have hp := entries_push index.buckets i r
    refine .inr ⟨{ index with buckets := index.buckets.push i r }, ?_, ⟨h.placed.push hi, ?_⟩,
      hp, ?_⟩
    · simp only [Index.add, hi, hfo, bind_eq_bind, bind_some, if_neg hr]
      rfl
    · intro hd
      have hf : found = none := by
        by_contra hne
        exact hr ⟨hd, isSome_iff_ne_none.mpr hne⟩
      refine (hp.pairwise_iff Differ.symm).mpr (pairwise_cons.mpr ⟨?_, h.unique hd⟩)
      intro r' hr'
      exact Differ.symm (hn hf r' hr')
    · have hi' : getBucket { index with buckets := index.buckets.push i r }
          (index.getIndexKey r) = some i := hi
      simp only [remove, hi', bind_eq_bind, bind_some, pull_push]
      rfl

lemma Sound.remove (h : index.Sound) {i : Fin index.numberOfBuckets}
    (hi : index.getBucket (index.getIndexKey r) = some i) :
    ∃ index', index.remove r = some index' ∧ index'.Sound ∧
      index'.entries.Perm (index.entries.erase r) := by
  have hp := entries_pull (h.placed.not_mem_others hi)
  refine ⟨{ index with buckets := index.buckets.pull i r }, ?_, ⟨h.placed.pull i r, ?_⟩, hp⟩
  · simp only [Index.remove, hi, bind_eq_bind, bind_some]
    rfl
  · intro hd
    exact (hp.pairwise_iff Differ.symm).mpr ((h.unique hd).sublist erase_sublist)

lemma remove_inv (h : index.remove r = some index') :
    (∃ i, index.getBucket (index.getIndexKey r) = some i) ∧ index.SameShape index' := by
  obtain ⟨i, hi, h⟩ := bind_eq_some_iff.mp h
  cases h
  exact ⟨⟨i, hi⟩, ⟨rfl, rfl, rfl⟩⟩

end Index

namespace Database

variable {Rec K : Type}

def Hold (records : List Rec) (indices : List (Index Rec K)) : Prop :=
  ∀ index ∈ indices, index.Sound ∧ index.entries.Perm records

variable {records : List Rec}

lemma Hold.tail {index : Index Rec K} {rest : List (Index Rec K)}
    (h : Hold records (index :: rest)) : Hold records rest :=
  fun index' hmem => h index' (.tail index hmem)

lemma Hold.cons {records : List Rec} {index : Index Rec K} {rest : List (Index Rec K)}
    (hs : index.Sound) (hp : index.entries.Perm records) (h : Hold records rest) :
    Hold records (index :: rest) := by
  intro index' hmem
  rcases mem_cons.mp hmem with rfl | hmem
  · exact ⟨hs, hp⟩
  · exact h index' hmem

def HasBuckets (record : Rec) (indices : List (Index Rec K)) : Prop :=
  ∀ index ∈ indices, ∃ i, index.getBucket (index.getIndexKey record) = some i

structure Kept (s : Database Rec K) : Prop where
  hold : Hold s.records s.indices
  alive : ∀ r ∈ s.records, r ∉ s.destroyed

lemma kept_new : Kept (new : Database Rec K) where
  hold _ hmem := absurd hmem not_mem_nil
  alive _ hmem := absurd hmem not_mem_nil

variable {s s' : Database Rec K} {record : Rec}

lemma Hashable.hasBuckets (h : s.Hashable record) : HasBuckets record s.indices :=
  fun index hmem => index.exists_getBucket (h.2 index hmem)

lemma Kept.hasBuckets (h : s.Kept) (hr : record ∈ s.records) : HasBuckets record s.indices := by
  intro index hmem
  obtain ⟨hs, hp⟩ := h.hold index hmem
  exact hs.exists_getBucket (hp.mem_iff.mpr hr)

variable [DecidableEq Rec]

/-- **The record is added to every index, or the indices are left as they were.** -/
theorem Hold.addIndices {indices : List (Index Rec K)} (h : Hold records indices)
    (hb : HasBuckets record indices) :
    addIndices record indices = some (false, indices) ∨
      ∃ indices', addIndices record indices = some (true, indices') ∧
        Hold (record :: records) indices' := by
  induction indices with
  | nil => exact .inr ⟨[], rfl, fun _ hmem => absurd hmem not_mem_nil⟩
  | cons index rest ih =>
    obtain ⟨hs, hp⟩ := h index (.head _)
    obtain ⟨i, hi⟩ := hb index (.head _)
    have hr := ih h.tail fun index' hmem => hb index' (.tail index hmem)
    unfold Database.addIndices
    rcases hs.add hi with ha | ⟨index', ha, hs', hp', hu⟩
    · exact .inl (by rw [ha]; rfl)
    · rcases hr with hr | ⟨rest', hr, hh⟩
      · refine .inl ?_
        simp only [ha, hr, hu, bind_eq_bind, bind_some]
        rfl
      · refine .inr ⟨index' :: rest', ?_, .cons hs' (hp'.trans (hp.cons record)) hh⟩
        simp only [ha, hr, bind_eq_bind, bind_some]
        rfl

lemma Hold.removeIndices {indices : List (Index Rec K)} (h : Hold records indices)
    (hb : HasBuckets record indices) :
    ∃ indices', removeIndices record indices = some indices' ∧
      Hold (records.erase record) indices' := by
  induction indices with
  | nil => exact ⟨[], rfl, fun _ hmem => absurd hmem not_mem_nil⟩
  | cons index rest ih =>
    obtain ⟨hs, hp⟩ := h index (.head _)
    obtain ⟨i, hi⟩ := hb index (.head _)
    obtain ⟨rest', hre, hh⟩ := ih h.tail fun index' hmem => hb index' (.tail index hmem)
    obtain ⟨index', hr, hs', hp'⟩ := hs.remove hi
    refine ⟨index' :: rest', ?_, .cons hs' (hp'.trans (hp.erase record)) hh⟩
    simp only [Database.removeIndices, hr, hre, bind_eq_bind, bind_some]
    rfl

/-- **What `Database::Add` does**: the record is added everywhere or nothing changes. -/
theorem Kept.add (h : s.Kept) (hok : s.Hashable record) :
    s.add record = some (false, s) ∨ ∃ s', s.add record = some (true, s') ∧ s'.Kept := by
  rcases h.hold.addIndices hok.hasBuckets with ha | ⟨indices', ha, hh⟩
  · refine .inl ?_
    simp only [Database.add, ha, bind_eq_bind, bind_some, erase_cons_head]
    rfl
  · refine .inr ⟨{ s with indices := indices', records := record :: s.records }, ?_, hh, ?_⟩
    · simp only [Database.add, ha, bind_eq_bind, bind_some]
      rfl
    · intro r hr
      rcases mem_cons.mp hr with rfl | hr
      · exact hok.1
      · exact h.alive r hr

lemma Kept.remove (h : s.Kept) (hb : HasBuckets record s.indices) :
    ∃ s', s.remove record = some s' ∧ s'.Kept ∧ s'.records = s.records.erase record ∧
      s'.destroyed = s.destroyed := by
  obtain ⟨indices', hre, hh⟩ := h.hold.removeIndices hb
  refine ⟨{ s with indices := indices', records := s.records.erase record }, ?_, ⟨hh, ?_⟩, rfl, rfl⟩
  · simp only [Database.remove, hre, bind_eq_bind, bind_some]
    rfl
  · intro r hr
    exact h.alive r (mem_of_mem_erase hr)

/-- **What `Database::DeleteAllRecords` does**: it ends, and nothing is stored then. -/
theorem Kept.deleteLoop {rounds : ℕ} (h : s.Kept) (hn : s.records.Nodup)
    (hro : s.records.length = rounds) : ∃ s', deleteLoop rounds s = some s' ∧ s'.Kept := by
  induction rounds generalizing s with
  | zero =>
    have he : s.records = [] := length_eq_zero_iff.mp hro
    exact ⟨s, by rw [deleteLoop, if_pos he], h⟩
  | succ rounds ih =>
    obtain ⟨record, rest, hre⟩ := exists_cons_of_length_eq_add_one hro
    have hmem : record ∈ s.records := hre ▸ (.head _)
    obtain ⟨s1, hrm, hk, hr1, hd1⟩ := h.remove (h.hasBuckets hmem)
    rw [hre, erase_cons_head] at hr1
    rw [hre, nodup_cons] at hn
    have hk1 : Kept { s1 with destroyed := record :: s1.destroyed } := by
      refine ⟨hk.hold, fun r hr => ?_⟩
      have hr' : r ∈ rest := hr1 ▸ hr
      rw [mem_cons, not_or]
      exact ⟨fun heq => hn.1 (heq ▸ hr'), hk.alive r hr⟩
    obtain ⟨s', hl, hs'⟩ := ih hk1 (by rw [hr1]; exact hn.2) (by rw [hr1]; simpa [hre] using hro)
    refine ⟨s', ?_, hs'⟩
    simp only [deleteLoop, hre, if_neg (h.alive record hmem), hrm, bind_eq_bind, bind_some]
    exact hl

/-- **Every operation returns and keeps the invariant.** -/
theorem Kept.next (h : s.Kept) {op : Op Rec K} (hok : s.Allowed op) :
    ∃ s', s.next op = some s' ∧ s'.Kept := by
  cases op with
  | addIndex index =>
    obtain ⟨hr, he⟩ := hok
    refine ⟨_, rfl, .cons (Index.sound_of_empty he) ?_ h.hold, h.alive⟩
    rw [he, hr]
  | add record =>
    rcases h.add hok with ha | ⟨s', ha, hs'⟩
    · exact ⟨s, by rw [Database.next, ha]; rfl, h⟩
    · exact ⟨s', by rw [Database.next, ha]; rfl, hs'⟩
  | remove record =>
    obtain ⟨s', hre, hs', _⟩ := h.remove hok.hasBuckets
    exact ⟨s', hre, hs'⟩
  | deleteAllRecords => exact h.deleteLoop hok rfl

lemma Kept.step (h : s.Kept) {op : Op Rec K} (hok : s.Allowed op) (hs : s.step op s') :
    s'.Kept := by
  obtain ⟨s1, hn, hs1⟩ := h.next hok
  cases hn.symm.trans hs
  exact hs1

lemma Kept.consistent (h : s.Kept) : s.Consistent where
  same index hmem := (h.hold index hmem).2
  finds index hmem key hkey := by
    obtain ⟨hs, hp⟩ := h.hold index hmem
    obtain ⟨i, hi⟩ := index.exists_getBucket hkey
    obtain ⟨found, hf, hso, hn⟩ := hs.findOne hi
    refine ⟨found, hf, ?_⟩
    cases found with
    | none => exact fun r hr => hn rfl r (hp.mem_iff.mpr hr)
    | some r =>
      obtain ⟨hr, he⟩ := hso r rfl
      exact ⟨hp.mem_iff.mp hr, he⟩
  unique index hmem := (h.hold index hmem).1.unique
  returns op hok := by
    obtain ⟨s', hne, _⟩ := h.next hok
    exact ⟨s', hne⟩
  refused record s' hok had := by
    rcases h.add hok with hre | ⟨s1, ha, _⟩
    · exact (Prod.mk.inj (some.inj (had.symm.trans hre))).2
    · cases had.symm.trans ha

/-- **The list and the indices agree after any operations.** -/
theorem consistent_of_run {s : Database Rec K} {ops : List (Op Rec K)}
    (h : Run (Guarded Allowed step) new ops s) : s.Consistent :=
  (h.invariant (fun _ _ _ hs hst => hs.step hst.1 hst.2) kept_new).consistent

instance (s : Database Rec K) : ∀ op, Decidable (s.Allowed op)
  | .addIndex index => inferInstanceAs (Decidable (s.records = [] ∧ index.entries = []))
  | .add record | .remove record => inferInstanceAs (Decidable (record ∉ s.destroyed ∧
      ∀ index ∈ s.indices, index.key.hash (index.getIndexKey record) ≠ badHash))
  | .deleteAllRecords => inferInstanceAs (Decidable s.records.Nodup)

/-- Two indices of three buckets over pairs of words: a unique one by the first word, and one by the
second. -/
def sampleOps : List (Op (UInt32 × UInt32) UInt32) :=
  [.addIndex (.new wordKey Prod.fst false 3 (by decide) (by decide)),
    .addIndex (.new wordKey Prod.snd true 3 (by decide) (by decide)),
    .add (1, 7), .add (4, 7), .add (1, 8), .remove (4, 7), .add (5, 7)]

/-- The third record is refused, since the first has the same first word, and leaves no trace. -/
theorem consistent_of_run_refused :
    ∃ s, Run (Guarded Allowed step) new sampleOps s ∧ s.records = [(5, 7), (1, 7)] ∧
      s.Consistent := by
  exact (exists_guarded_of_decide (by decide +kernel)).imp fun s h =>
    ⟨h.1, h.2, consistent_of_run h.1⟩

end Database

end Glomop
