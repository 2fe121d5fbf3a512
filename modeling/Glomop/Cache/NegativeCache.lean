import Glomop.Database.Distiller
import Glomop.Database.Index
import Glomop.Lib.CharSum
import Glomop.Lib.Lru

/-!
# The negative cache

`NegativeCache` keeps at most `MaxNCSize` types of distiller, in a list and in a hash index over it.
A counter stamps an entry when it is used, and may wrap around.  Source: `cache.h`, `cache.cc`.
-/

namespace Glomop.Cache

open Lib Function List

abbrev MaxNCSize : ℕ := 32

/-- `distdb.h` `DistillerType::Equal`, `DistillerType::Hash`. -/
def typeKey : IndexKey DistillerType where
  equal a b := decide (a = b)
  hash type := charSum type.chars
  equivalence := by simpa using eq_equivalence
  hash_eq a b h := by rw [of_decide_eq_true h]

/-- A pointer to an entry.  `struct NegativeCache::NegativeCacheEntry`. -/
structure Entry where
  address : ℕ
  type : DistillerType
deriving DecidableEq

structure NegativeCache where
  list : List Entry
  touchCounter : UInt32
  index : Index Entry DistillerType
  /-- The `lastTouched` of the entry at an address. -/
  lastTouched : ℕ → UInt32
  nextAddress : ℕ
  /-- Log: how often `Touch_` was called since the last `Flush`. -/
  touches : ℕ

namespace NegativeCache

/-- `NegativeCache::NegativeCache`. -/
def new : NegativeCache where
  list := []
  touchCounter := 0
  index := .new typeKey Entry.type false 13 Index.defaultSize_pos Index.defaultSize_lt
  lastTouched _ := 0
  nextAddress := 0
  touches := 0

variable (s : NegativeCache)

def touch (e : Entry) : NegativeCache :=
  if s.lastTouched e.address = s.touchCounter ∧ s.touchCounter ≠ 0 then
    { s with touches := s.touches + 1 }
  else
    { s with
      touchCounter := s.touchCounter + 1
      lastTouched := Function.update s.lastTouched e.address (s.touchCounter + 1)
      touches := s.touches + 1 }

def stamp (e : Entry) : ℕ := (s.lastTouched e.address).toNat

def removeEntry (e : Entry) : Option NegativeCache := do
  let index ← s.index.remove e
  return { s with list := s.list.erase e, index := index }

def evict : Option NegativeCache :=
  match s.list with
  | [] => none
  | e :: rest => s.removeEntry (oldest s.stamp e rest)

def insertEntry (type : DistillerType) : Option (Bool × NegativeCache) := do
  let e : Entry := ⟨s.nextAddress, type⟩
  let (added, index) ← s.index.add e
  let s' := { s with
    list := e :: s.list
    index := index
    lastTouched := Function.update s.lastTouched e.address 0
    nextAddress := s.nextAddress + 1 }
  if added then return (true, s'.touch e) else return (false, s')

def add (type : DistillerType) : Option (Bool × NegativeCache) := do
  match ← s.index.findOne type with
  | some _ => return (true, s)
  | none =>
    let s' ← if s.list.length ≥ MaxNCSize then s.evict else some s
    s'.insertEntry type

def isThere (type : DistillerType) : Option (Bool × NegativeCache) := do
  match ← s.index.findOne type with
  | none => return (false, s)
  | some e => return (true, s.touch e)

/-- The loop of `NegativeCache::Flush`, which takes the entries off the list. -/
def flushIndex : List Entry → Index Entry DistillerType → Option (Index Entry DistillerType)
  | [], index => some index
  | e :: list, index => do flushIndex list (← index.remove e)

def flush : Option NegativeCache := do
  let index ← flushIndex s.list s.index
  return { s with list := [], index := index, touchCounter := 0, touches := 0 }

inductive Op
  | add (type : DistillerType)
  | isThere (type : DistillerType)
  | flush

def next (s : NegativeCache) : Op → Option NegativeCache
  | .add type => (s.add type).map Prod.snd
  | .isThere type => (s.isThere type).map Prod.snd
  | .flush => s.flush

def execute : NegativeCache → List Op → Option NegativeCache := List.foldlM next

/-- What a set does that forgets the least recently used types. -/
def reference (types : List DistillerType) : Op → List DistillerType
  | .add type => Lru.add MaxNCSize types type
  | .isThere type => Lru.lookup types type
  | .flush => []

/-! ## The list and the index -/

/-- **The list and the index hold the same entries**, of different types. -/
structure Consistent (s : NegativeCache) : Prop where
  key_eq : s.index.key = typeKey
  getIndexKey_eq : s.index.getIndexKey = Entry.type
  unique_eq : s.index.duplicatesAllowed = false
  sound : s.index.Sound
  same : s.index.entries.Perm s.list
  addresses : (s.list.map Entry.address).Nodup
  fresh : ∀ e ∈ s.list, e.address < s.nextAddress

variable {s} {e : Entry} {type : DistillerType}

lemma consistent_new : new.Consistent where
  key_eq := rfl
  getIndexKey_eq := rfl
  unique_eq := rfl
  sound := Index.sound_of_empty Buckets.entries_empty
  same := by
    have hem : new.index.entries = [] := Buckets.entries_empty
    rw [hem]
    exact Perm.refl []
  addresses := nodup_nil
  fresh := by
    nofun

namespace Consistent

variable (h : s.Consistent)
include h

lemma exists_getBucket (type : DistillerType) : ∃ i, s.index.getBucket type = some i := by
  refine s.index.exists_getBucket ?_
  rw [h.key_eq]
  exact charSum_ne_of_length_lt (type.fits.trans (by decide))

lemma equal_iff {a b : DistillerType} : s.index.key.equal a b = true ↔ a = b := by
  rw [h.key_eq]
  exact decide_eq_true_iff

lemma types_nodup : (s.list.map Entry.type).Nodup := by
  have hd : s.list.Pairwise s.index.Differ :=
    (h.same.pairwise_iff Index.Differ.symm).mp (h.sound.unique h.unique_eq)
  refine pairwise_map.mpr (hd.imp fun {a b} hab heq => ?_)
  unfold Index.Differ at hab
  rw [h.getIndexKey_eq, h.equal_iff.mpr heq] at hab
  cases hab

lemma findOne_spec (type : DistillerType) : ∃ found, s.index.findOne type = some found ∧
    (∀ e, found = some e → e ∈ s.list ∧ e.type = type) ∧
    (found = none → ∀ e ∈ s.list, e.type ≠ type) := by
  obtain ⟨i, hi⟩ := h.exists_getBucket type
  obtain ⟨found, hf, hs, hno⟩ := h.sound.findOne hi
  refine ⟨found, hf, fun e he => ?_, fun hn e he heq => ?_⟩
  · obtain ⟨hmem, hel⟩ := hs e he
    rw [h.getIndexKey_eq] at hel
    exact ⟨h.same.mem_iff.mp hmem, h.equal_iff.mp hel⟩
  · have hel := hno hn e (h.same.mem_iff.mpr he)
    rw [h.getIndexKey_eq, h.equal_iff.mpr heq] at hel
    cases hel

lemma remove (e : Entry) : ∃ index, s.index.remove e = some index ∧
    Consistent { s with list := s.list.erase e, index := index } := by
  obtain ⟨i, hi⟩ := h.exists_getBucket (s.index.getIndexKey e)
  obtain ⟨index, hr, hso, hp⟩ := h.sound.remove hi
  obtain ⟨_, hs⟩ := Index.remove_inv hr
  refine ⟨index, hr, ?_⟩
  exact {
    key_eq := hs.key_eq.trans h.key_eq
    getIndexKey_eq := hs.getIndexKey_eq.trans h.getIndexKey_eq
    unique_eq := hs.duplicatesAllowed_eq.trans h.unique_eq
    sound := hso
    same := hp.trans (h.same.erase e)
    addresses := h.addresses.sublist (erase_sublist.map Entry.address)
    fresh := fun a ha => h.fresh a (mem_of_mem_erase ha) }

omit h in
lemma touch (h : s.Consistent) (e : Entry) : (s.touch e).Consistent := by
  unfold NegativeCache.touch
  split_ifs
  all_goals exact { h with }

end Consistent

def inserted (s : NegativeCache) (type : DistillerType) (index : Index Entry DistillerType) :
    NegativeCache :=
  { s with
    list := ⟨s.nextAddress, type⟩ :: s.list
    index := index
    lastTouched := Function.update s.lastTouched s.nextAddress 0
    nextAddress := s.nextAddress + 1 }

lemma Consistent.insertEntry (h : s.Consistent) (hnw : ∀ e ∈ s.list, e.type ≠ type) :
    ∃ index, s.insertEntry type = some (true, (s.inserted type index).touch ⟨s.nextAddress, type⟩) ∧
      (s.inserted type index).Consistent := by
  have hkey : s.index.getIndexKey ⟨s.nextAddress, type⟩ = type := by rw [h.getIndexKey_eq]
  obtain ⟨i, hi⟩ := h.exists_getBucket type
  obtain ⟨found, hf, hsm, _⟩ := h.findOne_spec type
  have hn : found = none := by
    by_contra hne
    obtain ⟨e, he⟩ := Option.ne_none_iff_exists'.mp hne
    obtain ⟨hmem, ht⟩ := hsm e he
    exact hnw e hmem ht
  obtain hr | ⟨index, hadd, hso, hp, _⟩ := h.sound.add (hkey.symm ▸ hi)
  · -- an index refuses only a key that it holds
    simp [Index.add, hkey, hi, hf, hn] at hr
  · obtain ⟨_, hs⟩ := Index.add_inv hadd
    refine ⟨index, by simp [NegativeCache.insertEntry, hadd, inserted], ?_⟩
    exact {
      key_eq := hs.key_eq.trans h.key_eq
      getIndexKey_eq := hs.getIndexKey_eq.trans h.getIndexKey_eq
      unique_eq := hs.duplicatesAllowed_eq.trans h.unique_eq
      sound := hso
      same := hp.trans (h.same.cons _)
      addresses := by
        refine nodup_cons.mpr ⟨fun hmem => ?_, h.addresses⟩
        obtain ⟨a, ha, had⟩ := mem_map.mp hmem
        exact (h.fresh a ha).ne had
      fresh := by
        intro a ha
        rcases mem_cons.mp ha with rfl | ha
        · exact Nat.lt_succ_self _
        · exact (h.fresh a ha).trans (Nat.lt_succ_self _) }

/-! ## Stamps and recency -/

/-- The entries, listed by their stamps with the newest first, have these types; and no stamp is
newer than the counter, which has not counted more often than `Touch_` was called. -/
def Ordered (s : NegativeCache) (types : List DistillerType) : Prop :=
  ∃ es : List Entry, es.Perm s.list ∧ es.map Entry.type = types ∧ Newest s.stamp es ∧
    (∀ e ∈ es, s.stamp e ≤ s.touchCounter.toNat) ∧ s.touchCounter.toNat ≤ s.touches

lemma Ordered.mem_iff {types : List DistillerType} (h : s.Ordered types) :
    type ∈ s.list.map Entry.type ↔ type ∈ types := by
  obtain ⟨es, hp, rfl, _⟩ := h
  exact (hp.map Entry.type).symm.mem_iff

@[simp] lemma touch_list (s : NegativeCache) (e : Entry) : (s.touch e).list = s.list := by
  unfold touch
  split_ifs <;> rfl

@[simp] lemma touch_touches (s : NegativeCache) (e : Entry) :
    (s.touch e).touches = s.touches + 1 := by
  unfold touch
  split_ifs <;> rfl

/-- **Touching an entry** makes it the newest. -/
theorem touch_newest {es : List Entry} (hn : Newest s.stamp es)
    (hle : ∀ a ∈ es, s.stamp a ≤ s.touchCounter.toNat)
    (had : ∀ a ∈ es, a ≠ e → a.address ≠ e.address) (hf : e ∉ es → s.stamp e = 0)
    (hco : s.touchCounter.toNat + 1 < 2 ^ 32) :
    Newest (s.touch e).stamp (e :: es.erase e) ∧
      (∀ a ∈ e :: es.erase e, (s.touch e).stamp a ≤ (s.touch e).touchCounter.toNat) ∧
      (s.touch e).touchCounter.toNat ≤ s.touchCounter.toNat + 1 := by
  by_cases hs : s.lastTouched e.address = s.touchCounter ∧ s.touchCounter ≠ 0
  · have ht : s.touch e = { s with touches := s.touches + 1 } := if_pos hs
    have hst : s.stamp e = s.touchCounter.toNat := congrArg UInt32.toNat hs.1
    have hmem : e ∈ es := by
      by_contra hno
      have hz : s.touchCounter.toNat = 0 := hst.symm.trans (hf hno)
      exact hs.2 (UInt32.toNat_inj.mp hz)
    have hfr : es = e :: es.erase e := hn.eq_cons_erase hmem fun a ha => (hle a ha).trans hst.ge
    rw [ht, ← hfr]
    exact ⟨hn, hle, Nat.le_succ _⟩
  · have ht : s.touch e = { s with
        touchCounter := s.touchCounter + 1
        lastTouched := update s.lastTouched e.address (s.touchCounter + 1)
        touches := s.touches + 1 } := if_neg hs
    have hc : (s.touch e).touchCounter.toNat = s.touchCounter.toNat + 1 := by
      rw [ht]
      exact (UInt32.toNat_add _ _).trans (Nat.mod_eq_of_lt hco)
    have hse : (s.touch e).stamp e = s.touchCounter.toNat + 1 := by
      rw [← hc, stamp, ht]
      exact congrArg UInt32.toNat (update_self _ _ _)
    have ho : ∀ a ∈ es, a ≠ e → (s.touch e).stamp a = s.stamp a := by
      intro a ha hne
      rw [stamp, ht]
      exact congrArg UInt32.toNat (update_of_ne (had a ha hne) _ _)
    refine ⟨hn.touch ho fun a ha _ => ?_, fun a ha => ?_, hc.le⟩
    · rw [hse]
      exact Nat.lt_succ_of_le (hle a ha)
    · rw [hc]
      by_cases hae : a = e
      · rw [hae, hse]
      · have hmem : a ∈ es := mem_of_mem_erase ((mem_cons.mp ha).resolve_left hae)
        rw [ho a hmem hae]
        exact (hle a hmem).trans (Nat.le_succ _)

/-! ## Each operation -/

def types (s : NegativeCache) : List DistillerType := s.list.map Entry.type

/-- What an operation does: the list and the index stay together, no type is gained but by adding
it, and, as long as the counter does not wrap around, the order of the stamps follows the
reference. -/
structure Follows (s s' : NegativeCache) (op : Op) : Prop where
  consistent : s'.Consistent
  gained : ∀ type ∈ s'.types, op = .add type ∨ op ≠ .flush ∧ type ∈ s.types
  touches_le : op ≠ .flush → s.touches ≤ s'.touches
  ordered : ∀ types, (op ≠ .flush → s.Ordered types) → s'.touches < 2 ^ 32 →
    s'.Ordered (reference types op)

section

variable (h : s.Consistent)

include h

lemma Consistent.isThere (type : DistillerType) :
    ∃ found s', s.isThere type = some (found, s') ∧ s.Follows s' (.isThere type) := by
  obtain ⟨found, hf, hs, hnn⟩ := h.findOne_spec type
  cases found with
  | none =>
    refine ⟨false, s, by simp [NegativeCache.isThere, hf], h,
      fun type' hmem => .inr ⟨nofun, hmem⟩, fun _ => le_rfl, ?_⟩
    intro types ho _
    have hnt : type ∉ types := by
      rw [← (ho nofun).mem_iff]
      intro hmem
      obtain ⟨e, he, hty⟩ := mem_map.mp hmem
      exact hnn rfl e he hty
    rw [reference, Lru.lookup, if_neg hnt]
    exact ho nofun
  | some e =>
    obtain ⟨he, rfl⟩ := hs e rfl
    refine ⟨true, s.touch e, by simp [NegativeCache.isThere, hf], h.touch e, ?_, ?_, ?_⟩
    · intro type' hmem
      rw [types, touch_list] at hmem
      exact .inr ⟨nofun, hmem⟩
    · intro _
      rw [touch_touches]
      exact Nat.le_succ _
    · intro types ho ht
      obtain ⟨es, hp, rfl, hn, hle, hc⟩ := ho nofun
      rw [touch_touches] at ht
      have hmem : e ∈ es := hp.mem_iff.mpr he
      obtain ⟨hn', hl', hc'⟩ := touch_newest hn hle
        (fun a ha hne heq => hne (inj_on_of_nodup_map h.addresses (hp.mem_iff.mp ha) he heq))
        (absurd hmem) (by omega)
      refine ⟨e :: es.erase e, ?_, ?_, hn', hl', ?_⟩
      · rw [touch_list]
        exact (perm_cons_erase hmem).symm.trans hp
      · have hno : (es.map Entry.type).Nodup := (hp.map Entry.type).nodup_iff.mpr h.types_nodup
        rw [reference, Lru.lookup, if_pos (mem_map_of_mem hmem), map_cons,
          map_erase_of_nodup hno hmem]
      · rw [touch_touches]
        omega

lemma Consistent.evict (hne : s.list ≠ []) :
    ∃ s', s.evict = some s' ∧ s'.Consistent ∧ s'.touches = s.touches ∧ s'.list ⊆ s.list ∧
      ∀ types, s.Ordered types → s'.Ordered types.dropLast := by
  obtain ⟨e, rest, hl⟩ := exists_cons_of_ne_nil hne
  obtain ⟨hmem, hold⟩ := oldest_spec s.stamp e rest
  rw [← hl] at hmem hold
  obtain ⟨index, hr, hc⟩ := h.remove (oldest s.stamp e rest)
  have he : s.evict =
      some { s with list := s.list.erase (oldest s.stamp e rest), index := index } := by
    simp only [NegativeCache.evict, NegativeCache.removeEntry, hl, hr]
    rfl
  refine ⟨_, he, hc, rfl, erase_subset, ?_⟩
  rintro types ⟨es, hp, rfl, hn, hle, hco⟩
  have hd := hn.dropLast_eq_erase (hp.mem_iff.mpr hmem) fun a ha => hold a (hp.mem_iff.mp ha)
  refine ⟨es.dropLast, ?_, map_dropLast, hn.sublist (dropLast_sublist es), ?_, hco⟩
  · rw [hd]
    exact hp.erase _
  · intro a ha
    exact hle a (mem_of_mem_dropLast ha)

lemma Consistent.insert_follows (hnw : ∀ e ∈ s.list, e.type ≠ type) :
    ∃ s', s.insertEntry type = some (true, s') ∧ s'.Consistent ∧ s'.touches = s.touches + 1 ∧
      s'.types = type :: s.types ∧ ∀ types, s.Ordered types → s'.touches < 2 ^ 32 →
        s'.Ordered (type :: types) := by
  obtain ⟨index, hi, hc⟩ := h.insertEntry hnw
  refine ⟨_, hi, hc.touch _, touch_touches _ _, ?_, ?_⟩
  · rw [types, touch_list]
    rfl
  rintro types ⟨es, hp, rfl, hne, hle, hco⟩ ht
  rw [touch_touches] at ht
  have hc' : (s.inserted type index).touchCounter.toNat ≤ s.touches := hco
  have ht' : s.touches + 1 < 2 ^ 32 := ht
  have hn : (⟨s.nextAddress, type⟩ : Entry) ∉ es := fun hmem =>
    (h.fresh _ (hp.mem_iff.mp hmem)).ne rfl
  have had : ∀ a ∈ es, a.address ≠ s.nextAddress := fun a ha =>
    (h.fresh a (hp.mem_iff.mp ha)).ne
  have hs : ∀ a ∈ es, (s.inserted type index).stamp a = s.stamp a := fun a ha =>
    congrArg UInt32.toNat (update_of_ne (had a ha) _ _)
  have hz : (s.inserted type index).stamp ⟨s.nextAddress, type⟩ = 0 := by
    simp [stamp, inserted]
  obtain ⟨hn', hl', hc''⟩ := touch_newest (hne.congr hs)
    (fun a ha => (hs a ha).trans_le (hle a ha)) (fun a ha _ => had a ha)
    (fun _ => hz) (by omega)
  rw [erase_of_not_mem hn] at hn' hl'
  refine ⟨_, ?_, rfl, hn', hl', ?_⟩
  · rw [touch_list]
    exact hp.cons _
  · rw [touch_touches]
    exact hc''.trans (Nat.succ_le_succ hc')

lemma Consistent.add (type : DistillerType) :
    ∃ added s', s.add type = some (added, s') ∧ s.Follows s' (.add type) := by
  obtain ⟨found, hfo, hso, hn⟩ := h.findOne_spec type
  cases found with
  | some e =>
    obtain ⟨he, rfl⟩ := hso e rfl
    refine ⟨true, s, by simp [NegativeCache.add, hfo], h,
      fun type' hmem => .inr ⟨nofun, hmem⟩, fun _ => le_rfl, ?_⟩
    intro types ho _
    have hmem : e.type ∈ types := (ho nofun).mem_iff.mp (mem_map_of_mem he)
    rw [reference, Lru.add, if_pos hmem]
    exact ho nofun
  | none =>
    have hnw := hn rfl
    have hno : ∀ types, s.Ordered types → type ∉ types := by
      intro types ho hmem
      obtain ⟨e, he, ht⟩ := mem_map.mp (ho.mem_iff.mpr hmem)
      exact hnw e he ht
    have hl : ∀ types, s.Ordered types → types.length = s.list.length := by
      rintro types ⟨es, hp, rfl, _⟩
      rw [length_map, hp.length_eq]
    by_cases hf : s.list.length ≥ MaxNCSize
    · have hne : s.list ≠ [] := by
        intro hni
        rw [hni] at hf
        exact absurd hf (by decide)
      obtain ⟨s1, hev, h1, ht1, hs, ho1⟩ := h.evict hne
      obtain ⟨s2, hi, h2, hto, ht2, ho2⟩ := h1.insert_follows fun e he => hnw e (hs he)
      refine ⟨true, s2, ?_, h2, ?_, fun _ => by omega, ?_⟩
      · simp [NegativeCache.add, hfo, if_pos hf, hev, hi]
      · intro type' hmem
        rw [ht2] at hmem
        rcases mem_cons.mp hmem with rfl | hmem
        · exact .inl rfl
        · exact .inr ⟨nofun, map_subset Entry.type hs hmem⟩
      · intro types ho hlt
        have hor := ho nofun
        rw [reference, Lru.add, if_neg (hno types hor), if_pos (hl types hor ▸ hf)]
        exact ho2 _ (ho1 types hor) hlt
    · obtain ⟨s2, hi, h2, hto, ht2, ho2⟩ := h.insert_follows hnw
      refine ⟨true, s2, ?_, h2, ?_, fun _ => by omega, ?_⟩
      · simp [NegativeCache.add, hfo, if_neg hf, hi]
      · intro type' hmem
        rw [ht2] at hmem
        rcases mem_cons.mp hmem with rfl | hmem
        · exact .inl rfl
        · exact .inr ⟨nofun, hmem⟩
      · intro types ho hlt
        have hor := ho nofun
        rw [reference, Lru.add, if_neg (hno types hor), if_neg (hl types hor ▸ hf)]
        exact ho2 _ hor hlt

lemma Consistent.flushIndex {list : List Entry} (hl : s.list = list) :
    ∃ index, flushIndex list s.index = some index ∧
      Consistent { s with list := [], index := index } := by
  induction list generalizing s with
  | nil =>
    refine ⟨s.index, rfl, ?_⟩
    rw [← hl]
    exact h
  | cons e list ih =>
    obtain ⟨index₁, hr, h1⟩ := h.remove e
    obtain ⟨index, hre, h'⟩ := ih h1 (by rw [hl, erase_cons_head])
    refine ⟨index, ?_, h'⟩
    rw [flushIndex, hr]
    exact hre

lemma Consistent.flush : ∃ s', s.flush = some s' ∧ s.Follows s' .flush := by
  obtain ⟨index, hf, h'⟩ := h.flushIndex rfl
  refine ⟨{ s with list := [], index := index, touchCounter := 0, touches := 0 }, ?_, { h' with },
    fun type hmem => (by cases hmem), fun hne => absurd rfl hne, fun types _ _ => ?_⟩
  · rw [NegativeCache.flush, hf]
    rfl
  · exact ⟨[], Perm.refl [], rfl, Pairwise.nil, by simp, le_rfl⟩

/-- **One operation.** -/
theorem Consistent.next (op : Op) : ∃ s', s.next op = some s' ∧ s.Follows s' op := by
  cases op with
  | add type =>
    obtain ⟨added, s', ha, hf⟩ := h.add type
    exact ⟨s', by rw [NegativeCache.next, ha]; rfl, hf⟩
  | isThere type =>
    obtain ⟨found, s', hfo, hf⟩ := h.isThere type
    exact ⟨s', by rw [NegativeCache.next, hfo]; rfl, hf⟩
  | flush => exact h.flush

end

/-! ## Every sequence of operations -/

lemma Consistent.execute (h : s.Consistent) {types : List DistillerType}
    (ho : s.touches < 2 ^ 32 → s.Ordered types) (ops : List Op) :
    ∃ s', s.execute ops = some s' ∧ s'.Consistent ∧
      (s'.touches < 2 ^ 32 → s'.Ordered (ops.foldl reference types)) := by
  induction ops generalizing s types with
  | nil => exact ⟨s, rfl, h, ho⟩
  | cons op ops ih =>
    obtain ⟨s1, hn, hf⟩ := h.next op
    have ho1 : s1.touches < 2 ^ 32 → s1.Ordered (reference types op) := by
      intro hlt
      refine hf.ordered types (fun hne => ho ?_) hlt
      exact (hf.touches_le hne).trans_lt hlt
    obtain ⟨s', hr, h', ho'⟩ := ih hf.consistent ho1
    refine ⟨s', ?_, h', ho'⟩
    rw [execute, foldlM_cons, hn]
    exact hr

/-- **The negative cache is an LRU set**: after any operations the list and the index hold the same
entries, no two of the same type; and if `Touch_` was called fewer than `2 ^ 32` times since the
last `Flush`, the types are those of the reference. -/
theorem lru_of_execute (ops : List Op) :
    ∃ s, new.execute ops = some s ∧ s.index.entries.Perm s.list ∧ (s.list.map Entry.type).Nodup ∧
      (s.touches < 2 ^ 32 →
        ∀ type, type ∈ s.list.map Entry.type ↔ type ∈ ops.foldl reference []) := by
  have ho : new.Ordered [] := ⟨[], Perm.refl [], rfl, Pairwise.nil, by simp, le_rfl⟩
  obtain ⟨s, hrun, h, ho'⟩ := consistent_new.execute (fun _ => ho) ops
  exact ⟨s, hrun, h.same, h.types_nodup, fun hlt type => (ho' hlt).mem_iff⟩

/-- Two types are entered and the first of them is looked up: it comes first then. -/
def threeOps : List Op :=
  [.add ⟨[97], by decide, by decide⟩, .add ⟨[98], by decide, by decide⟩,
    .isThere ⟨[97], by decide, by decide⟩]

theorem lru_of_execute_threeOps :
    threeOps.foldl reference [] = [⟨[97], by decide, by decide⟩, ⟨[98], by decide, by decide⟩] ∧
      ∃ s, new.execute threeOps = some s ∧ s.touches = 3 ∧
        ∀ type, type ∈ s.list.map Entry.type ↔ type ∈ threeOps.foldl reference [] := by
  obtain ⟨s, hrun, _, _, hty⟩ := lru_of_execute threeOps
  have ht : (new.execute threeOps).map (·.touches) = some 3 := by decide
  rw [hrun] at ht
  have hto : s.touches = 3 := Option.some.inj ht
  exact ⟨by decide, s, hrun, hto, hty (by omega)⟩

end NegativeCache

end Glomop.Cache
