import Mathlib

/-!
# Lists with distinct keys

`Keyed key` is a list of entries no two of which have the same key: what a table with a unique index
holds.  That the keys are distinct is a field, so every operation comes with the proof that it keeps
them so.

An operation is described by what it does to `lookup`; the order of the entries never enters.
-/

namespace Glomop.Lib

open List

@[ext] structure Keyed {α κ : Type} (key : α → κ) where
  entries : List α
  nodup : (entries.map key).Nodup

namespace Keyed

variable {α κ : Type} [DecidableEq κ] {key : α → κ} (s : Keyed key)

def empty : Keyed key := ⟨[], nodup_nil⟩

def lookup (k : κ) : Option α := s.entries.find? fun a => key a = k

variable {a : α} {k : κ}

lemma lookup_eq_some_iff {s : Keyed key} : s.lookup k = some a ↔ a ∈ s.entries ∧ key a = k := by
  obtain ⟨entries, hn⟩ := s
  unfold lookup
  dsimp only
  induction entries with
  | nil => simp
  | cons b entries ih =>
    obtain ⟨hb, he⟩ := nodup_cons.mp hn
    by_cases hkey : key b = k
    · rw [find?_cons_of_pos (by simpa using hkey), Option.some.injEq]
      constructor
      · rintro rfl
        exact ⟨.head _, hkey⟩
      · rintro ⟨hmem, ha⟩
        rcases mem_cons.mp hmem with rfl | hmem
        · rfl
        · exact absurd (mem_map.mpr ⟨a, hmem, ha.trans hkey.symm⟩) hb
    · rw [find?_cons_of_neg (by simpa using hkey), ih he, mem_cons]
      refine ⟨fun h => ⟨.inr h.1, h.2⟩, ?_⟩
      rintro ⟨rfl | hmem, ha⟩
      · exact absurd ha hkey
      · exact ⟨hmem, ha⟩

lemma lookup_eq_none_iff {s : Keyed key} : s.lookup k = none ↔ ∀ a ∈ s.entries, key a ≠ k := by
  simp [lookup]

lemma lookup_of_mem {s : Keyed key} (h : a ∈ s.entries) : s.lookup (key a) = some a :=
  lookup_eq_some_iff.mpr ⟨h, rfl⟩

def map (f : α → α) (hf : ∀ a, key (f a) = key a) : Keyed key where
  entries := s.entries.map f
  nodup := by
    have hkeys : (s.entries.map f).map key = s.entries.map key := by
      rw [map_map]
      exact map_congr_left fun a _ => hf a
    rw [hkeys]
    exact s.nodup

@[simp] lemma lookup_map (f : α → α) (hf : ∀ a, key (f a) = key a) (k : κ) :
    (s.map f hf).lookup k = (s.lookup k).map f := by
  simp [lookup, map, find?_map, hf]

def filter (p : α → Bool) : Keyed key where
  entries := s.entries.filter p
  nodup := s.nodup.sublist (filter_sublist.map key)

@[simp] lemma lookup_filter (p : α → Bool) (k : κ) :
    (s.filter p).lookup k = (s.lookup k).filter p := by
  ext a
  rw [lookup_eq_some_iff, Option.filter_eq_some_iff, lookup_eq_some_iff]
  simp only [filter, mem_filter]
  tauto

def insert (a : α) (h : s.lookup (key a) = none) : Keyed key where
  entries := a :: s.entries
  nodup := by
    refine nodup_cons.mpr ⟨fun hmem => ?_, s.nodup⟩
    obtain ⟨b, hb, hkey⟩ := mem_map.mp hmem
    exact lookup_eq_none_iff.mp h b hb hkey

@[simp] lemma lookup_insert (a : α) (h : s.lookup (key a) = none) (k : κ) :
    (s.insert a h).lookup k = if key a = k then some a else s.lookup k := by
  by_cases hkey : key a = k <;> simp [lookup, insert, hkey]

def erase (k : κ) : Keyed key := s.filter fun a => decide (key a ≠ k)

@[simp] lemma lookup_erase (k k' : κ) :
    (s.erase k).lookup k' = if k' = k then none else s.lookup k' := by
  rw [erase, lookup_filter]
  cases hf : s.lookup k' with
  | none => simp
  | some a =>
    have hkey := (lookup_eq_some_iff.mp hf).2
    by_cases hk : k' = k <;> simp [Option.filter, hkey, hk]

end Keyed

end Glomop.Lib
