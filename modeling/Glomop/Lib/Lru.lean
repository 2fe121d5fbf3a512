import Mathlib

/-!
# Sets that forget what was least recently used

The reference is a list with the most recently used key first.  A cache more often keeps a time
stamp with each entry: `Newest stamp` says that a list of entries has the newest first.  The entry
with the smallest stamp is then the last one, and an entry that gets a new stamp belongs at the
front.
-/

namespace Glomop.Lib

open List

/-! ## The reference -/

namespace Lru

variable {κ : Type} [DecidableEq κ]

/-- Enter a key.  One that is there already is left where it is. -/
def add (capacity : ℕ) (keys : List κ) (k : κ) : List κ :=
  if k ∈ keys then keys
  else k :: if capacity ≤ keys.length then keys.dropLast else keys

/-- Look for a key, and move it to the front if it is there. -/
def lookup (keys : List κ) (k : κ) : List κ := if k ∈ keys then k :: keys.erase k else keys

end Lru

/-! ## Time stamps -/

variable {ε : Type}

variable {e : ε}

lemma map_erase_of_nodup {κ : Type} [DecidableEq κ] [DecidableEq ε] {key : ε → κ} {es : List ε}
    (h : (es.map key).Nodup) (he : e ∈ es) : (es.erase e).map key = (es.map key).erase (key e) := by
  induction es with
  | nil => cases he
  | cons a es ih =>
    obtain ⟨ha, hes⟩ := nodup_cons.mp h
    rcases mem_cons.mp he with rfl | he
    · rw [erase_cons_head, map_cons, erase_cons_head]
    · have hkey : key a ≠ key e := fun heq => ha (heq ▸ mem_map_of_mem he)
      have hne : a ≠ e := fun heq => hkey (congrArg key heq)
      rw [erase_cons_tail (by simpa using hne), map_cons, map_cons,
        erase_cons_tail (by simpa using hkey), ih hes he]

def oldest (stamp : ε → ℕ) (e : ε) (es : List ε) : ε :=
  es.foldl (fun oldest e => if stamp e < stamp oldest then e else oldest) e

lemma oldest_spec (stamp : ε → ℕ) (e : ε) (es : List ε) :
    oldest stamp e es ∈ e :: es ∧ ∀ a ∈ e :: es, stamp (oldest stamp e es) ≤ stamp a := by
  induction es generalizing e with
  | nil => simp [oldest]
  | cons b es ih =>
    have hf : oldest stamp e (b :: es) = oldest stamp (if stamp b < stamp e then b else e) es := rfl
    obtain ⟨hmem, hle⟩ := ih (if stamp b < stamp e then b else e)
    rw [hf]
    by_cases hlt : stamp b < stamp e
    · rw [if_pos hlt] at hmem hle ⊢
      refine ⟨.tail e hmem, fun a ha => ?_⟩
      rcases mem_cons.mp ha with rfl | ha
      · exact (hle b (.head _)).trans hlt.le
      · exact hle a ha
    · rw [if_neg hlt] at hmem hle ⊢
      refine ⟨?_, fun a ha => ?_⟩
      · rcases mem_cons.mp hmem with heq | hmem
        · rw [heq]
          exact .head _
        · exact .tail e (.tail b hmem)
      · rcases mem_cons.mp ha with rfl | ha
        · exact hle a (.head _)
        · rcases mem_cons.mp ha with rfl | ha
          · exact (hle e (.head _)).trans (Nat.not_lt.mp hlt)
          · exact hle a (.tail e ha)

def Newest (stamp : ε → ℕ) (es : List ε) : Prop := es.Pairwise fun a b => stamp b < stamp a

namespace Newest

variable {stamp stamp' : ε → ℕ} {es : List ε}

lemma congr (h : Newest stamp es) (hs : ∀ a ∈ es, stamp' a = stamp a) : Newest stamp' es := by
  refine Pairwise.imp_of_mem (fun {a b} ha hb hlt => ?_) h
  rw [hs a ha, hs b hb]
  exact hlt

lemma nodup (h : Newest stamp es) : es.Nodup := Pairwise.imp (fun hlt heq => (heq ▸ hlt).ne rfl) h

variable [DecidableEq ε]

/-- **An entry that gets a new stamp** belongs at the front. -/
theorem touch (h : Newest stamp es) (ho : ∀ a ∈ es, a ≠ e → stamp' a = stamp a)
    (hn : ∀ a ∈ es, a ≠ e → stamp a < stamp' e) : Newest stamp' (e :: es.erase e) := by
  have hmem : ∀ a ∈ es.erase e, a ∈ es ∧ a ≠ e := fun a ha =>
    ⟨mem_of_mem_erase ha, (h.nodup.mem_erase_iff.mp ha).1⟩
  have he : Newest stamp' (es.erase e) :=
    congr (h.sublist erase_sublist) fun a ha => ho a (hmem a ha).1 (hmem a ha).2
  refine pairwise_cons.mpr ⟨fun a ha => ?_, he⟩
  obtain ⟨ha, hne⟩ := hmem a ha
  rw [ho a ha hne]
  exact hn a ha hne

lemma eq_cons_erase (h : Newest stamp es) (he : e ∈ es) (hn : ∀ a ∈ es, stamp a ≤ stamp e) :
    es = e :: es.erase e := by
  cases es with
  | nil => cases he
  | cons a es =>
    rcases mem_cons.mp he with rfl | he
    · rw [erase_cons_head]
    · have hlt := (pairwise_cons.mp h).1 e he
      exact absurd (hn a (.head _)) (Nat.not_le.mpr hlt)

/-- **The entry with the smallest stamp** is the last. -/
theorem dropLast_eq_erase (h : Newest stamp es) (he : e ∈ es) (hold : ∀ a ∈ es, stamp e ≤ stamp a) :
    es.dropLast = es.erase e := by
  induction es with
  | nil => cases he
  | cons a es ih =>
    obtain ⟨ha, hes⟩ := pairwise_cons.mp h
    rcases mem_cons.mp he with rfl | he
    · -- nothing follows the smallest
      cases es with
      | nil => simp
      | cons b es =>
        have hlt := ha b (.head _)
        have hle := hold b (.tail e (.head _))
        exact absurd hle (Nat.not_le.mpr hlt)
    · have hne : a ≠ e := fun heq => (heq ▸ ha e he).ne rfl
      rw [dropLast_cons_of_ne_nil (ne_nil_of_mem he), erase_cons_tail (by simpa using hne),
        ih hes he fun b hb => hold b (.tail a hb)]

end Newest

end Glomop.Lib
