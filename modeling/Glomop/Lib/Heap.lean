import Mathlib

/-!
# A heap of objects

`Heap α` holds the objects of one C++ class.  Addresses are handed out in order and never reused, so
`h.cell i` is `none` from the deletion of `i` on.  Every `delete` is logged in `freed`, whether or
not the object was still there.  `Heap.total f` adds up a quantity over the objects that exist.
-/

namespace Glomop.Lib

open Function Option
open List hiding set

@[ext] structure Heap (α : Type) where
  cell : ℕ → Option α
  next : ℕ
  freed : List ℕ
  beyond : ∀ i, next ≤ i → cell i = none

namespace Heap

variable {α : Type} {M : Type} [AddCommMonoid M]

def empty : Heap α := ⟨fun _ => none, 0, [], fun _ _ => rfl⟩

/-- `new`: the object is put at address `h.next`. -/
def alloc (h : Heap α) (a : α) : Heap α where
  cell := Function.update h.cell h.next (some a)
  next := h.next + 1
  freed := h.freed
  beyond := by
    intro i hi
    rw [update_of_ne (by omega)]
    exact h.beyond i (by omega)

/-- Assign to an object.  Nothing happens where there is none. -/
def set (h : Heap α) (i : ℕ) (a : α) : Heap α where
  cell := fun j => if j = i then (h.cell i).map fun _ => a else h.cell j
  next := h.next
  freed := h.freed
  beyond := by
    intro j hj
    by_cases hji : j = i
    · rw [if_pos hji, ← hji, h.beyond j hj]
      rfl
    · rw [if_neg hji]
      exact h.beyond j hj

/-- `delete`. -/
def free (h : Heap α) (i : ℕ) : Heap α where
  cell := Function.update h.cell i none
  next := h.next
  freed := i :: h.freed
  beyond := by
    intro j hj
    by_cases hji : j = i
    · rw [hji, update_self]
    · rw [update_of_ne hji]
      exact h.beyond j hj

def Live (h : Heap α) (i : ℕ) : Prop := (h.cell i).isSome

instance (h : Heap α) (i : ℕ) : Decidable (h.Live i) := inferInstanceAs (Decidable (_ = true))

section Cells

variable {h : Heap α} {i j : ℕ} {a b : α}

lemma live_iff : h.Live i ↔ ∃ a, h.cell i = some a := isSome_iff_exists

lemma live_of_cell (hc : h.cell i = some a) : h.Live i := live_iff.mpr ⟨a, hc⟩

lemma lt_next_of_cell (hc : h.cell i = some a) : i < h.next := by
  by_contra hle
  rw [h.beyond i (by omega)] at hc
  cases hc

lemma lt_next_of_live (hl : h.Live i) : i < h.next := by
  obtain ⟨a, ha⟩ := live_iff.mp hl
  exact lt_next_of_cell ha

@[simp] lemma alloc_next : (h.alloc a).next = h.next + 1 := rfl

@[simp] lemma set_next : (h.set i a).next = h.next := rfl

@[simp] lemma free_next : (h.free i).next = h.next := rfl

@[simp] lemma alloc_freed : (h.alloc a).freed = h.freed := rfl

@[simp] lemma set_freed : (h.set i a).freed = h.freed := rfl

@[simp] lemma free_freed : (h.free i).freed = i :: h.freed := rfl

@[simp] lemma alloc_cell_next : (h.alloc a).cell h.next = some a := update_self ..

lemma alloc_cell_of_ne (hne : j ≠ h.next) : (h.alloc a).cell j = h.cell j := update_of_ne hne ..

lemma alloc_cell_of_cell (hc : h.cell j = some b) : (h.alloc a).cell j = some b := by
  rw [alloc_cell_of_ne (lt_next_of_cell hc).ne, hc]

lemma alloc_cell_cases (hc : (h.alloc a).cell j = some b) :
    (j = h.next ∧ b = a) ∨ h.cell j = some b := by
  by_cases hj : j = h.next
  · rw [hj, alloc_cell_next] at hc
    exact .inl ⟨hj, (some.inj hc).symm⟩
  · rw [alloc_cell_of_ne hj] at hc
    exact .inr hc

lemma set_cell : (h.set i a).cell j = if j = i then (h.cell i).map (fun _ => a) else h.cell j := rfl

lemma set_cell_self (hc : h.cell i = some b) : (h.set i a).cell i = some a := by
  simp [set, hc]

lemma set_cell_of_ne (hne : j ≠ i) : (h.set i a).cell j = h.cell j := if_neg hne

lemma set_cell_cases (hc : (h.set i a).cell j = some b) :
    (j = i ∧ b = a ∧ h.Live i) ∨ (j ≠ i ∧ h.cell j = some b) := by
  by_cases hj : j = i
  · refine .inl ⟨hj, ?_⟩
    rw [hj] at hc
    obtain ⟨c, hci, hca⟩ : ∃ c, h.cell i = some c ∧ a = b := by simpa [set] using hc
    exact ⟨hca.symm, live_of_cell hci⟩
  · rw [set_cell_of_ne hj] at hc
    exact .inr ⟨hj, hc⟩

@[simp] lemma set_live : (h.set i a).Live j ↔ h.Live j := by
  by_cases hj : j = i
  · simp [Live, set, hj]
  · rw [Live, Live, set_cell_of_ne hj]

@[simp] lemma free_cell_self : (h.free i).cell i = none := update_self ..

lemma free_cell_of_ne (hne : j ≠ i) : (h.free i).cell j = h.cell j := update_of_ne hne ..

lemma free_cell_cases (hc : (h.free i).cell j = some b) : j ≠ i ∧ h.cell j = some b := by
  by_cases hj : j = i
  · rw [hj, free_cell_self] at hc
    cases hc
  · rw [free_cell_of_ne hj] at hc
    exact ⟨hj, hc⟩

lemma free_live_iff : (h.free i).Live j ↔ j ≠ i ∧ h.Live j := by
  by_cases hj : j = i
  · simp [Live, hj]
  · rw [Live, Live, free_cell_of_ne hj]
    simp [hj]

lemma free_set : (h.set i a).free i = h.free i := by
  ext1
  · funext j
    by_cases hj : j = i
    · rw [hj, free_cell_self, free_cell_self]
    · rw [free_cell_of_ne hj, free_cell_of_ne hj, set_cell_of_ne hj]
  · rfl
  · rfl

lemma set_eq_self (hc : h.cell i = some a) : h.set i a = h := by
  ext1
  · funext j
    by_cases hj : j = i
    · rw [hj, set_cell_self hc, hc]
    · rw [set_cell_of_ne hj]
  · rfl
  · rfl

lemma alloc_live_iff : (h.alloc a).Live j ↔ j = h.next ∨ h.Live j := by
  by_cases hj : j = h.next
  · simp [Live, hj]
  · rw [Live, Live, alloc_cell_of_ne hj]
    simp [hj]

end Cells

/-! ## What holds of every object -/

def All (h : Heap α) (P : α → Prop) : Prop := ∀ i a, h.cell i = some a → P a

section All

variable {h : Heap α} {P : α → Prop} {i : ℕ} {a : α}

lemma All.alloc (hal : h.All P) (ha : P a) : (h.alloc a).All P := by
  intro j b hb
  rcases alloc_cell_cases hb with ⟨_, rfl⟩ | hb
  · exact ha
  · exact hal j b hb

lemma All.set (hal : h.All P) (ha : P a) : (h.set i a).All P := by
  intro j b hb
  rcases set_cell_cases hb with ⟨_, rfl, _⟩ | ⟨_, hb⟩
  · exact ha
  · exact hal j b hb

lemma All.free (ha : h.All P) : (h.free i).All P := by
  intro j b hb
  exact ha j b (free_cell_cases hb).2

end All

/-! ## Lists of all objects -/

structure ListedIn (h : Heap α) (is : List ℕ) : Prop where
  nodup : is.Nodup
  mem_iff : ∀ i, i ∈ is ↔ h.Live i

namespace ListedIn

variable {h : Heap α} {is : List ℕ} {i : ℕ} {a : α}

lemma empty : (empty : Heap α).ListedIn [] := by
  refine ⟨nodup_nil, fun i => ?_⟩
  show i ∈ ([] : List ℕ) ↔ (none : Option α).isSome
  simp

section

variable (hl : h.ListedIn is)

include hl

lemma mem_of_cell (hc : h.cell i = some a) : i ∈ is := (hl.mem_iff i).mpr (live_of_cell hc)

lemma next_not_mem : h.next ∉ is := by
  intro hmem
  exact lt_irrefl _ (lt_next_of_live ((hl.mem_iff _).mp hmem))

lemma add : (h.alloc a).ListedIn (h.next :: is) where
  nodup := nodup_cons.mpr ⟨hl.next_not_mem, hl.nodup⟩
  mem_iff j := by rw [mem_cons, alloc_live_iff, hl.mem_iff]

lemma remove (i : ℕ) : (h.free i).ListedIn (is.erase i) where
  nodup := hl.nodup.erase i
  mem_iff j := by rw [hl.nodup.mem_erase_iff, free_live_iff, hl.mem_iff]

lemma assign : (h.set i a).ListedIn is where
  nodup := hl.nodup
  mem_iff j := by rw [set_live, hl.mem_iff]

lemma renew (hi : i ∈ is) : h.ListedIn (i :: is.erase i) where
  nodup := nodup_cons.mpr ⟨hl.nodup.not_mem_erase, hl.nodup.erase i⟩
  mem_iff j := by
    rw [← hl.mem_iff j]
    exact (perm_cons_erase hi).symm.mem_iff

lemma reject : ((h.alloc a).free h.next).ListedIn is where
  nodup := hl.nodup
  mem_iff j := by
    rw [free_live_iff, alloc_live_iff, hl.mem_iff]
    constructor
    · intro hli
      exact ⟨(lt_next_of_live hli).ne, .inr hli⟩
    · rintro ⟨hne, rfl | hli⟩
      · exact (hne rfl).elim
      · exact hli

end

end ListedIn

/-! ## Deleting once -/

structure FreedOnce (h : Heap α) : Prop where
  nodup : h.freed.Nodup
  gone : ∀ i ∈ h.freed, i < h.next ∧ h.cell i = none

namespace FreedOnce

variable {h : Heap α} {i : ℕ} {a : α}

lemma empty : (empty : Heap α).FreedOnce := ⟨nodup_nil, nofun⟩

lemma alloc (hf : h.FreedOnce) : (h.alloc a).FreedOnce := by
  refine ⟨hf.nodup, fun i hi => ?_⟩
  obtain ⟨hlt, hg⟩ := hf.gone i hi
  exact ⟨Nat.lt_succ_of_lt hlt, (alloc_cell_of_ne hlt.ne).trans hg⟩

lemma set (hf : h.FreedOnce) : (h.set i a).FreedOnce := by
  refine ⟨hf.nodup, fun j hj => ?_⟩
  obtain ⟨hlt, hg⟩ := hf.gone j hj
  refine ⟨hlt, ?_⟩
  by_cases hji : j = i
  · rw [hji] at hg ⊢
    simp [Heap.set, hg]
  · rw [set_cell_of_ne hji, hg]

lemma free (hf : h.FreedOnce) (hi : h.Live i) : (h.free i).FreedOnce := by
  constructor
  · refine nodup_cons.mpr ⟨fun hmem => ?_, hf.nodup⟩
    obtain ⟨a, ha⟩ := live_iff.mp hi
    cases ha.symm.trans (hf.gone i hmem).2
  · intro j hj
    rcases mem_cons.mp hj with rfl | hj
    · have hlt : j < h.next := lt_next_of_live hi
      exact ⟨hlt, free_cell_self⟩
    · obtain ⟨hlt, hg⟩ := hf.gone j hj
      refine ⟨hlt, ?_⟩
      by_cases hji : j = i
      · rw [hji, free_cell_self]
      · rw [free_cell_of_ne hji, hg]

end FreedOnce

/-! ## Heaps that agree

Two heaps that hold the same objects, up to what `f` does not see of them. -/

/-- The same addresses are in use and were deleted, and `f` sees the same objects there. -/
structure Agree {β : Type} (f : α → β) (h h' : Heap α) : Prop where
  next_eq : h'.next = h.next
  freed_eq : h'.freed = h.freed
  cell_eq : ∀ i, (h'.cell i).map f = (h.cell i).map f

namespace Agree

variable {β : Type} {f : α → β} {h h1 h' : Heap α} {i : ℕ} {a b : α}

lemma refl (h : Heap α) : Agree f h h := ⟨rfl, rfl, fun _ => rfl⟩

lemma trans (h12 : Agree f h h1) (h23 : Agree f h1 h') : Agree f h h' where
  next_eq := h23.next_eq.trans h12.next_eq
  freed_eq := h23.freed_eq.trans h12.freed_eq
  cell_eq i := (h23.cell_eq i).trans (h12.cell_eq i)

lemma set (hc : h.cell i = some a) (hf : f b = f a) : Agree f h (h.set i b) := by
  refine ⟨rfl, rfl, fun j => ?_⟩
  by_cases hj : j = i
  · rw [hj, set_cell_self hc, hc, map_some, map_some, hf]
  · rw [set_cell_of_ne hj]

lemma cell (hag : Agree f h h') (hc : h'.cell i = some b) : ∃ a, h.cell i = some a ∧ f b = f a := by
  have heq := hag.cell_eq i
  rw [hc, map_some] at heq
  obtain ⟨a, ha, hf⟩ := map_eq_some_iff.mp heq.symm
  exact ⟨a, ha, hf.symm⟩

lemma symm (hag : Agree f h h') : Agree f h' h :=
  ⟨hag.next_eq.symm, hag.freed_eq.symm, fun i => (hag.cell_eq i).symm⟩

lemma live_iff (hag : Agree f h h') : h'.Live i ↔ h.Live i := by
  rw [Live, Live, ← isSome_map (f := f), hag.cell_eq, isSome_map]

lemma freedOnce (hag : Agree f h h') (hf : h.FreedOnce) : h'.FreedOnce := by
  refine ⟨hag.freed_eq ▸ hf.nodup, fun i hi => ?_⟩
  rw [hag.freed_eq] at hi
  obtain ⟨hlt, hg⟩ := hf.gone i hi
  refine ⟨hag.next_eq ▸ hlt, ?_⟩
  have heq := hag.cell_eq i
  rw [hg] at heq
  exact map_eq_none_iff.mp heq

end Agree

/-! ## Following lists of pointers

A list of pointers is walked by dereferencing each in turn; the walk is `none`, a fault, when it
meets a pointer to a deleted object. -/

def gather (h : Heap α) : List ℕ → Option (List α)
  | [] => some []
  | i :: is => do
    let a ← h.cell i
    let as ← h.gather is
    some (a :: as)

def findFirst (h : Heap α) (p : α → Bool) : List ℕ → Option (Option ℕ)
  | [] => some none
  | i :: is => do
    let a ← h.cell i
    if p a then some (some i) else h.findFirst p is

def select (h : Heap α) (p : α → Bool) : List ℕ → Option (List ℕ)
  | [] => some []
  | i :: is => do
    let a ← h.cell i
    let js ← h.select p is
    some (if p a then i :: js else js)

section Walks

variable {h : Heap α} {p : α → Bool} {is : List ℕ} {i : ℕ}

lemma exists_gather (hl : ∀ i ∈ is, h.Live i) : ∃ as, h.gather is = some as := by
  induction is with
  | nil => exact ⟨[], rfl⟩
  | cons j js ih =>
    obtain ⟨a, ha⟩ := live_iff.mp (hl j (.head _))
    obtain ⟨as, has⟩ := ih fun i hi => hl i (.tail _ hi)
    refine ⟨a :: as, ?_⟩
    rw [gather, ha, has]
    rfl

lemma mem_of_gather {as : List α} (hg : h.gather is = some as) {a : α} (ha : a ∈ as) :
    ∃ i, h.cell i = some a := by
  induction is generalizing as with
  | nil =>
    cases hg
    cases ha
  | cons j js ih =>
    simp only [gather, bind_eq_bind, bind_eq_some_iff] at hg
    obtain ⟨b, hb, bs, hbs, hg⟩ := hg
    cases hg
    rcases mem_cons.mp ha with rfl | ha
    · exact ⟨j, hb⟩
    · exact ih hbs ha

lemma findFirst_eq_some (hf : h.findFirst p is = some (some i)) :
    i ∈ is ∧ ∃ a, h.cell i = some a ∧ p a = true := by
  induction is with
  | nil => simp [findFirst] at hf
  | cons j js ih =>
    obtain ⟨a, ha, hf⟩ := bind_eq_some_iff.mp hf
    split_ifs at hf with hp
    · cases some.inj hf
      exact ⟨.head _, a, ha, hp⟩
    · obtain ⟨hmem, hr⟩ := ih hf
      exact ⟨.tail _ hmem, hr⟩

lemma findFirst_eq_none (hf : h.findFirst p is = some none) {a : α} (hi : i ∈ is)
    (ha : h.cell i = some a) : p a = false := by
  induction is with
  | nil => cases hi
  | cons j js ih =>
    obtain ⟨b, hb, hf⟩ := bind_eq_some_iff.mp hf
    split_ifs at hf with hp
    · cases hf
    · rcases mem_cons.mp hi with rfl | hi
      · cases ha.symm.trans hb
        simpa using hp
      · exact ih hf hi

lemma findFirst_of_live (hl : ∀ i ∈ is, h.Live i) :
    h.findFirst p is = some (is.find? fun i => (h.cell i).any p) := by
  induction is with
  | nil => rfl
  | cons j js ih =>
    obtain ⟨a, ha⟩ := live_iff.mp (hl j (.head _))
    rw [findFirst, ha, List.find?_cons, ha, any_some, ih fun i hi => hl i (.tail _ hi)]
    cases hp : p a with
    | true | false => simp [hp]

lemma select_spec {js : List ℕ} (hs : h.select p is = some js) :
    ∀ j ∈ js, ∃ a, h.cell j = some a ∧ p a = true := by
  induction is generalizing js with
  | nil =>
    cases hs
    exact nofun
  | cons k ks ih =>
    simp only [select, bind_eq_bind, bind_eq_some_iff] at hs
    obtain ⟨a, ha, js', hj', hs⟩ := hs
    cases hs
    split_ifs with hpa
    · intro j hj
      rcases mem_cons.mp hj with rfl | hj
      · exact ⟨a, ha, hpa⟩
      · exact ih hj' j hj
    · exact ih hj'

end Walks

/-! ## What the objects of a list hold

`h.collect f is` puts together what the objects at the addresses `is` hold, where `f` says what one
of them holds. -/

def collect {β : Type} (h : Heap α) (f : α → List β) (is : List ℕ) : List β :=
  is.flatMap fun i => (h.cell i).elim [] f

section Collect

variable {β : Type} {h : Heap α} {f : α → List β} {is : List ℕ} {i : ℕ} {a b : α}

lemma collect_congr {h' : Heap α} (hc : ∀ i ∈ is, h'.cell i = h.cell i) :
    h'.collect f is = h.collect f is :=
  flatMap_congr fun i hi => by rw [hc i hi]

lemma collect_perm (hi : i ∈ is) (hc : h.cell i = some a) :
    (h.collect f is).Perm (f a ++ h.collect f (is.erase i)) := by
  have hp := (perm_cons_erase hi).flatMap_right fun j => (h.cell j).elim [] f
  rw [flatMap_cons, hc] at hp
  exact hp

lemma collect_alloc (hn : h.next ∉ is) :
    (h.alloc a).collect f (h.next :: is) = f a ++ h.collect f is := by
  rw [collect, flatMap_cons, alloc_cell_next]
  refine congrArg (f a ++ ·) (collect_congr fun j hj => alloc_cell_of_ne ?_)
  rintro rfl
  exact hn hj

lemma collect_set (hn : is.Nodup) (hi : i ∈ is) (hc : h.cell i = some a) :
    ((h.set i b).collect f is).Perm (f b ++ h.collect f (is.erase i)) := by
  refine (collect_perm hi (set_cell_self hc)).trans (List.Perm.of_eq ?_)
  refine congrArg (f b ++ ·) (collect_congr fun j hj => set_cell_of_ne ?_)
  rintro rfl
  exact hn.not_mem_erase hj

lemma collect_free (hn : is.Nodup) (hi : i ∈ is) (hc : h.cell i = some a) :
    (h.collect f is).Perm (f a ++ (h.free i).collect f (is.erase i)) := by
  refine (collect_perm hi hc).trans (List.Perm.of_eq ?_)
  refine congrArg (f a ++ ·) (collect_congr fun j hj => (free_cell_of_ne ?_).symm)
  rintro rfl
  exact hn.not_mem_erase hj

end Collect

/-! ## Adding up over the objects -/

def total (h : Heap α) (f : α → M) : M :=
  ∑ i ∈ Finset.range h.next, (h.cell i).elim 0 f

section Total

variable {h : Heap α} {i : ℕ} {a b : α} {f g : α → M}

@[simp] lemma total_empty : (empty : Heap α).total f = 0 := rfl

lemma total_alloc : (h.alloc a).total f = h.total f + f a := by
  unfold total
  rw [alloc_next, Finset.sum_range_succ, alloc_cell_next]
  refine congrArg (· + f a) (Finset.sum_congr rfl fun j hj => ?_)
  rw [alloc_cell_of_ne (Finset.mem_range.mp hj).ne]

section

variable (hc : h.cell i = some a)

include hc

lemma total_eq_add :
    h.total f = f a + ∑ j ∈ (Finset.range h.next).erase i, (h.cell j).elim 0 f := by
  unfold total
  rw [← Finset.add_sum_erase _ _ (Finset.mem_range.mpr (lt_next_of_cell hc)), hc]
  rfl

lemma total_free : h.total f = f a + (h.free i).total f := by
  rw [total_eq_add hc]
  refine congrArg (f a + ·) ?_
  unfold total
  rw [free_next, ← Finset.add_sum_erase _ _ (Finset.mem_range.mpr (lt_next_of_cell hc)),
    free_cell_self, elim_none, zero_add]
  refine Finset.sum_congr rfl fun j hj => ?_
  rw [free_cell_of_ne (Finset.ne_of_mem_erase hj)]

lemma total_set : (h.set i b).total f + f a = h.total f + f b := by
  rw [total_eq_add hc, total_eq_add (set_cell_self hc), set_next]
  have hr : ∑ j ∈ (Finset.range h.next).erase i, ((h.set i b).cell j).elim 0 f =
      ∑ j ∈ (Finset.range h.next).erase i, (h.cell j).elim 0 f := by
    refine Finset.sum_congr rfl fun j hj => ?_
    rw [set_cell_of_ne (Finset.ne_of_mem_erase hj)]
  rw [hr]
  abel

lemma total_set_of_eq (hf : f b = f a) : (h.set i b).total f = h.total f := by
  rw [total_eq_add hc, total_eq_add (set_cell_self hc), set_next, hf]
  refine congrArg (f a + ·) (Finset.sum_congr rfl fun j hj => ?_)
  rw [set_cell_of_ne (Finset.ne_of_mem_erase hj)]

end

lemma sum_map_eq_total {is : List ℕ} (hl : h.ListedIn is) :
    (is.map fun i => (h.cell i).elim 0 f).sum = h.total f := by
  rw [← sum_toFinset _ hl.nodup, total]
  refine Finset.sum_subset ?_ ?_
  · intro i hi
    exact Finset.mem_range.mpr (lt_next_of_live ((hl.mem_iff i).mp (mem_toFinset.mp hi)))
  · intro i _ hi
    cases hc : h.cell i with
    | none => rfl
    | some a => exact (hi (mem_toFinset.mpr (hl.mem_of_cell hc))).elim

end Total

end Heap

end Glomop.Lib
