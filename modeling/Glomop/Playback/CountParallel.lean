import Glomop.ClientLib.AvlBalance

/-!
# The number of requests in progress

`count_parallel` puts the times at which requests begin and end into a tree, and then counts through
the tree in order.  The tree rejects a time that it has already, so that one of two events at the
same time is lost and every later count is wrong, unless what is lost cancels out
(`count_parallel`).
Source: `count_parallel.c`.
-/

namespace Glomop.Playback

open Glomop.ClientLib Avl List

/-- Seconds and microseconds. -/
abbrev Time := ℕ ×ₗ ℕ

/-- The times of a log entry, in host order.  `logparse.h`. -/
structure LfEntry where
  crs : ℕ
  cru : ℕ
  sls : ℕ
  slu : ℕ
deriving DecidableEq

/-- A time, and whether it is the end of an interval. -/
structure LogTs where
  time : Time
  startOrEnd : Bool
deriving DecidableEq

namespace LfEntry

def start (e : LfEntry) : Time := toLex (e.crs, e.cru)

def finish (e : LfEntry) : Time := toLex (e.sls, e.slu)

/-- An entry that lacks one of its times is passed over. -/
def recorded (e : LfEntry) : Bool :=
  e.crs ≠ 0xFFFFFFFF ∧ e.cru ≠ 0xFFFFFFFF ∧ e.sls ≠ 0xFFFFFFFF ∧ e.slu ≠ 0xFFFFFFFF

/-- What `main` adds to the tree for an entry. -/
def events (e : LfEntry) : List LogTs :=
  if e.recorded then [⟨e.start, false⟩, ⟨e.finish, true⟩] else []

end LfEntry

def tsComparator : Comparator Time where
  compare one two :=
    if (ofLex two).1 < (ofLex one).1 then 1
    else if (ofLex one).1 < (ofLex two).1 then -1
    else if (ofLex two).2 < (ofLex one).2 then 1
    else if (ofLex one).2 < (ofLex two).2 then -1
    else 0
  pos_iff one two := by
    rw [Prod.Lex.lt_iff]
    split_ifs <;> omega
  neg_iff one two := by
    rw [Prod.Lex.lt_iff]
    split_ifs <;> omega

/-- The tree, whose keys are the part of an entry that `tsComparator` reads, and the other part of
the entry of each key. -/
structure TimestampTree where
  tree : State Time
  startOrEnd : Time → Bool

namespace TimestampTree

def add (s : TimestampTree) (entry : LogTs) : Option TimestampTree :=
  match Avl.add tsComparator 0 entry.time false s.tree with
  | some (some code, tree) => some ⟨tree, if code = 0 then
      Function.update s.startOrEnd entry.time entry.startOrEnd else s.startOrEnd⟩
  | _ => none

/-- The entries in the order in which `treeDump` visits them. -/
def entries (s : TimestampTree) : List LogTs := (s.tree.keys 0).map fun t => ⟨t, s.startOrEnd t⟩

end TimestampTree

/-- The entries that `main` hands to `treeDump`, in order, unless the process has ended. -/
def dumped (log : List LfEntry) : Option (List LogTs) :=
  ((log.flatMap LfEntry.events).foldlM TimestampTree.add ⟨.start, fun _ => false⟩).map
    TimestampTree.entries

/-- The static variable `nump` after the entries that `treeDump` has visited so far. -/
def nump (visited : List LogTs) : ℤ :=
  visited.foldl (fun n next => if next.startOrEnd then n - 1 else n + 1) 0

/-! ## The count -/

def started (log : List LfEntry) (t : Time) : ℕ := log.countP fun e => e.recorded && e.start ≤ t

def ended (log : List LfEntry) (t : Time) : ℕ := log.countP fun e => e.recorded && e.finish ≤ t

/-- What an event adds to the count. -/
def LogTs.sign (e : LogTs) : ℤ := if e.startOrEnd then -1 else 1

/-- What the events at a time add, and the first of them, which is the one that the tree keeps. -/
def net (es : List LogTs) (t : Time) : ℤ := ((es.filter (·.time = t)).map LogTs.sign).sum

def kept (es : List LogTs) (t : Time) : ℤ := (es.find? (·.time = t)).elim 0 LogTs.sign

variable {s : TimestampTree} {e : LogTs} {es l : List LogTs} {t : Time} {log : List LfEntry}

lemma nump_eq (l : List LogTs) : nump l = (l.map LogTs.sign).sum := by
  induction l using reverseRecOn with
  | nil => rfl
  | append_singleton l e ih =>
    rw [nump, foldl_concat, ← nump, ih, map_append, sum_append, map_singleton, sum_singleton,
      LogTs.sign]
    split_ifs <;> rfl

/-- The events are grouped by their times. -/
lemma sum_filter (p : Time → Prop) [DecidablePred p] {times : Finset Time}
    (ht : ∀ e ∈ es, e.time ∈ times) :
    ((es.filter fun e => p e.time).map LogTs.sign).sum = ∑ t ∈ times with p t, net es t := by
  induction es with
  | nil => simp [net]
  | cons e es ih =>
    obtain ⟨he, ht⟩ := forall_mem_cons.mp ht
    have hn (t : Time) : net (e :: es) t = (if e.time = t then e.sign else 0) + net es t := by
      by_cases heq : e.time = t <;> simp [net, heq]
    simp only [hn, Finset.sum_add_distrib, Finset.sum_ite_eq, Finset.mem_filter, he, true_and,
      ← ih ht]
    by_cases hp : p e.time <;> simp [hp]

lemma sum_events (t : Time) :
    (((log.flatMap LfEntry.events).filter (·.time ≤ t)).map LogTs.sign).sum =
      (started log t : ℤ) - ended log t := by
  induction log with
  | nil => rfl
  | cons e log ih =>
    rw [flatMap_cons, filter_append, map_append, sum_append, ih, started, started, ended, ended,
      countP_cons, countP_cons, LfEntry.events]
    cases e.recorded
    · simp
    · by_cases hs : e.start ≤ t <;> by_cases hf : e.finish ≤ t <;>
        simp [hs, hf, LogTs.sign] <;> omega

lemma sum_events_eq_zero (log : List LfEntry) :
    ((log.flatMap LfEntry.events).map LogTs.sign).sum = 0 := by
  induction log with
  | nil => rfl
  | cons e log ih =>
    rw [flatMap_cons, map_append, sum_append, ih, LfEntry.events]
    split_ifs <;> rfl

/-! ## The tree -/

structure TimestampTree.Holds (s : TimestampTree) (es : List LogTs) : Prop where
  tree : ∃ ks t, BalancedTree s.tree 0 none ks t ∧ ∀ t, t ∈ ks ↔ t ∈ es.map LogTs.time
  startOrEnd : ∀ t ∈ es.map LogTs.time, kept es t = LogTs.sign ⟨t, s.startOrEnd t⟩

lemma TimestampTree.Holds.add (h : s.Holds es) (e : LogTs) :
    ∃ s', s.add e = some s' ∧ s'.Holds (es ++ [e]) := by
  obtain ⟨ks, t, ht, hks⟩ := h.tree
  -- a time that is there keeps its first event
  have hold {t : Time} (hmem : t ∈ es.map LogTs.time) : kept (es ++ [e]) t = kept es t := by
    obtain ⟨x, hx, rfl⟩ := mem_map.mp hmem
    have hso : (es.find? (·.time = x.time)).isSome = true := find?_isSome.mpr ⟨x, hx, by simp⟩
    obtain ⟨y, hy⟩ := Option.isSome_iff_exists.mp hso
    rw [kept, kept, find?_append, hy, Option.some_or]
  by_cases hmem : e.time ∈ es.map LogTs.time
  · obtain ⟨tree, ha, ht'⟩ := ht.add_mem tsComparator ((hks _).mpr hmem)
    refine ⟨⟨tree, s.startOrEnd⟩, by rw [TimestampTree.add, ha]; rfl, ⟨ks, t, ht', fun t => ?_⟩,
      fun t ht => ?_⟩
    · rw [hks, map_append, mem_append, map_singleton, mem_singleton]
      exact ⟨.inl, fun hor => hor.elim id fun heq => heq ▸ hmem⟩
    · rw [map_append, mem_append, map_singleton, mem_singleton] at ht
      have ht := ht.elim id fun heq => heq ▸ hmem
      rw [hold ht, h.startOrEnd t ht]
  · obtain ⟨tree, ha, -, t', ht'⟩ := ht.add tsComparator fun hm => hmem ((hks _).mp hm)
    refine ⟨_, by rw [TimestampTree.add, ha], ⟨_, t', ht', fun t => ?_⟩, fun t ht => ?_⟩
    · simp [hks]
    · rw [map_append, mem_append, map_singleton, mem_singleton] at ht
      rcases ht with ht | rfl
      · have hne : t ≠ e.time := fun heq => hmem (heq ▸ ht)
        rw [hold ht, h.startOrEnd t ht]
        simp [hne]
      · have hno : es.find? (·.time = e.time) = none :=
          find?_eq_none.mpr fun x hx heq => hmem (mem_map.mpr ⟨x, hx, by simpa using heq⟩)
        rw [kept, find?_append, hno]
        simp

lemma TimestampTree.Holds.foldlM (h : s.Holds es) (es' : List LogTs) :
    ∃ s', es'.foldlM TimestampTree.add s = some s' ∧ s'.Holds (es ++ es') := by
  induction es' generalizing s es with
  | nil => exact ⟨s, rfl, by rwa [append_nil]⟩
  | cons e es' ih =>
    obtain ⟨s1, ha, h1⟩ := h.add e
    obtain ⟨s', hf, h'⟩ := ih h1
    exact ⟨s', by rw [foldlM_cons, ha]; exact hf, by rwa [append_cons]⟩

lemma TimestampTree.Holds.entries (h : s.Holds es) :
    s.entries.Pairwise (·.time < ·.time) ∧ ∀ (p : Time → Prop) [DecidablePred p],
      ((s.entries.filter fun e => p e.time).map LogTs.sign).sum =
        ∑ t ∈ (es.map LogTs.time).toFinset with p t, kept es t := by
  obtain ⟨ks, t, ht, hks⟩ := h.tree
  have hk : s.tree.keys 0 = keys t := by
    rw [State.keys, State.nodes, ht.link, inOrder_eq ht.rep ht.lt_fuel]
    exact filterMap_data ht.rep
  have hinc := increasing_iff.mp ht.increasing
  rw [TimestampTree.entries, hk]
  refine ⟨pairwise_map.mpr hinc, fun p _ => ?_⟩
  have hn : ((keys t).filter (p ·)).Nodup := (hinc.imp ne_of_lt).filter _
  have hset : (es.map LogTs.time).toFinset.filter p = ((keys t).filter (p ·)).toFinset := by
    ext τ
    simp [ht.keys.mem_iff, hks]
  rw [hset, sum_toFinset _ hn, filter_map, map_map]
  congr 1
  refine map_congr_left fun τ hτ => ?_
  exact (h.startOrEnd τ ((hks τ).mp (ht.keys.mem_iff.mp (mem_of_mem_filter hτ)))).symm

lemma takeWhile_eq_filter (hs : l.Pairwise (·.time < ·.time)) :
    l.takeWhile (fun e => e.time ≤ t) = l.filter fun e => e.time ≤ t := by
  induction hs with
  | nil => rfl
  | @cons e l he _ ih =>
    by_cases hle : e.time ≤ t
    · simp [hle, ih]
    · have hn : ∀ e' ∈ l, t < e'.time := fun e' he' => (not_le.mp hle).trans (he e' he')
      simpa [hle] using hn

/-- Two functions agree if their sums up to every time do. -/
lemma eq_of_sum_eq {times : Finset Time} {f g : Time → ℤ}
    (h : ∀ t, ∑ τ ∈ times with τ ≤ t, f τ = ∑ τ ∈ times with τ ≤ t, g τ) (t : Time)
    (ht : t ∈ times) : f t = g t := by
  induction t using WellFoundedLT.induction with
  | _ t ih =>
    have hf : times.filter (· ≤ t) = insert t (times.filter (· < t)) := by
      ext τ
      simp only [Finset.mem_filter, Finset.mem_insert, le_iff_eq_or_lt]
      grind
    have heq := h t
    rw [hf, Finset.sum_insert (by simp), Finset.sum_insert (by simp),
      Finset.sum_congr rfl fun τ hτ => ih τ (Finset.mem_filter.mp hτ).2
        (Finset.mem_filter.mp hτ).1] at heq
    exact add_right_cancel heq

/-- **When the count is right**, after each event and at all times in between, and comes back to 0:
exactly if at every time the events other than the first that was added cancel out. -/
theorem count_parallel (log : List LfEntry)
    (hle : ∀ e ∈ log, e.recorded = true → e.start ≤ e.finish) :
    (∃ l, dumped log = some l ∧ nump l = 0 ∧
      ∀ t, nump (l.takeWhile fun e => e.time ≤ t) = started log t - ended log t ∧
        0 ≤ nump (l.takeWhile fun e => e.time ≤ t)) ↔
      ∀ e ∈ log.flatMap LfEntry.events, net (log.flatMap LfEntry.events) e.time =
        kept (log.flatMap LfEntry.events) e.time := by
  have hi : TimestampTree.Holds ⟨.start, fun _ => false⟩ [] :=
    ⟨⟨[], .nil, balancedTree_nil rfl, by simp⟩, by simp⟩
  obtain ⟨s, hs, h⟩ := hi.foldlM (log.flatMap LfEntry.events)
  rw [nil_append] at h
  obtain ⟨hinc, hsum⟩ := h.entries
  have hd : dumped log = some s.entries := by rw [dumped, hs]; rfl
  generalize hE : log.flatMap LfEntry.events = es at *
  generalize hT : (es.map LogTs.time).toFinset = times at *
  have hmem : ∀ e ∈ es, e.time ∈ times := fun e he => by
    simpa [← hT] using ⟨e, he, rfl⟩
  have hn (t : Time) : nump (s.entries.takeWhile fun e => e.time ≤ t) =
      ∑ τ ∈ times with τ ≤ t, kept es τ := by
    rw [takeWhile_eq_filter hinc, nump_eq, hsum (· ≤ t)]
  have hst (t : Time) : (started log t : ℤ) - ended log t = ∑ τ ∈ times with τ ≤ t, net es τ := by
    rw [← sum_events, hE, sum_filter (· ≤ t) hmem]
  constructor
  · rintro ⟨l, hl, -, hr⟩ e he
    cases hd.symm.trans hl
    refine (eq_of_sum_eq (fun t => ?_) _ (hmem e he)).symm
    rw [← hn, ← hst, (hr t).1]
  · intro heq
    have hag (p : Time → Prop) [DecidablePred p] :
        ∑ τ ∈ times with p τ, kept es τ = ∑ τ ∈ times with p τ, net es τ := by
      refine Finset.sum_congr rfl fun τ hτ => ?_
      have hτ := (Finset.mem_filter.mp hτ).1
      rw [← hT, mem_toFinset] at hτ
      obtain ⟨e, he, rfl⟩ := mem_map.mp hτ
      exact (heq e he).symm
    have hz := hsum fun _ => True
    rw [hag, ← sum_filter (fun _ => True) hmem] at hz
    refine ⟨_, hd, ?_, fun t => ?_⟩
    · simpa [← hE, nump_eq, sum_events_eq_zero] using hz
    · have hm : ended log t ≤ started log t := by
        apply countP_mono_left
        intro e he h
        simp only [Bool.and_eq_true, decide_eq_true_eq] at h ⊢
        exact ⟨h.1, (hle e he h.1).trans h.2⟩
      rw [hn, hag, ← hst]
      omega

/-- At second 2 an end and a start are lost, which cancel out. -/
theorem count_parallel_cancels :
    ∃ l, dumped [⟨2, 0, 3, 0⟩, ⟨1, 0, 2, 0⟩, ⟨2, 0, 4, 0⟩] = some l ∧ nump l = 0 := by
  obtain ⟨l, hl, hz, -⟩ := (count_parallel [⟨2, 0, 3, 0⟩, ⟨1, 0, 2, 0⟩, ⟨2, 0, 4, 0⟩]
    (by decide)).mpr (by decide)
  exact ⟨l, hl, hz⟩

/-- The second request begins when the first one ends: its start is lost, and the count ends
below zero. -/
theorem count_parallel_lost : (dumped [⟨1, 0, 2, 0⟩, ⟨2, 0, 3, 0⟩]).map nump = some (-1) := by
  decide +kernel

end Glomop.Playback
