import Glomop.ClientLib.AvlDeletion

/-!
# The AVL trees as ordered sets

Along every run whose calls meet `ok`, every tree variable of a process is an ordered set
(`orderedSet_of_run`).  Two things that calls leave behind break this: balance factors that deletion
does not correct, and the static variable `parent` (`readded_exits`).
-/

namespace Glomop.ClientLib.Avl

open Glomop.Lib Function List LCtx LTree

variable {K : Type} [LinearOrder K]

/-! ## Reading a tree -/

section Reading

variable {t : LTree (Element K)} {cell : ℕ → Option (LNode (Element K))} {parent : Option ℕ}
  {fuel : ℕ} {k : K}

/-- **A search** goes down: it finds a key within as many calls as the tree is high, and one more
call tells that a key is not there. -/
lemma treeSearch_spec (theComp : Comparator K) (hrep : t.Rep cell parent)
    (hi : Increasing (entries t)) (hf : t.height ≤ fuel) :
    (k ∈ keys t ∧ ∃ a, treeSearch theComp cell k fuel t.root = some (some a)) ∨
    (k ∉ keys t ∧ (t.height < fuel → treeSearch theComp cell k fuel t.root = some none)) := by
  induction t generalizing fuel parent with
  | nil =>
    refine .inr ⟨by simp [keys], fun hlt => ?_⟩
    obtain ⟨fuel, rfl⟩ := Nat.exists_eq_succ_of_ne_zero (Nat.ne_zero_of_lt hlt)
    rfl
  | node l a v r ihl ihr =>
    rw [height] at hf ⊢
    obtain ⟨fuel, rfl⟩ := Nat.exists_eq_add_of_le' (Nat.le_of_add_left_le hf)
    obtain ⟨ha, hl, hr⟩ := hrep
    simp only [root_node, treeSearch, ha, theComp.pos_iff, theComp.neg_iff]
    rcases lt_trichotomy k v.data with hlt | rfl | hlt
    · have hke : k ∈ keys (.node l a v r) ↔ k ∈ keys l := mem_keys_sided .left hi hlt
      rw [if_pos hlt, hke]
      exact (ihl hl (increasing_of_sided .left hi) (by omega)).imp id
        (And.imp_right fun hn _ => hn (by omega))
    · rw [if_neg (lt_irrefl _), if_neg (lt_irrefl _)]
      exact .inl ⟨by simp [keys], a, rfl⟩
    · have hke : k ∈ keys (.node l a v r) ↔ k ∈ keys r := mem_keys_sided .right hi hlt
      rw [if_neg (not_lt_of_gt hlt), if_pos hlt, hke]
      exact (ihr hr (increasing_of_sided .right hi) (by omega)).imp id
        (And.imp_right fun hn _ => hn (by omega))

/-- The new leaf of a key would become the left child of a node with balance factor -1: what
`BadPlace` says, read from memory. -/
def badPlace (theComp : Comparator K) (cell : ℕ → Option (LNode (Element K))) (k : K) :
    ℕ → Option ℕ → Bool
  | 0, _ => false
  | _ + 1, none => false
  | fuel + 1, some a =>
    match cell a with
    | none => false
    | some n =>
      if 0 < theComp.compare n.value.data k then
        (n.left = none && n.value.bal = -1) || badPlace theComp cell k fuel n.left
      else if theComp.compare n.value.data k < 0 then badPlace theComp cell k fuel n.right
      else false

lemma badPlace_iff (theComp : Comparator K) (hrep : t.Rep cell parent)
    (hf : t.nodes.length < fuel) : badPlace theComp cell k fuel t.root = true ↔ BadPlace k t := by
  induction t generalizing fuel parent with
  | nil =>
    cases fuel <;> simp [badPlace, BadPlace]
  | node l a v r ihl ihr =>
    obtain _ | fuel := fuel
    · omega
    obtain ⟨ha, hl, hr⟩ := hrep
    simp only [nodes_node, length_append, length_cons] at hf
    simp only [root_node, badPlace, ha, theComp.pos_iff, theComp.neg_iff, BadPlace]
    have hle := ihl hl (by omega : l.nodes.length < fuel)
    have hri := ihr hr (by omega : r.nodes.length < fuel)
    split_ifs <;> simp [hle, hri, root_eq_none_iff]

def inOrder (cell : ℕ → Option (LNode (Element K))) : ℕ → Option ℕ → List ℕ
  | 0, _ => []
  | _ + 1, none => []
  | fuel + 1, some a =>
    match cell a with
    | none => []
    | some n => inOrder cell fuel n.left ++ a :: inOrder cell fuel n.right

omit [LinearOrder K] in
lemma inOrder_eq (hrep : t.Rep cell parent) (hf : t.nodes.length < fuel) :
    inOrder cell fuel t.root = t.addrs := by
  induction t generalizing fuel parent with
  | nil => cases fuel <;> rfl
  | node l a v r ihl ihr =>
    obtain _ | fuel := fuel
    · omega
    obtain ⟨ha, hl, hr⟩ := hrep
    simp only [nodes_node, length_append, length_cons] at hf
    simp only [root_node, inOrder, ha, addrs_node]
    rw [ihl hl (by omega), ihr hr (by omega)]

end Reading

/-! ## Iterating -/

section Iterating

variable {t : LTree (Element K)} {cell : ℕ → Option (LNode (Element K))} {fuel : ℕ}

omit [LinearOrder K] in
lemma length_le_addrs (c : LCtx (Element K)) : c.length ≤ (addrs c).length := by
  induction c with
  | nil => exact Nat.zero_le _
  | cons f c ih =>
    simp only [LCtx.addrs, length_cons, length_append]
    omega

omit [LinearOrder K] in
lemma treeNext_spec (hrep : t.Rep cell none) (hn : t.addrs.Nodup)
    (hf : t.nodes.length ≤ fuel) {xs ys : List ℕ} {a : ℕ} (ht : t.addrs = xs ++ a :: ys) :
    treeNext cell fuel a = some ys.head? := by
  obtain ⟨ns, ms, hno, hns, hms⟩ := map_eq_append_iff.mp ht
  obtain ⟨⟨b, v⟩, rest, rfl, rfl, rfl⟩ := map_eq_cons_iff.mp hms
  obtain ⟨c, l, r, rfl, rfl⟩ := exists_plug hno
  have hp := addrs_plug_perm c (.node l b v r)
  have hl := hp.length_eq
  rw [hp.nodup_iff] at hn
  obtain ⟨hct, hce, -, hr⟩ := (rep_plug ..).mp hrep
  have hs : (plug c (.node l b v r)).addrs.length ≤ fuel := by
    simpa [LTree.addrs] using hf
  simp only [addrs_node, length_append, length_cons] at hl
  cases r with
  | nil =>
    -- up to the first node that is not left by its right child
    have hn' : (b :: addrs c).Nodup := by
      refine hn.sublist ?_
      simp
    have hc : c.length ≤ fuel := by
      have := length_le_addrs c
      omega
    have hcl := climb_eq hct hn' hc
    simp only [treeNext, hce, root_nil]
    rw [hcl]
    simp
  | node ll d w rr =>
    -- down to the first node of the right subtree
    have hll : ll.nodes.length < fuel := by
      have hlen : ll.nodes.length = ll.addrs.length := by simp [LTree.addrs]
      rw [addrs_node, length_append, length_cons] at hl
      omega
    rw [treeNext_right hce hr hll]
    simp only [LTree.addrs, map_append]
    rw [head?_append_of_ne_nil]
    simp

variable {s : State K}

omit [LinearOrder K] in
lemma iterateFrom_spec (hrep : t.Rep s.heap.cell none) (hn : t.addrs.Nodup)
    (hf : t.nodes.length ≤ s.fuel) {xs ys : List ℕ} {rounds : ℕ} (ht : t.addrs = xs ++ ys)
    (hr : ys.length ≤ rounds) : iterateFrom s rounds ys.head? = some ys := by
  induction ys generalizing xs rounds with
  | nil => cases rounds <;> rfl
  | cons a ys ih =>
    obtain _ | rounds := rounds
    · exact absurd hr (Nat.not_succ_le_zero _)
    have hs : t.addrs = (xs ++ [a]) ++ ys := by
      rw [ht, append_assoc]
      rfl
    have hre := ih hs (Nat.le_of_succ_le_succ hr)
    simp only [head?_cons, iterateFrom]
    rw [treeNext_spec hrep hn hf ht]
    simp [hre]

omit [LinearOrder K] in
lemma iterate_spec {i : ℕ} (hr : s.trees i = t.root) (hrep : t.Rep s.heap.cell none)
    (hn : t.addrs.Nodup) (hf : t.nodes.length < s.fuel) : iterate s i = some t.addrs := by
  have hfi : treeFirst s.heap.cell s.fuel t.root = some t.addrs.head? := by
    cases t with
    | nil => rfl
    | node l a v r =>
      have hl : l.nodes.length < s.fuel := by
        simp only [nodes_node, length_append, length_cons] at hf
        omega
      simp only [root_node, treeFirst]
      rw [descendLeft_eq hrep hl, addrs_node]
      cases l.addrs <;> rfl
  rw [iterate, hr, hfi, Option.bind_some]
  exact iterateFrom_spec hrep hn hf.le (nil_append _).symm (by simpa [LTree.addrs] using hf.le)

end Iterating

/-! ## All trees -/

omit [LinearOrder K] in
lemma length_nodes_lt_fuel {t : LTree (Element K)} {s : State K} {parent : Option ℕ}
    (hrep : t.Rep s.heap.cell parent) (hno : t.addrs.Nodup) : t.nodes.length < s.fuel := by
  have hs : t.addrs ⊆ range s.heap.next := by
    intro a ha
    obtain ⟨n, hn⟩ := hrep.exists_cell ha
    exact mem_range.mpr (Heap.lt_next_of_cell hn)
  have hle := (hno.subperm hs).length_le
  rw [LTree.addrs, length_map, length_range] at hle
  exact Nat.lt_succ_of_le hle

/-- Every tree variable holds a search tree with the keys of a reference set; no two trees share a
node; the static variable `root` is reset. -/
structure Kept (s : State K) (ref : ℕ → Finset K) (T : ℕ → LTree (Element K)) : Prop where
  link : ∀ i, s.trees i = (T i).root
  rep : ∀ i, (T i).Rep s.heap.cell none
  nodup : ∀ i, (T i).addrs.Nodup
  apart : ∀ i j, i ≠ j → ∀ a ∈ (T i).addrs, a ∉ (T j).addrs
  fair : ∀ i, Fair (T i)
  increasing : ∀ i, Increasing (entries (T i))
  keys : ∀ i, (keys (T i)).toFinset = ref i
  reset : s.root = none
  running : s.exited = false

section Kept

variable {s s' : State K} {ref : ℕ → Finset K} {T : ℕ → LTree (Element K)} {i : ℕ} {k : K}

lemma kept_start : Kept (State.start : State K) (fun _ => ∅) fun _ => .nil where
  link _ := rfl
  rep _ := trivial
  nodup _ := nodup_nil
  apart _ _ _ _ h := nomatch h
  fair _ _ h := nomatch h
  increasing _ := Pairwise.nil
  keys _ := rfl
  reset := rfl
  running := rfl

lemma Kept.lt_fuel (h : Kept s ref T) (i : ℕ) : (T i).nodes.length < s.fuel :=
  length_nodes_lt_fuel (h.rep i) (h.nodup i)

lemma Kept.search_spec (theComp : Comparator K) (h : Kept s ref T) (i : ℕ) (k : K) :
    (k ∈ Avl.keys (T i) ∧ ∃ a, treeSearch theComp s.heap.cell k s.fuel (T i).root = some (some a)) ∨
    (k ∉ Avl.keys (T i) ∧ treeSearch theComp s.heap.cell k s.fuel (T i).root = some none) := by
  have hl := (T i).height_le_length.trans_lt (h.lt_fuel i)
  exact (treeSearch_spec theComp (h.rep i) (h.increasing i) hl.le).imp id (And.imp_right (· hl))

lemma increasing_iff {t : LTree (Element K)} :
    Increasing (entries t) ↔ (keys t).Pairwise (· < ·) := by
  rw [Increasing, keys, pairwise_map]

lemma Kept.mem_keys (h : Kept s ref T) : k ∈ Avl.keys (T i) ↔ k ∈ ref i := by
  rw [← h.keys i, mem_toFinset]

lemma Kept.replace {t' : LTree (Element K)} {S : Finset K} (h : Kept s ref T)
    (hl : s'.trees = update s.trees i t'.root) (hrep : t'.Rep s'.heap.cell none)
    (hn : t'.addrs.Nodup) (had : ∀ a ∈ t'.addrs, a ∈ (T i).addrs ∨ a = s.heap.next)
    (hc : ∀ b, b ∉ (T i).addrs → b ≠ s.heap.next → s'.heap.cell b = s.heap.cell b)
    (hf : Fair t') (hin : Increasing (entries t')) (hk : (Avl.keys t').toFinset = S)
    (hr : s'.root = none) (he : s'.exited = false) :
    Kept s' (update ref i S) (update T i t') := by
  have ho : ∀ j, j ≠ i → ∀ a ∈ (T j).addrs, a ∉ t'.addrs := by
    intro j hj a ha ha'
    rcases had a ha' with hi | rfl
    · exact h.apart j i hj a ha hi
    · exact next_not_mem_addrs (h.rep j) ha
  refine ⟨?_, ?_, ?_, ?_, ?_, ?_, ?_, hr, he⟩
  · intro j
    rw [hl]
    by_cases hj : j = i
    · subst hj
      rw [update_self, update_self]
    · rw [update_of_ne hj, update_of_ne hj, h.link j]
  · intro j
    by_cases hj : j = i
    · subst hj
      rwa [update_self]
    · rw [update_of_ne hj]
      refine (h.rep j).frame fun b hb => hc b (h.apart j i hj b hb) ?_
      rintro rfl
      exact next_not_mem_addrs (h.rep j) hb
  · intro j
    by_cases hj : j = i
    · subst hj
      rwa [update_self]
    · rw [update_of_ne hj]
      exact h.nodup j
  · intro j j' hne
    by_cases hj : j = i
    · subst hj
      rw [update_self, update_of_ne hne.symm]
      exact fun a ha ha' => ho j' hne.symm a ha' ha
    · rw [update_of_ne hj]
      by_cases hj' : j' = i
      · subst hj'
        rw [update_self]
        exact ho j hj
      · rw [update_of_ne hj']
        exact h.apart j j' hne
  all_goals
    intro j
    by_cases hj : j = i
    · subst hj
      simpa
    · simp only [update_of_ne hj, h.fair j, h.increasing j, h.keys j]

end Kept

variable (theComp : Comparator K)

/-- The calls on which the trees stay search trees: a new key's place is not the empty left link of
a node with balance factor -1; a key is added to an empty tree only while the static variable
`parent` is `NULL`; and there is memory for the node of a key that is not there yet. -/
def ok (s : State K) : Call K → Prop
  | .add i key noMemory =>
    badPlace theComp s.heap.cell key s.fuel (s.trees i) = false ∧
      (s.trees i = none → s.parent = none) ∧
      (treeSearch theComp s.heap.cell key s.fuel (s.trees i) = some none → noMemory = false)
  | _ => True

instance (s : State K) (call : Call K) : Decidable (ok theComp s call) := by
  cases call <;> unfold ok <;> infer_instance

def reference (ref : ℕ → Finset K) : Call K → ℕ → Finset K
  | .add i key _ => Function.update ref i (insert key (ref i))
  | .delete i key => Function.update ref i ((ref i).erase key)
  | .search _ _ => ref
  | .next _ => ref

section Steps

variable {theComp} {s s' : State K} {ref : ℕ → Finset K} {T : ℕ → LTree (Element K)} {i : ℕ} {k : K}
  {noMemory : Bool}

lemma Kept.good_add (h : Kept s ref T) (hok : ok theComp s (.add i k noMemory))
    (hk : k ∉ Avl.keys (T i)) : noMemory = false ∧ ¬ BadPlace k (T i) := by
  obtain ⟨hp, -, hm⟩ := hok
  rw [h.link i] at hp hm
  constructor
  · apply hm
    rcases h.search_spec theComp i k with hs | hs
    · exact absurd hs.1 hk
    · exact hs.2
  · rw [← badPlace_iff theComp (h.rep i) (h.lt_fuel i), hp]
    exact Bool.false_ne_true

lemma Kept.add (h : Kept s ref T) (hok : ok theComp s (.add i k noMemory)) :
    ∃ s', add theComp i k noMemory s = some (some (if k ∈ ref i then -1 else 0), s') ∧
      ∃ T', Kept s' (reference ref (.add i k noMemory)) T' := by
  have hpa : T i = .nil → s.parent = none := by
    intro hni
    exact hok.2.1 (by rw [h.link i, hni]; rfl)
  have had : ∃ r s1, treeAdd theComp noMemory k s.fuel (s.trees i) s = some (r, s1) ∧
      AddSpec noMemory k (T i) none s r s1 := by
    rw [h.link i]
    exact treeAdd_spec theComp (h.rep i) (h.nodup i) (h.fair i) (h.increasing i) hpa (h.lt_fuel i)
  obtain ⟨r, s1, hrun, hsp⟩ := had
  have hs : Avl.add theComp i k noMemory s = _ :=
    (Prog.get_bind_run s _).trans (Prog.bind_run hrun _)
  cases hsp with
  | present hk hh ht =>
    have hmem := h.mem_keys.mp hk
    refine ⟨{ s1 with trees := update s1.trees i (T i).root }, ?_, T, ?_⟩
    · rw [hs, if_pos hmem]
      rfl
    · have hsa : update s1.trees i (T i).root = s.trees := by
        rw [ht.trees, ← h.link i, update_eq_self]
      have hr : reference ref (.add i k noMemory) = ref := by
        rw [reference, Finset.insert_eq_of_mem hmem, update_eq_self]
      rw [hr, hsa]
      exact ⟨h.link, fun j => hh ▸ h.rep j, h.nodup, h.apart, h.fair, h.increasing, h.keys,
        ht.root.trans h.reset, ht.exited.trans h.running⟩
  | exited hk hba =>
    obtain ⟨hm, hpl⟩ := h.good_add hok hk
    rcases hba with hba | hba
    · exact nomatch hm.symm.trans hba
    · exact absurd hba hpl
  | @added t' s1 hk hgo hp hl hg =>
    have hmem : k ∉ ref i := fun hmem => hk (h.mem_keys.mpr hmem)
    have hpe := hp.addrs_perm
    refine ⟨{ s1 with trees := update s1.trees i t'.root }, ?_,
      update T i t', h.replace ?_ hp.rep ?_ ?_ ?_ hp.fair ?_ ?_ ?_ ?_⟩
    · rw [hs, if_neg hmem]
      rfl
    · rw [hp.touches.trees]
    · rw [hpe.nodup_iff, nodup_cons]
      exact ⟨next_not_mem_addrs (h.rep i), h.nodup i⟩
    · intro a ha
      rcases mem_cons.mp (hpe.mem_iff.mp ha) with rfl | ha
      · exact .inr rfl
      · exact .inl ha
    · intro b hb hn
      apply hp.touches.cell
      rw [mem_cons, not_or]
      exact ⟨hn, hb⟩
    · exact hp.entries.increasing (h.increasing i)
    · have hke := hp.entries.perm.map Prod.snd
      rw [← h.keys i, ← toFinset_cons]
      exact toFinset_eq_of_perm _ _ hke
    · exact hp.touches.root.trans h.reset
    · exact hp.touches.exited.trans h.running

lemma Kept.delete (h : Kept s ref T) :
    ∃ s', delete theComp i k s = some (if k ∈ ref i then 0 else -1, s') ∧
      ∃ T', Kept s' (reference ref (.delete i k)) T' := by
  have hd := treeDelete_spec (c := []) (k := k) theComp (h.rep i) (h.nodup i) (h.increasing i)
    (h.link i) (.inl h.reset) (h.lt_fuel i)
  rw [← h.link i, plug_nil] at hd
  have hst : Avl.delete theComp i k s = treeDelete theComp i k s.fuel (s.trees i) s :=
    Prog.get_bind_run s _
  rcases hd with ⟨hk, t', s', hrun, hde⟩ | ⟨hk, hrun⟩
  · obtain ⟨ks, ks', hke, hk'⟩ := hde.keys
    have hs : (ks ++ k :: ks').Pairwise (· < ·) := by
      rw [← hke]
      exact increasing_iff.mp (h.increasing i)
    have hsu : (ks ++ ks').Sublist (ks ++ k :: ks') := (sublist_cons_self ..).append_left _
    refine ⟨s', ?_, update T i t', h.replace hde.trees hde.rep
      ((h.nodup i).sublist hde.addrs) ?_ ?_ (hde.fair (h.fair i)) ?_ ?_ hde.root ?_⟩
    · rw [hst, hrun, if_pos (h.mem_keys.mp hk)]
    · exact fun a ha => .inl (hde.addrs.subset ha)
    · exact fun b hb _ => hde.cell b hb
    · rw [increasing_iff, hk']
      exact hs.sublist hsu
    · have hn : (ks ++ k :: ks').Nodup := hs.imp ne_of_lt
      rw [nodup_middle, nodup_cons] at hn
      rw [hk', ← h.keys i, hke]
      ext x
      simp only [mem_toFinset, mem_append, mem_cons, Finset.mem_erase] at hn ⊢
      constructor
      · intro hx
        refine ⟨?_, by tauto⟩
        rintro rfl
        exact hn.1 hx
      · rintro ⟨hne, hx⟩
        tauto
    · exact hde.exited.trans h.running
  · have hmem : k ∉ ref i := fun hmem => hk (h.mem_keys.mpr hmem)
    refine ⟨{ s with root := none }, ?_, T, ?_⟩
    · rw [hst, hrun, if_neg hmem]
    · rw [reference, Finset.erase_eq_of_notMem hmem, update_eq_self]
      exact ⟨h.link, h.rep, h.nodup, h.apart, h.fair, h.increasing, h.keys, rfl, h.running⟩

lemma act_of_step {call : Call K} (h : step theComp s call s') : act theComp s call = some s' := by
  unfold step next at h
  split_ifs at h
  exact h

lemma Kept.step {call : Call K} (h : Kept s ref T)
    (hs : Guarded (ok theComp) (step theComp) s call s') :
    ∃ T', Kept s' (reference ref call) T' := by
  obtain ⟨hok, hs⟩ := hs
  replace hs := act_of_step hs
  cases call with
  | add i key noMemory =>
    obtain ⟨s1, hrun, hk⟩ := h.add hok
    obtain rfl : s1 = s' := by simpa [act, hrun] using hs
    exact hk
  | delete i key =>
    obtain ⟨s1, hrun, hk⟩ : ∃ s1, Avl.delete theComp i key s = some (_, s1) ∧ _ := h.delete
    obtain rfl : s1 = s' := by simpa [act, hrun] using hs
    exact hk
  | search | next =>
    obtain ⟨-, -, rfl⟩ := Option.map_eq_some_iff.mp hs
    exact ⟨T, h⟩

end Steps

/-! ## What a tree variable is -/

def State.nodes (s : State K) (i : ℕ) : List ℕ := inOrder s.heap.cell s.fuel (s.trees i)

def State.keys (s : State K) (i : ℕ) : List K :=
  (s.nodes i).filterMap fun a => (s.heap.cell a).map fun n => n.value.data

/-- A tree variable is an ordered set with the keys `S`. -/
structure OrderedSet (s : State K) (i : ℕ) (S : Finset K) : Prop where
  stored : (s.keys i).toFinset = S
  increasing : (s.keys i).Pairwise (· < ·)
  parent_of_child : ∀ a ∈ s.nodes i, ∀ n, s.heap.cell a = some n →
    ∀ b, n.left = some b ∨ n.right = some b → ∃ m, s.heap.cell b = some m ∧ m.parent = some a
  child_of_parent : ∀ b ∈ s.nodes i, ∀ m, s.heap.cell b = some m → ∀ a, m.parent = some a →
    a ∈ s.nodes i ∧ ∃ n, s.heap.cell a = some n ∧ (n.left = some b ∨ n.right = some b)
  parent_of_root : ∀ b, s.trees i = some b → ∃ m, s.heap.cell b = some m ∧ m.parent = none
  /-- `Tree_Next` from `Tree_First` on visits every node once, in order. -/
  visited : iterate s i = some (s.nodes i)
  /-- `Tree_Next` returns on every node. -/
  next_returns : ∀ a ∈ s.nodes i, ∃ b, treeNext s.heap.cell s.fuel a = some b
  /-- `Tree_Search` finds exactly the keys of the set. -/
  search_iff : ∀ k, ∃ r, treeSearch theComp s.heap.cell k s.fuel (s.trees i) = some r ∧
    (r.isSome ↔ k ∈ S)
  /-- `Tree_Add` returns, and -1 if and only if the key is there. -/
  add_returns : ∀ k noMemory, ok theComp s (.add i k noMemory) →
    ∃ s', add theComp i k noMemory s = some (some (if k ∈ S then -1 else 0), s')
  /-- `Tree_Delete` returns, and -1 if and only if the key is not there. -/
  delete_returns : ∀ k, ∃ s', delete theComp i k s = some (if k ∈ S then 0 else -1, s')

section OrderedSet

variable {theComp} {s : State K} {ref : ℕ → Finset K} {T : ℕ → LTree (Element K)} {i : ℕ}

lemma Kept.nodes (h : Kept s ref T) : s.nodes i = (T i).addrs := by
  rw [State.nodes, h.link i]
  exact inOrder_eq (h.rep i) (h.lt_fuel i)

omit [LinearOrder K] in
lemma filterMap_data {t : LTree (Element K)} {cell : ℕ → Option (LNode (Element K))}
    {parent : Option ℕ} (hrep : t.Rep cell parent) :
    t.addrs.filterMap (fun a => (cell a).map fun n => n.value.data) = keys t := by
  induction t generalizing parent with
  | nil => rfl
  | node l a v r ihl ihr =>
    rw [addrs_node, filterMap_append, ihl hrep.2.1, filterMap_cons, hrep.1, ihr hrep.2.2]
    simp [keys]

lemma Kept.stored (h : Kept s ref T) : s.keys i = Avl.keys (T i) := by
  rw [State.keys, h.nodes]
  exact filterMap_data (h.rep i)

lemma Kept.orderedSet (h : Kept s ref T) (i : ℕ) : OrderedSet theComp s i (ref i) where
  stored := by rw [h.stored, h.keys i]
  increasing := by
    rw [h.stored]
    exact increasing_iff.mp (h.increasing i)
  parent_of_child := by
    intro a ha n hn b hb
    rw [h.nodes] at ha
    exact ((h.rep i).parent_of_child ha hn hb).2
  child_of_parent := by
    intro b hb m hm a ha
    rw [h.nodes] at hb ⊢
    rcases (h.rep i).child_of_parent hb hm (h.nodup i) with ⟨-, hno⟩ | ⟨a', ha', hp, hn⟩
    · exact nomatch hno.symm.trans ha
    · cases hp.symm.trans ha
      exact ⟨ha', hn⟩
  parent_of_root := by
    intro b hb
    rw [h.link i] at hb
    have hmem := mem_addrs_of_root hb
    have hrep := h.rep i
    cases ht : T i with
    | nil => exact nomatch ht ▸ hb
    | node l a v r =>
      rw [ht] at hb hrep
      cases hb
      exact ⟨_, hrep.1, rfl⟩
  visited := by
    rw [h.nodes]
    exact iterate_spec (h.link i) (h.rep i) (h.nodup i) (h.lt_fuel i)
  next_returns := by
    intro a ha
    rw [h.nodes] at ha
    obtain ⟨xs, ys, hs⟩ := append_of_mem ha
    exact ⟨_, treeNext_spec (h.rep i) (h.nodup i) (h.lt_fuel i).le hs⟩
  search_iff := by
    intro k
    rw [h.link i, ← h.mem_keys]
    rcases h.search_spec theComp i k with
      ⟨hk, a, hrun⟩ | ⟨hk, hrun⟩
    · exact ⟨some a, hrun, by simp [hk]⟩
    · exact ⟨none, hrun, by simp [hk]⟩
  add_returns := by
    intro k noMemory hok
    obtain ⟨s', hrun, -⟩ := h.add hok
    exact ⟨s', hrun⟩
  delete_returns := by
    intro k
    obtain ⟨s', hrun, -⟩ := h.delete
    exact ⟨s', hrun⟩

/-- **The AVL trees are ordered sets**: along every run whose calls meet the condition, no call ends
the process, and every tree variable is an ordered set with the keys of the reference. -/
theorem orderedSet_of_run {calls : List (Call K)}
    (hrun : Run (Guarded (ok theComp) (step theComp)) State.start calls s) :
    s.exited = false ∧ ∀ i, OrderedSet theComp s i (calls.foldl reference (fun _ => ∅) i) := by
  have hk : ∃ T, Kept s (calls.foldl reference fun _ => ∅) T := by
    refine hrun.fold (I := fun ref s => ∃ T, Kept s ref T) ?_ ⟨_, kept_start⟩
    rintro ref s call s' ⟨T, hT⟩ hs
    exact hT.step hs
  obtain ⟨T, hT⟩ := hk
  exact ⟨hT.running, hT.orderedSet⟩

def intComparator : Comparator ℤ where
  compare a b := a - b
  pos_iff _ _ := sub_pos
  neg_iff _ _ := sub_neg

/-- Two trees, with a deletion of a node that has two children. -/
theorem orderedSet_of_run_sample : ∃ s,
    Run (Guarded (ok intComparator) (step intComparator)) State.start
      [.add 0 2 false, .add 0 1 false, .add 0 3 false, .add 1 2 false, .delete 0 2,
        .add 0 1 true] s ∧
    s.exited = false ∧ OrderedSet intComparator s 0 {1, 3} := by
  have hrf : [Call.add 0 2 false, .add 0 1 false, .add 0 3 false, .add 1 2 false, .delete 0 2,
      .add 0 1 true].foldl reference (fun _ => ∅) 0 = ({1, 3} : Finset ℤ) := by
    decide
  exact (exists_guarded_of_decide (p := fun _ => True) (by decide +kernel)).imp fun s h =>
    ⟨h.1, (orderedSet_of_run h.1).1, hrf ▸ (orderedSet_of_run h.1).2 0⟩

/-- A key that is deleted and added again finds the balance factor above it wrong, and `Tree_Add`
ends the process.  And a key that is added twice leaves its node's parent behind in the static
variable, which then becomes the parent of another tree's root. -/
theorem readded_exits :
    (∃ s, Run (step intComparator) State.start
      [.add 0 2 false, .add 0 1 false, .delete 0 1, .add 0 1 false] s ∧ s.exited = true) ∧
    ∃ s, Run (step intComparator) State.start
      [.add 0 2 false, .add 0 1 false, .add 0 1 false, .add 1 5 false] s ∧ s.exited = false ∧
      ∃ b, s.trees 1 = some b ∧ (s.heap.cell b).map LNode.parent = some (s.trees 0) := by
  refine ⟨exists_run_of_decide (by decide +kernel), ?_⟩
  exact exists_run_of_decide (p := fun s : State ℤ => s.exited = false ∧
    ∃ b ∈ s.trees 1, (s.heap.cell b).map LNode.parent = some (s.trees 0)) (by decide +kernel)

end OrderedSet

end Glomop.ClientLib.Avl
