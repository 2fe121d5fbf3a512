import Glomop.ClientLib.Avl

/-!
# Insertion into the AVL tree

`Tree_Add` on a link that points to a search tree in memory puts the new key into its place in the
order, whatever the balance factors in the tree are, as long as the new leaf does not become the
left child of a node with balance factor -1 (`treeAdd_spec`).  That every node with balance factor
-1 has a left child is what AVL trees have and what deletion does not keep.
-/

namespace Glomop.ClientLib.Avl

open Glomop.Lib Function List Heap LTree Prog

variable {K : Type}

/-! ## Reading and writing nodes -/

variable {a p : ℕ} {es es' : List (ℕ × K)} {k : K} {s' : State K} {t x y : LTree (Element K)}
  {vp : Element K}

section Nodes

variable {s : State K} {a b : ℕ} {n : LNode (Element K)} {r p : Option ℕ}

lemma deref_eq_some {m : LNode (Element K)} :
    deref a s = some (m, s') ↔ s.heap.cell a = some m ∧ s' = s := by
  simp [deref, and_comm]

lemma deref_run (h : s.heap.cell a = some n) : deref a s = some (n, s) := deref_eq_some.mpr ⟨h, rfl⟩

lemma assign_eq_some {f : LNode (Element K) → LNode (Element K)} {u : Unit} :
    assign a f s = some (u, s') ↔
      ∃ n, s.heap.cell a = some n ∧ s' = { s with heap := s.heap.set a (f n) } := by
  simp [assign, deref_eq_some]

/-- The heap after `reparent`. -/
def reparented (h : Heap (LNode (Element K))) (r p : Option ℕ) : Heap (LNode (Element K)) :=
  match r with
  | none => h
  | some a => ((h.cell a).map fun n => h.set a (n.setParent p)).getD h

lemma reparent_eq_some {u : Unit} :
    reparent r p s = some (u, s') ↔
      (∀ a, r = some a → ∃ n, s.heap.cell a = some n) ∧
        s' = { s with heap := reparented s.heap r p } := by
  cases r with
  | none => simp [reparent, reparented]
  | some a =>
    rw [reparent, assign_eq_some]
    cases hn : s.heap.cell a with
    | none => simp [hn]
    | some n => simp [hn, reparented]

@[simp] lemma reparented_next (h : Heap (LNode (Element K))) :
    (reparented h r p).next = h.next := by
  cases r with
  | none => rfl
  | some a => cases hn : h.cell a <;> simp [reparented, hn]

lemma reparented_cell (h : Heap (LNode (Element K))) (r p : Option ℕ) (b : ℕ) :
    (reparented h r p).cell b =
      if r = some b then (h.cell b).map (·.setParent p) else h.cell b := by
  cases r with
  | none => rfl
  | some a =>
    by_cases hba : b = a
    · subst hba
      cases hn : h.cell b <;> simp [reparented, hn, set_cell_self]
    · have hab : a ≠ b := fun h => hba h.symm
      cases hn : h.cell a <;> simp [reparented, hn, set_cell_of_ne hba, hab]

end Nodes

/-! ## The tree behind the nodes -/

def entries (t : LTree (Element K)) : List (ℕ × K) := t.nodes.map fun n => (n.1, n.2.data)

@[simp] lemma entries_nil : entries (.nil : LTree (Element K)) = [] := rfl

@[simp] lemma entries_node (l r : LTree (Element K)) (a : ℕ) (v : Element K) :
    entries (.node l a v r) = entries l ++ (a, v.data) :: entries r := by
  simp [entries]

def keys (t : LTree (Element K)) : List K := (entries t).map Prod.snd

lemma map_fst_entries (t : LTree (Element K)) : (entries t).map Prod.fst = t.addrs := by
  simp [entries, addrs, comp_def]

def FairBal (b : ℤ) : Prop := b = -1 ∨ b = 0 ∨ b = 1

lemma fairBal_zero : FairBal 0 := .inr (.inl rfl)

lemma fairBal_sign (side : Side) : FairBal (sign side) := by
  cases side
  · exact .inl rfl
  · exact .inr (.inr rfl)

lemma FairBal.cases {b : ℤ} (h : FairBal b) (side : Side) :
    b = sign side.other ∨ b = 0 ∨ b = sign side := by
  cases side <;> simp only [sign, Side.other] <;> unfold FairBal at h <;> omega

lemma sign_ne_zero (side : Side) : sign side ≠ 0 := by cases side <;> simp [sign]

lemma sign_other_ne (side : Side) : sign side ≠ sign side.other := by
  cases side <;> simp [sign, Side.other]

def Fair (t : LTree (Element K)) : Prop := ∀ n ∈ t.nodes, FairBal n.2.bal

structure Touches (as : List ℕ) (s s' : State K) : Prop where
  cell : ∀ b ∉ as, s'.heap.cell b = s.heap.cell b
  trees : s'.trees = s.trees
  root : s'.root = s.root
  exited : s'.exited = s.exited

structure Reshaped (t t' : LTree (Element K)) (parent : Option ℕ) (s s' : State K) : Prop where
  rep : t'.Rep s'.heap.cell parent
  entries : entries t' = entries t
  fair : Fair t → Fair t'
  touches : Touches t.addrs s s'
  next : s'.heap.next = s.heap.next
  parent : s'.parent = s.parent

section Reshaped

variable {t t' t'' : LTree (Element K)} {parent : Option ℕ} {s s' s'' : State K}

lemma Touches.trans {as as' : List ℕ} (h : Touches as s s') (h' : Touches as' s' s'')
    (has : ∀ b ∉ as, b ∉ as') : Touches as s s'' :=
  ⟨fun b hb => (h'.cell b (has b hb)).trans (h.cell b hb), h'.trees.trans h.trees,
    h'.root.trans h.root, h'.exited.trans h.exited⟩

lemma next_not_mem_addrs (hrep : t.Rep s.heap.cell parent) : s.heap.next ∉ t.addrs := by
  intro hmem
  obtain ⟨n, hn⟩ := hrep.exists_cell hmem
  exact lt_irrefl _ (lt_next_of_cell hn)

lemma Reshaped.addrs (h : Reshaped t t' parent s s') : t'.addrs = t.addrs := by
  rw [← map_fst_entries, ← map_fst_entries, h.entries]

lemma Reshaped.trans (h : Reshaped t t' parent s s') (h' : Reshaped t' t'' parent s' s'') :
    Reshaped t t'' parent s s'' where
  rep := h'.rep
  entries := h'.entries.trans h.entries
  fair hf := h'.fair (h.fair hf)
  touches := h.touches.trans h'.touches fun _ hb => h.addrs.symm ▸ hb
  next := h'.next.trans h.next
  parent := h'.parent.trans h.parent

lemma Reshaped.refl (h : t.Rep s.heap.cell parent) : Reshaped t t parent s s :=
  ⟨h, rfl, id, ⟨fun _ _ => rfl, rfl, rfl, rfl⟩, rfl, rfl⟩

lemma Reshaped.setCheckBalance (h : Reshaped t t' parent s s') (b : Bool) :
    Reshaped t t' parent s { s' with checkBalance := b } :=
  ⟨h.rep, h.entries, h.fair, ⟨h.touches.cell, h.touches.trees, h.touches.root, h.touches.exited⟩,
    h.next, h.parent⟩

def withBal (t : LTree (Element K)) (a : ℕ) (bal : ℤ) : LTree (Element K) :=
  t.mapValues fun b v => if b = a then { v with bal := bal } else v

@[simp] lemma root_withBal (t : LTree (Element K)) (a : ℕ) (bal : ℤ) :
    (withBal t a bal).root = t.root :=
  root_mapValues _ t

lemma withBal_sided (side : Side) (u o : LTree (Element K)) (a b : ℕ) (v : Element K) (bal : ℤ) :
    withBal (.sided side u a v o) b bal =
      .sided side (withBal u b bal) a (if a = b then { v with bal := bal } else v)
        (withBal o b bal) :=
  mapValues_sided _

lemma withBal_of_not_mem (h : a ∉ t.addrs) (bal : ℤ) : withBal t a bal = t := by
  induction t with
  | nil => rfl
  | node l b v r ihl ihr =>
    simp only [addrs_node, mem_append, mem_cons, not_or] at h
    obtain ⟨hl, hb, hr⟩ := h
    have hn : withBal (.node l b v r) a bal = .node (withBal l a bal) b
        (if b = a then { v with bal := bal } else v) (withBal r a bal) := rfl
    rw [hn, ihl hl, ihr hr, if_neg (Ne.symm hb)]

lemma setBal_spec (h : t.Rep s.heap.cell parent) (ha : a ∈ t.addrs) {bal : ℤ} (hbl : FairBal bal) :
    ∃ s', setBal a bal s = some ((), s') ∧ Reshaped t (withBal t a bal) parent s s' := by
  obtain ⟨n, hn⟩ := h.exists_cell ha
  refine ⟨{ s with heap := s.heap.set a (n.setValue { n.value with bal := bal }) },
    assign_eq_some.mpr ⟨n, hn, rfl⟩, h.mapValues fun b hb m hm => ?_, ?_, fun hf => ?_,
    ⟨fun b hb => ?_, rfl, rfl, rfl⟩, rfl, rfl⟩
  · by_cases hba : b = a
    · subst hba
      cases hn.symm.trans hm
      simp [set_cell_self hn]
    · rw [if_neg hba]
      exact (set_cell_of_ne hba).trans hm
  · simp only [Avl.entries, withBal, nodes_mapValues, map_map]
    refine map_congr_left fun n _ => ?_
    by_cases hna : n.1 = a <;> simp [hna]
  · intro m hm
    simp only [withBal, nodes_mapValues, mem_map] at hm
    obtain ⟨k, hk, rfl⟩ := hm
    by_cases hka : k.1 = a
    · simpa [hka] using hbl
    · simpa [hka] using hf k hk
  · exact set_cell_of_ne fun hba => hb (hba ▸ ha)

end Reshaped

/-! ## Rotations

A rotation gives the nodes it turns new links, gives the subtrees that change places new parents,
and leaves everything else alone. -/

section Rotations

variable {side : Side} {x y z o : LTree (Element K)} {p q m : ℕ} {vp vq vm : Element K}
  {parent : Option ℕ} {s s' : State K}

lemma rep_of_moved {cell cell' : ℕ → Option (LNode (Element K))} {parent' : Option ℕ}
    (h : t.Rep cell parent) (hno : t.addrs.Nodup) (hm : ∀ b ∈ t.addrs, cell' b =
      if t.root = some b then (cell b).map (·.setParent parent') else cell b) :
    t.Rep cell' parent' := by
  refine h.reparent hno ?_ ?_
  · intro b hb hne
    rw [hm b hb, if_neg hne]
  · intro b n hb hn
    rw [hm b (mem_addrs_of_root hb), if_pos hb, hn]
    rfl

lemma turnSingle_run (hp : s.heap.cell p = some (.sided side vp x.root y.root (some q)))
    (hq : s.heap.cell q = some (.sided side vq (some p) o.root parent)) (hqp : q ≠ p)
    (hyp : y.root ≠ some p) (hyq : y.root ≠ some q)
    (hy : ∀ b, y.root = some b → ∃ n, s.heap.cell b = some n) :
    ∃ s', turnSingle side q p s = some ((), s') ∧
      s'.heap.cell p = some (.sided side vp x.root (some q) parent) ∧
      s'.heap.cell q = some (.sided side vq y.root o.root (some p)) ∧
      (∀ b, b ≠ p → b ≠ q → s'.heap.cell b =
        if y.root = some b then (s.heap.cell b).map (·.setParent (some q)) else s.heap.cell b) ∧
      s' = { s with heap := s'.heap } ∧ s'.heap.next = s.heap.next := by
  -- the assignments one after the other
  simp only [turnSingle, bind_eq_some, deref_eq_some, assign_eq_some, reparent_eq_some,
    set_cell, set_next, reparented_cell, reparented_next, hp, hq, hqp, hqp.symm, hyp, hyq,
    LNode.setParent_sided, LNode.setChild_sided, LNode.setChild_other_sided,
    LNode.sided_child_other, LNode.sided_parent, Option.some.injEq, Option.map_some, ne_eq,
    ↓reduceIte, ↓existsAndEq, exists_eq_left', exists_const, and_true, true_and, and_self]
  constructor
  · intro b hb
    have hbq : b ≠ q := fun h => hyq (h ▸ hb)
    have hbp : b ≠ p := fun h => hyp (h ▸ hb)
    simpa [hbq, hbp] using hy b hb
  · intro b hbp hbq
    simp [hbp, hbq]

lemma turnSingle_spec (hrep : (sided side (.sided side x p vp y) q vq o).Rep s.heap.cell parent)
    (hn : (sided side (.sided side x p vp y) q vq o).addrs.Nodup) :
    ∃ s', turnSingle side q p s = some ((), s') ∧
      Reshaped (.sided side (.sided side x p vp y) q vq o)
        (.sided side x p vp (.sided side y q vq o)) parent s s' := by
  simp only [rep_sided, root_sided] at hrep
  obtain ⟨hq, ⟨hp, hx, hy⟩, ho⟩ := hrep
  simp only [nodup_addrs_sided, mem_addrs_sided, not_or] at hn
  obtain ⟨⟨hqp, hqx, hqy⟩, hqo, ⟨hpx, hpy, -, hyn, hxy⟩, -, hd⟩ := hn
  have hyr : ∀ b, y.root = some b → b ∈ y.addrs := fun b hb => mem_addrs_of_root hb
  obtain ⟨s', hrun, hp', hq', hm, hs', hne⟩ :=
    turnSingle_run hp hq hqp (fun h => hpy (hyr p h)) (fun h => hqy (hyr q h))
      fun b hb => hy.exists_cell (hyr b hb)
  -- away from `p`, `q` and the subtree that moves, nothing changes
  have hs : ∀ b, b ≠ p → b ≠ q → b ∉ y.addrs → s'.heap.cell b = s.heap.cell b := by
    intro b hbp hbq hby
    rw [hm b hbp hbq, if_neg fun h => hby (hyr b h)]
  refine ⟨s', hrun, ?_, ?_, ?_, ⟨?_, by rw [hs'], by rw [hs'], by rw [hs']⟩, hne, by rw [hs']⟩
  · simp only [rep_sided, root_sided]
    refine ⟨hp', hx.frame fun b hb => hs b ?_ ?_ ?_, hq',
      rep_of_moved hy hyn fun b hb => hm b ?_ ?_, ho.frame fun b hb => hs b ?_ ?_ ?_⟩
    all_goals grind
  · cases side <;> simp [sided]
  · cases side <;> simp [sided, Fair]
  · intro b hb
    simp only [mem_addrs_sided, not_or] at hb
    exact hs b hb.2.1.1 hb.1 hb.2.1.2.2

lemma turnDouble_run (hm : s.heap.cell m = some (.sided side vm (some p) o.root parent))
    (hp : s.heap.cell p = some (.sided side vp x.root (some q) (some m)))
    (hq : s.heap.cell q = some (.sided side vq y.root z.root (some p))) (hmp : m ≠ p) (hmq : m ≠ q)
    (hpq : p ≠ q) (hy : ∀ b, y.root = some b → b ≠ p ∧ b ≠ q ∧ b ≠ m ∧ ∃ n, s.heap.cell b = some n)
    (hz : ∀ b, z.root = some b → b ≠ p ∧ b ≠ q ∧ b ≠ m ∧ ∃ n, s.heap.cell b = some n)
    (hyz : ∀ b, y.root = some b → z.root ≠ some b) :
    ∃ s', turnDouble side m p q s = some ((), s') ∧
      s'.heap.cell p = some (.sided side vp x.root y.root (some q)) ∧
      s'.heap.cell q = some (.sided side vq (some p) (some m) parent) ∧
      s'.heap.cell m = some (.sided side vm z.root o.root (some q)) ∧
      (∀ b, b ≠ p → b ≠ q → b ≠ m → s'.heap.cell b =
        if y.root = some b then (s.heap.cell b).map (·.setParent (some p))
        else if z.root = some b then (s.heap.cell b).map (·.setParent (some m))
        else s.heap.cell b) ∧
      s' = { s with heap := s'.heap } ∧ s'.heap.next = s.heap.next := by
  have hyp : y.root ≠ some p := fun h => (hy p h).1 rfl
  have hyq : y.root ≠ some q := fun h => (hy q h).2.1 rfl
  have hym : y.root ≠ some m := fun h => (hy m h).2.2.1 rfl
  have hzp : z.root ≠ some p := fun h => (hz p h).1 rfl
  have hzq : z.root ≠ some q := fun h => (hz q h).2.1 rfl
  have hzm : z.root ≠ some m := fun h => (hz m h).2.2.1 rfl
  simp only [turnDouble, bind_eq_some, deref_eq_some, assign_eq_some, reparent_eq_some,
    set_cell, set_next, reparented_cell, reparented_next, hp, hq, hm, hmp, hmp.symm, hmq,
    hmq.symm, hpq, hpq.symm, hyp, hyq, hym, hzp, hzq, hzm, LNode.setParent_sided,
    LNode.setChild_sided, LNode.setChild_other_sided, LNode.sided_child, LNode.sided_child_other,
    LNode.sided_parent, Option.some.injEq, Option.map_some, Option.map_map, comp_apply,
    ne_eq, ↓reduceIte, ↓existsAndEq, exists_eq_left', exists_const, and_true, true_and, and_self]
  refine ⟨⟨fun b hb => ?_, fun b hb => ?_⟩, fun b hbp hbq hbm => ?_⟩
  · obtain ⟨hbp, hbq, hbm, hn⟩ := hy b hb
    simpa [hbp, hbq, hbm] using hn
  · obtain ⟨hbp, hbq, hbm, hn⟩ := hz b hb
    have hyb : y.root ≠ some b := fun h => hyz b h hb
    simpa [hyb, hbp, hbq, hbm] using hn
  · by_cases hb : z.root = some b
    · have hyb : y.root ≠ some b := fun h => hyz b h hb
      simp [hb, hyb, hbp, hbq, hbm]
    · simp [hb, hbp, hbq, hbm]

lemma turnDouble_spec
    (hrep : (sided side (.sided side x p vp (.sided side y q vq z)) m vm o).Rep s.heap.cell parent)
    (hn : (sided side (.sided side x p vp (.sided side y q vq z)) m vm o).addrs.Nodup) :
    ∃ s', turnDouble side m p q s = some ((), s') ∧
      Reshaped (.sided side (.sided side x p vp (.sided side y q vq z)) m vm o)
        (.sided side (.sided side x p vp y) q vq (.sided side z m vm o)) parent s s' := by
  simp only [rep_sided, root_sided] at hrep
  obtain ⟨hm, ⟨hp, hx, hq, hy, hz⟩, ho⟩ := hrep
  simp only [nodup_addrs_sided, mem_addrs_sided, not_or] at hn
  obtain ⟨⟨hmp, hmx, hmq, hmy, hmz⟩, hmo,
    ⟨hpx, ⟨hpq, hpy, hpz⟩, -, ⟨hqy, hqz, hyn, hzn, hyz⟩, hxi⟩, -, hd⟩ := hn
  have hyr : ∀ b, y.root = some b → b ∈ y.addrs := fun b hb => mem_addrs_of_root hb
  have hzr : ∀ b, z.root = some b → b ∈ z.addrs := fun b hb => mem_addrs_of_root hb
  obtain ⟨s', hrun, hp', hq', hm', hmv, hs', hne⟩ := turnDouble_run hm hp hq hmp hmq hpq
    (fun b hb => ⟨fun h => hpy (h ▸ hyr b hb), fun h => hqy (h ▸ hyr b hb),
      fun h => hmy (h ▸ hyr b hb), hy.exists_cell (hyr b hb)⟩)
    (fun b hb => ⟨fun h => hpz (h ▸ hzr b hb), fun h => hqz (h ▸ hzr b hb),
      fun h => hmz (h ▸ hzr b hb), hz.exists_cell (hzr b hb)⟩)
    fun b hb hb' => hyz b (hyr b hb) (hzr b hb')
  -- away from `p`, `q`, `m` and the subtrees that move, nothing changes
  have hs : ∀ b, b ≠ p → b ≠ q → b ≠ m → b ∉ y.addrs → b ∉ z.addrs →
      s'.heap.cell b = s.heap.cell b := by
    intro b hbp hbq hbm hby hbz
    rw [hmv b hbp hbq hbm, if_neg fun h => hby (hyr b h), if_neg fun h => hbz (hzr b h)]
  have hym : ∀ b ∈ y.addrs, s'.heap.cell b =
      if y.root = some b then (s.heap.cell b).map (·.setParent (some p)) else s.heap.cell b := by
    intro b hb
    have hbz : z.root ≠ some b := fun h => hyz b hb (hzr b h)
    rw [hmv b (fun h => hpy (h ▸ hb)) (fun h => hqy (h ▸ hb)) (fun h => hmy (h ▸ hb)), if_neg hbz]
  have hzm : ∀ b ∈ z.addrs, s'.heap.cell b =
      if z.root = some b then (s.heap.cell b).map (·.setParent (some m)) else s.heap.cell b := by
    intro b hb
    have hby : y.root ≠ some b := fun h => hyz b (hyr b h) hb
    rw [hmv b (fun h => hpz (h ▸ hb)) (fun h => hqz (h ▸ hb)) (fun h => hmz (h ▸ hb)), if_neg hby]
  refine ⟨s', hrun, ?_, ?_, ?_, ⟨?_, by rw [hs'], by rw [hs'], by rw [hs']⟩, hne, by rw [hs']⟩
  · simp only [rep_sided, root_sided]
    refine ⟨hq', ⟨hp', hx.frame fun b hb => hs b ?_ ?_ ?_ ?_ ?_, rep_of_moved hy hyn hym⟩,
      hm', rep_of_moved hz hzn hzm, ho.frame fun b hb => hs b ?_ ?_ ?_ ?_ ?_⟩
    all_goals grind
  · cases side <;> simp [sided]
  · cases side <;> simp [sided, Fair]
  · intro b hb
    simp only [mem_addrs_sided, not_or] at hb
    obtain ⟨hbm, ⟨hbp, -, hbq, hby, hbz⟩, -⟩ := hb
    exact hs b hbp hbq hbm hby hbz

lemma rotateSingle_spec (hrep : (sided side (.sided side x p vp y) q vq o).Rep s.heap.cell parent)
    (hn : (sided side (.sided side x p vp y) q vq o).addrs.Nodup) :
    ∃ s', rotateSingle side q p s = some (.returned 0 (some p), s') ∧
      Reshaped (.sided side (.sided side x p vp y) q vq o)
        (.sided side x p { vp with bal := 0 } (.sided side y q { vq with bal := 0 } o))
        parent s s' ∧
      s'.checkBalance = false := by
  obtain ⟨s1, hr1, h1⟩ := turnSingle_spec hrep hn
  obtain ⟨s2, hr2, h2⟩ := setBal_spec h1.rep (a := p) (by simp [mem_addrs_sided]) fairBal_zero
  obtain ⟨s3, hr3, h3⟩ := setBal_spec h2.rep (a := q)
    (by simp [withBal, mem_addrs_sided]) fairBal_zero
  simp only [nodup_addrs_sided, mem_addrs_sided, not_or] at hn
  obtain ⟨⟨hqp, hqx, hqy⟩, hqo, ⟨hpx, hpy, -, -, -⟩, -, hd⟩ := hn
  have hpo : p ∉ o.addrs := hd p (.inl rfl)
  have ht : withBal (withBal (.sided side x p vp (.sided side y q vq o)) p 0) q 0 =
      .sided side x p { vp with bal := 0 } (.sided side y q { vq with bal := 0 } o) := by
    simp [withBal_sided, withBal_of_not_mem, hpx, hpy, hpo, hqx, hqy, hqo, hqp, Ne.symm hqp]
  refine ⟨{ s3 with checkBalance := false }, ?_, ?_, rfl⟩
  · rw [rotateSingle, bind_run hr1, bind_run hr2, bind_run hr3]
    rfl
  · rw [← ht]
    exact ((h1.trans h2).trans h3).setCheckBalance false

def withBals (t : LTree (Element K)) (p q m : ℕ) (bp bq bm : ℤ) : LTree (Element K) :=
  withBal (withBal (withBal t q bq) p bp) m bm

lemma setBals_spec (hrep : t.Rep s.heap.cell parent) (hp : p ∈ t.addrs) (hq : q ∈ t.addrs)
    (hm : m ∈ t.addrs) {bp bq bm : ℤ} (hbp : FairBal bp) (hbq : FairBal bq) (hbm : FairBal bm) :
    ∃ s', (do setBal q bq; setBal p bp; setBal m bm : TreeProg K Unit) s = some ((), s') ∧
      Reshaped t (withBals t p q m bp bq bm) parent s s' := by
  obtain ⟨s1, hr1, h1⟩ := setBal_spec hrep hq hbq
  obtain ⟨s2, hr2, h2⟩ := setBal_spec h1.rep (h1.addrs ▸ hp) hbp
  obtain ⟨s3, hr3, h3⟩ := setBal_spec h2.rep ((h1.trans h2).addrs ▸ hm) hbm
  refine ⟨s3, ?_, (h1.trans h2).trans h3⟩
  rw [bind_run hr1, bind_run hr2, hr3]

/-- The tree after `rebalanceDouble`. -/
def rebalancedDouble (side : Side) (m p q : ℕ) (bal : ℤ) (t : LTree (Element K)) :
    LTree (Element K) :=
  if bal = 0 then withBals t p q m 0 0 0
  else if bal = sign side then withBals t p q m 0 0 (sign side.other)
  else if bal = sign side.other then withBals t p q m (sign side) 0 0
  else t

lemma root_rebalancedDouble (side : Side) (m p q : ℕ) (bal : ℤ) (t : LTree (Element K)) :
    (rebalancedDouble side m p q bal t).root = t.root := by
  unfold rebalancedDouble withBals
  split_ifs <;> simp only [root_withBal]

lemma rebalanceDouble_spec (side : Side) (hrep : t.Rep s.heap.cell parent) (hp : p ∈ t.addrs)
    (hq : q ∈ t.addrs) (hm : m ∈ t.addrs) (bal : ℤ) :
    ∃ s', rebalanceDouble side m p q bal s = some ((), s') ∧
      Reshaped t (rebalancedDouble side m p q bal t) parent s s' := by
  unfold rebalanceDouble rebalancedDouble
  split_ifs with h0 h1 h2
  · exact setBals_spec hrep hp hq hm fairBal_zero fairBal_zero fairBal_zero
  · exact setBals_spec hrep hp hq hm fairBal_zero fairBal_zero (fairBal_sign _)
  · exact setBals_spec hrep hp hq hm (fairBal_sign _) fairBal_zero fairBal_zero
  · exact ⟨s, rfl, .refl hrep⟩

lemma rotateDouble_spec
    (hrep : (sided side (.sided side x p vp (.sided side y q vq z)) m vm o).Rep s.heap.cell parent)
    (hn : (sided side (.sided side x p vp (.sided side y q vq z)) m vm o).addrs.Nodup) :
    ∃ s', rotateDouble side m p s = some (.returned 0 (some q), s') ∧
      Reshaped (.sided side (.sided side x p vp (.sided side y q vq z)) m vm o)
        (rebalancedDouble side m p q vq.bal
          (.sided side (.sided side x p vp y) q vq (.sided side z m vm o))) parent s s' ∧
      s'.checkBalance = false := by
  have hp := (rep_sided.mp (rep_sided.mp hrep).2.1).1
  obtain ⟨s1, hr1, h1⟩ := turnDouble_spec hrep hn
  have hq := (rep_sided.mp h1.rep).1
  obtain ⟨s2, hr2, h2⟩ := rebalanceDouble_spec side (p := p) (q := q) (m := m)
    h1.rep (by simp [mem_addrs_sided]) (by simp [mem_addrs_sided])
    (by simp [mem_addrs_sided]) vq.bal
  refine ⟨{ s2 with checkBalance := false }, ?_, (h1.trans h2).setCheckBalance false, rfl⟩
  rw [rotateDouble, bind_run (deref_run hp), LNode.sided_child_other, root_sided,
    bind_run (ofOption_eq_some.mpr ⟨rfl, rfl⟩), bind_run hr1,
    bind_run (deref_run hq), LNode.sided_value, bind_run hr2]
  rfl

end Rotations

def Fresh (t : LTree (Element K)) : Prop := ∃ a k, t = .node .nil a ⟨k, 0⟩ .nil

def Tall (t : LTree (Element K)) : Prop :=
  ∃ side u a v o, t = .sided side u a v o ∧ v.bal = sign side ∧ u ≠ .nil

lemma sided_ne_nil (side : Side) (u o : LTree (Element K)) (a : ℕ) (v : Element K) :
    sided side u a v o ≠ .nil := by
  cases side <;> exact nofun

lemma Tall.ne_nil (h : Tall t) : t ≠ .nil := by
  obtain ⟨side, u, a, v, o, rfl, -, -⟩ := h
  exact sided_ne_nil side u o a v

lemma exists_sided (h : t ≠ .nil) (side : Side) : ∃ u a v o, t = .sided side u a v o := by
  cases t with
  | nil => exact absurd rfl h
  | node l a v r =>
    cases side with
    | left => exact ⟨l, a, v, r, rfl⟩
    | right => exact ⟨r, a, v, l, rfl⟩

lemma sided_other (side : Side) (u o : LTree (Element K)) (a : ℕ) (v : Element K) :
    sided side.other u a v o = .sided side o a v u := by
  cases side <;> rfl

section Rebalance

variable {side : Side} {u o : LTree (Element K)} {a : ℕ} {v : Element K} {parent : Option ℕ}
  {s : State K}

def Rearranged (t : LTree (Element K)) (parent : Option ℕ) (x : TreeProg K AddResult)
    (s : State K) : Prop :=
  ∃ t' s', x s = some (.returned 0 t'.root, s') ∧ Reshaped t t' parent s s' ∧
    (s'.checkBalance = true → Tall t')

lemma withBal_root (hn : (sided side u a v o).addrs.Nodup) (bal : ℤ) :
    withBal (.sided side u a v o) a bal = .sided side u a { v with bal := bal } o := by
  obtain ⟨hau, hao, -⟩ := nodup_addrs_sided.mp hn
  rw [withBal_sided, withBal_of_not_mem hau, withBal_of_not_mem hao, if_pos rfl]

section

variable (hrep : (sided side u a v o).Rep s.heap.cell parent)
  (hn : (sided side u a v o).addrs.Nodup)

include hrep hn

lemma rebalance_level (hb : v.bal = sign side.other) :
    ∃ s', rebalance side a s = some (.returned 0 (some a), s') ∧
      Reshaped (.sided side u a v o) (.sided side u a { v with bal := 0 } o) parent s s' ∧
      s'.checkBalance = false := by
  obtain ⟨s1, hrun, h1⟩ := setBal_spec hrep (a := a) (by simp [mem_addrs_sided]) fairBal_zero
  refine ⟨{ s1 with checkBalance := false }, ?_, ?_, rfl⟩
  · rw [rebalance, bind_run (deref_run (rep_sided.mp hrep).1), LNode.sided_value,
      if_pos hb, bind_run hrun]
    rfl
  · rw [withBal_root hn] at h1
    exact h1.setCheckBalance false

lemma rebalance_higher (hb : v.bal = 0) :
    ∃ s', rebalance side a s = some (.returned 0 (some a), s') ∧
      Reshaped (.sided side u a v o) (.sided side u a { v with bal := sign side } o) parent s s' ∧
      s'.checkBalance = true := by
  obtain ⟨s1, hrun, h1⟩ := setBal_spec hrep (a := a) (by simp [mem_addrs_sided])
    (fairBal_sign side)
  refine ⟨{ s1 with checkBalance := true }, ?_, ?_, rfl⟩
  · rw [rebalance, bind_run (deref_run (rep_sided.mp hrep).1), LNode.sided_value,
      if_neg (hb ▸ (sign_ne_zero _).symm), if_pos hb, bind_run hrun]
    rfl
  · rw [withBal_root hn] at h1
    exact h1.setCheckBalance true

end

lemma rebalance_eq (hrep : (sided side (.sided side x p vp y) a v o).Rep s.heap.cell parent)
    (hb : v.bal = sign side) :
    rebalance side a s = (if vp.bal = sign side then rotateSingle side a p
      else if vp.bal = sign side.other then rotateDouble side a p
      else pure (wierdCase a side) : TreeProg K AddResult) s := by
  obtain ⟨ha, hi, -⟩ := rep_sided.mp hrep
  have hp := (rep_sided.mp hi).1
  rw [rebalance, bind_run (deref_run ha), LNode.sided_value, if_neg (hb ▸ sign_other_ne side),
    if_neg (hb ▸ sign_ne_zero side), if_pos hb, LNode.sided_child, root_sided,
    bind_run (ofOption_eq_some.mpr ⟨rfl, rfl⟩), bind_run (deref_run hp), LNode.sided_value]

lemma rebalance_turn (hrep : (sided side u a v o).Rep s.heap.cell parent)
    (hn : (sided side u a v o).addrs.Nodup) (hb : v.bal = sign side) (hu : Tall u) :
    Rearranged (.sided side u a v o) parent (rebalance side a) s := by
  obtain ⟨side', x, p, vp, y, rfl, hvp, hx⟩ := hu
  by_cases hs : side' = side
  · subst hs
    obtain ⟨s', hrun, h, hc⟩ := rotateSingle_spec hrep hn
    refine ⟨_, s', ?_, h, fun h' => nomatch hc.symm.trans h'⟩
    rw [rebalance_eq hrep hb, if_pos hvp, hrun, root_sided]
  · -- the child is higher on its inner side: what is there comes to the top
    obtain rfl : side' = side.other := by cases side <;> cases side' <;> simp_all [Side.other]
    obtain ⟨x1, q, vq, x2, rfl⟩ := exists_sided hx side
    rw [sided_other] at hrep hn ⊢
    obtain ⟨s', hrun, h, hc⟩ := rotateDouble_spec hrep hn
    refine ⟨_, s', ?_, h, fun h' => nomatch hc.symm.trans h'⟩
    rw [rebalance_eq hrep hb, if_neg (hvp ▸ (sign_other_ne side).symm), if_pos hvp, hrun,
      root_rebalancedDouble, root_sided]

lemma rebalance_exits (hrep : (sided .left u a v o).Rep s.heap.cell parent)
    (hb : v.bal = sign .left) (hu : Fresh u) : rebalance .left a s = some (.exited, s) := by
  obtain ⟨p, k, rfl⟩ := hu
  rw [rebalance_eq (x := .nil) (y := .nil) hrep hb]
  rfl

lemma rebalance_right (hrep : (sided .right u a v o).Rep s.heap.cell parent)
    (hb : v.bal = sign .right) (hu : Fresh u) :
    Rearranged (.sided .right u a v o) parent (rebalance .right a) s := by
  obtain ⟨p, k, rfl⟩ := hu
  refine ⟨_, s, ?_, .refl hrep, fun _ => ⟨.right, _, a, v, o, rfl, hb, nofun⟩⟩
  rw [rebalance_eq (x := .nil) (y := .nil) hrep hb]
  rfl

lemma Tall.not_fresh (h : Tall t) : ¬ Fresh t := by
  rintro ⟨b, k, rfl⟩
  obtain ⟨side, u, a, v, o, ht, -, hu⟩ := h
  cases side with
  | left =>
    obtain ⟨rfl, -⟩ := node.inj ht
    exact hu rfl
  | right =>
    obtain ⟨-, -, -, rfl⟩ := node.inj ht
    exact hu rfl

/-- **Rebalancing**: unless a new leaf is the left child of a node with balance factor -1. -/
theorem rebalance_spec (hrep : (sided side u a v o).Rep s.heap.cell parent)
    (hn : (sided side u a v o).addrs.Nodup) (hf : FairBal v.bal)
    (hu : Fresh u ∨ Tall u) (hp : ¬ (side = .left ∧ v.bal = sign .left ∧ Fresh u)) :
    Rearranged (.sided side u a v o) parent (rebalance side a) s := by
  have hne : u ≠ .nil := by
    rcases hu with ⟨b, k, rfl⟩ | hu
    · exact nofun
    · exact hu.ne_nil
  rcases hf.cases side with hb | hb | hb
  · obtain ⟨s', hrun, h, hc⟩ := rebalance_level hrep hn hb
    exact ⟨_, s', by rw [hrun, root_sided], h, fun h' => nomatch hc.symm.trans h'⟩
  · obtain ⟨s', hrun, h, -⟩ := rebalance_higher hrep hn hb
    exact ⟨_, s', by rw [hrun, root_sided], h, fun _ => ⟨side, u, a, _, o, rfl, rfl, hne⟩⟩
  · rcases hu with hu | hu
    · cases side with
      | left => exact absurd ⟨rfl, hb, hu⟩ hp
      | right => exact rebalance_right hrep hb hu
    · exact rebalance_turn hrep hn hb hu

end Rebalance

/-! ## The place of a key -/

section Place

variable [LinearOrder K]

def Increasing (es : List (ℕ × K)) : Prop := es.Pairwise fun e e' => e.2 < e'.2

def BadPlace (k : K) : LTree (Element K) → Prop
  | .nil => False
  | .node l _ v r =>
    if k < v.data then (l = .nil ∧ v.bal = -1) ∨ BadPlace k l
    else if v.data < k then BadPlace k r
    else False

def Inserted (a : ℕ) (k : K) (es es' : List (ℕ × K)) : Prop :=
  ∃ xs ys, es = xs ++ ys ∧ es' = xs ++ (a, k) :: ys ∧ (∀ e ∈ xs, e.2 < k) ∧ ∀ e ∈ ys, k < e.2

section

variable (h : Inserted a k es es')

include h

lemma Inserted.perm : es'.Perm ((a, k) :: es) := by
  obtain ⟨xs, ys, rfl, rfl, -, -⟩ := h
  exact perm_middle

lemma Inserted.increasing (hes : Increasing es) : Increasing es' := by
  obtain ⟨xs, ys, rfl, rfl, hxs, hys⟩ := h
  unfold Increasing at hes ⊢
  rw [pairwise_append] at hes ⊢
  refine ⟨hes.1, pairwise_cons.mpr ⟨hys, hes.2.1⟩, ?_⟩
  intro e he e' he'
  rcases mem_cons.mp he' with rfl | he'
  · exact hxs e he
  · exact hes.2.2 e he e' he'

lemma Inserted.left {b : ℕ} {d : K} {os : List (ℕ × K)} (hkd : k < d)
    (hos : ∀ e ∈ os, d < e.2) : Inserted a k (es ++ (b, d) :: os) (es' ++ (b, d) :: os) := by
  obtain ⟨xs, ys, rfl, rfl, hxs, hys⟩ := h
  refine ⟨xs, ys ++ (b, d) :: os, by simp, by simp, hxs, ?_⟩
  intro e he
  rcases mem_append.mp he with he | he
  · exact hys e he
  · rcases mem_cons.mp he with rfl | he
    · exact hkd
    · exact hkd.trans (hos e he)

lemma Inserted.right {b : ℕ} {d : K} {os : List (ℕ × K)} (hkd : d < k)
    (hos : ∀ e ∈ os, e.2 < d) : Inserted a k (os ++ (b, d) :: es) (os ++ (b, d) :: es') := by
  obtain ⟨xs, ys, rfl, rfl, hxs, hys⟩ := h
  refine ⟨os ++ (b, d) :: xs, ys, by simp, by simp, ?_, hys⟩
  intro e he
  rcases mem_append.mp he with he | he
  · exact (hos e he).trans hkd
  · rcases mem_cons.mp he with rfl | he
    · exact hkd
    · exact hxs e he

end

def Toward (k d : K) : Side → Prop
  | .left => k < d
  | .right => d < k

section Toward

variable {side : Side} {u u' o : LTree (Element K)} {a b : ℕ} {v : Element K} {k : K}

lemma mem_keys_sided (side : Side) (hi : Increasing (entries (.sided side u a v o)))
    (hto : Toward k v.data side) : k ∈ keys (.sided side u a v o) ↔ k ∈ keys u := by
  simp only [keys, mem_map]
  cases side with
  | left =>
    simp only [sided, entries_node, Increasing, pairwise_append,
      pairwise_cons, mem_append, mem_cons] at hi hto ⊢
    constructor
    · rintro ⟨e, he | rfl | he, rfl⟩
      · exact ⟨e, he, rfl⟩
      · exact absurd hto (lt_irrefl _)
      · exact absurd (hi.2.1.1 e he) (not_lt_of_gt hto)
    · rintro ⟨e, he, rfl⟩
      exact ⟨e, .inl he, rfl⟩
  | right =>
    simp only [sided, entries_node, Increasing, pairwise_append,
      pairwise_cons, mem_append, mem_cons] at hi hto ⊢
    constructor
    · rintro ⟨e, he | rfl | he, rfl⟩
      · exact absurd (hi.2.2 e he _ (.inl rfl)) (not_lt_of_gt hto)
      · exact absurd hto (lt_irrefl _)
      · exact ⟨e, he, rfl⟩
    · rintro ⟨e, he, rfl⟩
      exact ⟨e, .inr (.inr he), rfl⟩

lemma increasing_of_sided (side : Side) (hi : Increasing (entries (.sided side u a v o))) :
    Increasing (entries u) := by
  cases side with
  | left =>
    rw [sided, entries_node, Increasing, pairwise_append] at hi
    exact hi.1
  | right =>
    rw [sided, entries_node, Increasing, pairwise_append, pairwise_cons] at hi
    exact hi.2.1.2

lemma Inserted.sided (h : Inserted b k (entries u) (entries u'))
    (hi : Increasing (entries (.sided side u a v o))) (hto : Toward k v.data side) :
    Inserted b k (entries (.sided side u a v o)) (entries (.sided side u' a v o)) := by
  cases side with
  | left =>
    simp only [sided, entries_node, Increasing, pairwise_append, pairwise_cons] at hi ⊢
    exact h.left hto hi.2.1.1
  | right =>
    simp only [sided, entries_node, Increasing, pairwise_append, pairwise_cons] at hi ⊢
    exact h.right hto fun e he => hi.2.2 e he _ (.head _)

lemma badPlace_sided (hto : Toward k v.data side) :
    BadPlace k (.sided side u a v o) ↔ (side = .left ∧ u = .nil ∧ v.bal = -1) ∨ BadPlace k u := by
  cases side with
  | left =>
    have hlt : k < v.data := hto
    rw [sided, BadPlace, if_pos hlt]
    simp
  | right =>
    have hlt : v.data < k := hto
    rw [sided, BadPlace, if_neg (not_lt_of_gt hlt), if_pos hlt]
    simp

end Toward

end Place

structure Placed [LinearOrder K] (k : K) (t t' : LTree (Element K)) (parent : Option ℕ)
    (s s' : State K) : Prop where
  rep : t'.Rep s'.heap.cell parent
  entries : Inserted s.heap.next k (entries t) (entries t')
  fair : Fair t'
  touches : Touches (s.heap.next :: t.addrs) s s'
  next : s'.heap.next = s.heap.next + 1
  parent : s'.parent = none

/-- How `Tree_Add` ends on a tree. -/
inductive AddSpec [LinearOrder K] (noMemory : Bool) (k : K) (t : LTree (Element K))
    (parent : Option ℕ) (s : State K) : AddResult → State K → Prop
  | present {s' : State K} (hk : k ∈ keys t) (hheap : s'.heap = s.heap)
      (htouches : Touches [] s s') : AddSpec noMemory k t parent s (.returned (-1) t.root) s'
  | exited {s' : State K} (hk : k ∉ keys t)
      (hbad : noMemory = true ∨ BadPlace k t) : AddSpec noMemory k t parent s .exited s'
  /-- The key has been inserted.  A tree that has become higher is a new leaf, or it is tall. -/
  | added {t' : LTree (Element K)} {s' : State K} (hk : k ∉ keys t)
      (hgood : noMemory = false ∧ ¬ BadPlace k t) (hplaced : Placed k t t' parent s s')
      (hleaf : t = .nil → Fresh t' ∧ s'.checkBalance = true)
      (hgrown : t ≠ .nil → s'.checkBalance = true → Tall t') :
      AddSpec noMemory k t parent s (.returned 0 t'.root) s'

section Insertion

variable [LinearOrder K] {noMemory : Bool} {k : K} {t t' t'' u u' o : LTree (Element K)}
  {parent : Option ℕ} {s s' s'' s2 : State K} {side : Side} {a : ℕ} {v : Element K} {r : AddResult}

lemma Placed.addrs_perm (h : Placed k t t' parent s s') :
    t'.addrs.Perm (s.heap.next :: t.addrs) := by
  rw [← map_fst_entries, ← map_fst_entries]
  exact h.entries.perm.map Prod.fst

lemma Placed.reshaped (h : Placed k t t' parent s s') (h' : Reshaped t' t'' parent s' s'') :
    Placed k t t'' parent s s'' where
  rep := h'.rep
  entries := h'.entries ▸ h.entries
  fair := h'.fair h.fair
  touches := h.touches.trans h'.touches fun _ hb hmem => hb (h.addrs_perm.mem_iff.mp hmem)
  next := h'.next.trans h.next
  parent := h'.parent.trans h.parent

lemma Placed.sided (h : Placed k u u' (some a) { s with parent := some a } s2)
    (hrep : (sided side u a v o).Rep s.heap.cell parent)
    (hnd : (sided side u a v o).addrs.Nodup) (hf : Fair (.sided side u a v o))
    (hi : Increasing (Avl.entries (.sided side u a v o))) (hto : Toward k v.data side) :
    ∃ s3, afterInsertion side a (.returned 0 u'.root) s2 =
        (if s2.checkBalance then rebalance side a
        else do setCheckBalance false; return .returned 0 (some a) : TreeProg K AddResult) s3 ∧
      Placed k (.sided side u a v o) (.sided side u' a v o) parent s s3 ∧
      (sided side u' a v o).addrs.Nodup := by
  obtain ⟨ha, -, ho⟩ := rep_sided.mp hrep
  have hne := next_not_mem_addrs hrep
  rw [nodup_addrs_sided] at hnd
  obtain ⟨hau, hao, hu, hon, hd⟩ := hnd
  rw [mem_addrs_sided, not_or, not_or] at hne
  obtain ⟨hna, hnu, hno⟩ := hne
  have hmem : ∀ b, b ∈ u'.addrs ↔ b = s.heap.next ∨ b ∈ u.addrs := by
    intro b
    rw [h.addrs_perm.mem_iff, mem_cons]
  have ha2 : s2.heap.cell a = some (.sided side v u.root o.root parent) := by
    refine (h.touches.cell a ?_).trans ha
    rw [mem_cons, not_or]
    exact ⟨Ne.symm hna, hau⟩
  have ha' : a ∉ u'.addrs := by
    rw [hmem, not_or]
    exact ⟨Ne.symm hna, hau⟩
  refine ⟨{ s2 with heap := s2.heap.set a (.sided side v u'.root o.root parent) }, ?_, ?_, ?_⟩
  · rw [afterInsertion, bind_run (assign_eq_some.mpr ⟨_, ha2, rfl⟩) (a := ()), LNode.setChild_sided]
    rfl
  · refine ⟨?_, h.entries.sided hi hto, ?_, ?_, h.next, h.parent⟩
    · refine rep_sided.mpr ⟨set_cell_self ha2, h.rep.frame ?_, ho.frame ?_⟩
      · intro b hb
        exact set_cell_of_ne fun hba => ha' (hba ▸ hb)
      · intro b hb
        rw [set_cell_of_ne fun hba : b = a => hao (hba ▸ hb), h.touches.cell b]
        rw [mem_cons, not_or]
        exact ⟨fun hbn => hno (hbn ▸ hb), fun hbu => hd b hbu hb⟩
    · intro n hn
      cases side <;> simp [sided, Fair] at hf hn <;> grind [Placed, Fair]
    · refine ⟨?_, h.touches.trees, h.touches.root, h.touches.exited⟩
      intro b hb
      simp only [mem_cons, mem_addrs_sided, not_or] at hb
      rw [set_cell_of_ne hb.2.1, h.touches.cell b]
      rw [mem_cons, not_or]
      exact ⟨hb.1, hb.2.2.1⟩
  · rw [nodup_addrs_sided]
    refine ⟨ha', hao, ?_, hon, ?_⟩
    · exact h.addrs_perm.nodup_iff.mpr (nodup_cons.mpr ⟨hnu, hu⟩)
    · intro b hb
      rcases (hmem b).mp hb with rfl | hb
      · exact hno
      · exact hd b hb

lemma rebalance_added (h : Placed k (.sided side u a v o) (.sided side u' a v o) parent s s')
    (hn : (sided side u' a v o).addrs.Nodup) (hfa : FairBal v.bal)
    (hk : k ∉ keys (.sided side u a v o)) (hto : Toward k v.data side)
    (hgo : noMemory = false ∧ ¬ BadPlace k u) (hl : u = .nil → Fresh u') (hg : u ≠ .nil → Tall u') :
    ∃ r s'', rebalance side a s' = some (r, s'') ∧
      AddSpec noMemory k (.sided side u a v o) parent s r s'' := by
  have hp := badPlace_sided (u := u) (o := o) (a := a) hto
  by_cases hba : side = .left ∧ u = .nil ∧ v.bal = -1
  · obtain ⟨rfl, hu, hb⟩ := hba
    refine ⟨.exited, s', rebalance_exits h.rep hb (hl hu), .exited hk (.inr ?_)⟩
    exact hp.mpr (.inl ⟨rfl, hu, hb⟩)
  · have hu' : Fresh u' ∨ Tall u' := by
      by_cases hu : u = .nil
      · exact .inl (hl hu)
      · exact .inr (hg hu)
    have hok : ¬ (side = .left ∧ v.bal = sign .left ∧ Fresh u') := by
      rintro ⟨hs, hb, hf⟩
      refine hba ⟨hs, ?_, hb⟩
      by_contra hu
      exact (hg hu).not_fresh hf
    obtain ⟨t', s'', hrun, hr, ht⟩ := rebalance_spec h.rep hn hfa hu' hok
    refine ⟨_, s'', hrun, .added hk ⟨hgo.1, ?_⟩ (h.reshaped hr) ?_ fun _ => ht⟩
    · rw [hp]
      exact not_or.mpr ⟨hba, hgo.2⟩
    · exact fun hni => absurd hni (sided_ne_nil side u o a v)

lemma afterInsertion_spec (side : Side) (hrep : (sided side u a v o).Rep s.heap.cell parent)
    (hn : (sided side u a v o).addrs.Nodup) (hf : Fair (.sided side u a v o))
    (hi : Increasing (entries (.sided side u a v o))) (hto : Toward k v.data side)
    (h : AddSpec noMemory k u (some a) { s with parent := some a } r s2) :
    ∃ r' s', afterInsertion side a r s2 = some (r', s') ∧
      AddSpec noMemory k (.sided side u a v o) parent s r' s' := by
  have hke := mem_keys_sided side hi hto
  have hp := badPlace_sided (u := u) (o := o) (a := a) hto
  cases h with
  | present hk hhe ht =>
    have ha : s2.heap.cell a = some (.sided side v u.root o.root parent) := by
      rw [hhe]
      exact (rep_sided.mp hrep).1
    refine ⟨_, { s2 with checkBalance := false }, ?_, .present (hke.mpr hk) hhe ?_⟩
    · rw [afterInsertion, bind_run (assign_eq_some.mpr ⟨_, ha, rfl⟩) (a := ()),
        LNode.setChild_sided, set_eq_self ha, root_sided]
      rfl
    · exact ⟨ht.cell, ht.trees, ht.root, ht.exited⟩
  | exited hk hb =>
    refine ⟨.exited, s2, rfl, .exited (fun hk' => hk (hke.mp hk')) ?_⟩
    rw [hp]
    tauto
  | @added u' s2 hk hg hpl hl hgr =>
    obtain ⟨s3, hs, hp3, hn3⟩ := hpl.sided hrep hn hf hi hto
    have hk' : k ∉ keys (.sided side u a v o) := by
      intro hmem
      exact hk (hke.mp hmem)
    by_cases hh : s2.checkBalance = true
    · have hv : FairBal v.bal := hf (a, v) (by cases side <;> simp [sided])
      rw [hs, if_pos hh]
      exact rebalance_added hp3 hn3 hv hk' hto hg (fun hu => (hl hu).1) fun hu => hgr hu hh
    · -- a new leaf always makes its place higher, so it is not the child of the node
      have hb : ¬ (side = .left ∧ u = .nil ∧ v.bal = -1) := by
        rintro ⟨-, hu, -⟩
        exact hh (hl hu).2
      rw [hs, if_neg hh]
      refine ⟨.returned 0 (sided side u' a v o).root, { s3 with checkBalance := false }, ?_,
        .added hk' ⟨hg.1, ?_⟩ (hp3.reshaped ((Reshaped.refl hp3.rep).setCheckBalance false)) ?_
          (by rintro _ ⟨⟩)⟩
      · rw [root_sided]
        rfl
      · rw [hp]
        exact not_or.mpr ⟨hb, hg.2⟩
      · exact fun hni => absurd hni (sided_ne_nil side u o a v)

lemma treeAdd_nil (theComp : Comparator K) (fuel : ℕ) (hp : s.parent = parent) :
    ∃ r s', treeAdd theComp noMemory k (fuel + 1) none s = some (r, s') ∧
      AddSpec noMemory k .nil parent s r s' := by
  have hk : k ∉ keys (.nil : LTree (Element K)) := by simp [keys]
  cases noMemory with
  | true => exact ⟨.exited, s, rfl, .exited hk (.inl rfl)⟩
  | false =>
    refine ⟨.returned 0 (node .nil s.heap.next ⟨k, 0⟩ .nil).root, _, rfl,
      .added hk ⟨rfl, id⟩ ⟨?_, ?_, ?_, ⟨?_, rfl, rfl, rfl⟩, rfl, rfl⟩ ?_ nofun⟩
    · subst hp
      exact ⟨alloc_cell_next, trivial, trivial⟩
    · exact ⟨[], [], rfl, rfl, by simp, by simp⟩
    · intro n hn
      obtain rfl : n = (s.heap.next, ⟨k, 0⟩) := by simpa using hn
      exact fairBal_zero
    · intro b hb
      exact alloc_cell_of_ne (by simpa using hb)
    · exact fun _ => ⟨⟨_, _, rfl⟩, rfl⟩

/-- **Insertion**: `Tree_Add` on a link to a search tree. -/
theorem treeAdd_spec (theComp : Comparator K) {fuel : ℕ} (hrep : t.Rep s.heap.cell parent)
    (hno : t.addrs.Nodup) (hf : Fair t) (hi : Increasing (entries t))
    (hpa : t = .nil → s.parent = parent) (hfu : t.nodes.length < fuel) :
    ∃ r s', treeAdd theComp noMemory k fuel t.root s = some (r, s') ∧
      AddSpec noMemory k t parent s r s' := by
  induction t generalizing fuel parent s with
  | nil =>
    obtain _ | fuel := fuel
    · omega
    · exact treeAdd_nil theComp fuel (hpa rfl)
  | node l a v r ihl ihr =>
    obtain _ | fuel := fuel
    · omega
    have ⟨ha, hl, hr⟩ := hrep
    simp only [nodes_node, length_append, length_cons] at hfu
    have hst : treeAdd theComp noMemory k (fuel + 1) (some a) s = _ := bind_run (deref_run ha) _
    rw [root_node, hst]
    rcases lt_trichotomy k v.data with hlt | rfl | hlt
    · rw [if_pos ((theComp.pos_iff _ _).mpr hlt)]
      have hp := nodup_addrs_of_sided .left hno
      obtain ⟨res, s2, hrun, hs⟩ := ihl (s := { s with parent := some a }) hl hp
        (fun n hn => hf n (by simp [hn])) (increasing_of_sided .left hi)
        (fun _ => rfl) (by omega : l.nodes.length < fuel)
      obtain ⟨res', s', hr', hs'⟩ := afterInsertion_spec .left hrep hno hf hi hlt hs
      exact ⟨res', s', (bind_run rfl _).trans ((bind_run hrun _).trans hr'), hs'⟩
    · rw [if_neg (by rw [theComp.pos_iff]; exact lt_irrefl _),
        if_neg (by rw [theComp.neg_iff]; exact lt_irrefl _)]
      refine ⟨_, { s with checkBalance := false }, rfl, .present (by simp [keys]) rfl ?_⟩
      exact ⟨fun _ _ => rfl, rfl, rfl, rfl⟩
    · rw [if_neg (by rw [theComp.pos_iff]; exact not_lt_of_gt hlt),
        if_pos ((theComp.neg_iff _ _).mpr hlt)]
      have hp := nodup_addrs_of_sided .right hno
      obtain ⟨res, s2, hrun, hs⟩ := ihr (s := { s with parent := some a }) hr hp
        (fun n hn => hf n (by simp [hn])) (increasing_of_sided .right hi)
        (fun _ => rfl) (by omega : r.nodes.length < fuel)
      obtain ⟨res', s', hr', hs'⟩ := afterInsertion_spec .right hrep hno hf hi hlt hs
      exact ⟨res', s', (bind_run rfl _).trans ((bind_run hrun _).trans hr'), hs'⟩

end Insertion

end Glomop.ClientLib.Avl
