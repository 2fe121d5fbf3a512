import Glomop.ClientLib.AvlInsertion

/-!
# Deletion from the AVL tree

`Tree_Delete` finds the node of a key and frees it, or its successor after the successor's key has
been moved to it.  What is freed has at most one child, which takes its place (`unlink_spec`).  The
links are changed by way of the parent pointers, and at the root of the tree by way of the static
variable `root`; the balance factors stay as they are.
-/

namespace Glomop.ClientLib.Avl

open Glomop.Lib Function List Heap Prog LCtx LTree

variable {K : Type}

/-! ## Taking a node out -/

section Unlink

variable {c : LCtx (Element K)} {l r x : LTree (Element K)} {a i : ℕ} {v : Element K}
  {s : State K}

/-- The node `a` has at most one child, and `x` is the subtree there. -/
def OnlyChild (l r x : LTree (Element K)) : Prop := (l = .nil ∧ x = r) ∨ (r = .nil ∧ x = l)

section

variable (h : OnlyChild l r x)

include h

lemma OnlyChild.nodes : x.nodes = l.nodes ++ r.nodes := by
  rcases h with ⟨rfl, rfl⟩ | ⟨rfl, rfl⟩ <;> simp

lemma OnlyChild.root : (if l.root.isSome then l.root else r.root) = x.root := by
  rcases h with ⟨rfl, rfl⟩ | ⟨rfl, rfl⟩
  · rfl
  · cases x <;> rfl

lemma OnlyChild.addrs : x.addrs = l.addrs ++ r.addrs := by
  simp [LTree.addrs, h.nodes]

lemma OnlyChild.rep {cell : ℕ → Option (LNode (Element K))} {parent : Option ℕ}
    (hl : l.Rep cell parent) (hr : r.Rep cell parent) : x.Rep cell parent := by
  rcases h with ⟨-, rfl⟩ | ⟨-, rfl⟩
  · exact hr
  · exact hl

end

structure Unlinked (i a : ℕ) (t t' : LTree (Element K)) (s s' : State K) : Prop where
  rep : t'.Rep s'.heap.cell none
  trees : s'.trees = Function.update s.trees i t'.root
  node : s'.heap.cell a = s.heap.cell a
  cell : ∀ b ∉ t.addrs, s'.heap.cell b = s.heap.cell b
  next : s'.heap.next = s.heap.next
  root : s'.root = s.root
  exited : s'.exited = s.exited

lemma unlink_spec (ho : OnlyChild l r x) (hrep : (plug c (.node l a v r)).Rep s.heap.cell none)
    (hno : (plug c (.node l a v r)).addrs.Nodup)
    (ht : s.trees i = (plug c (.node l a v r)).root) (hro : s.root = some i) :
    ∃ s', unlink a s = some ((), s') ∧ Unlinked i a (plug c (.node l a v r)) (plug c x) s s' := by
  have hpe := addrs_plug_perm c (.node l a v r)
  have hmem : ∀ b, b ∈ (plug c (.node l a v r)).addrs ↔ b = a ∨ b ∈ x.addrs ∨ b ∈ addrs c := by
    intro b
    rw [hpe.mem_iff, ho.addrs]
    simp only [mem_append, addrs_node, mem_cons]
    tauto
  rw [hpe.nodup_iff] at hno
  rw [rep_plug] at hrep
  obtain ⟨hct, ha, hl, hr⟩ := hrep
  have hx := ho.rep hl hr
  have hpr : a ∉ x.addrs ∧ x.addrs.Nodup ∧ (a :: addrs c).Nodup ∧ ∀ b ∈ x.addrs, b ∉ addrs c := by
    have hf : (node l a v r).addrs.Perm (a :: x.addrs) := by
      rw [ho.addrs, addrs_node]
      exact perm_middle
    rw [(hf.append_right (addrs c)).nodup_iff, cons_append, nodup_cons,
      mem_append, not_or, nodup_append'] at hno
    obtain ⟨⟨hax, hac⟩, hxn, hc, hd⟩ := hno
    exact ⟨hax, hxn, nodup_cons.mpr ⟨hac, hc⟩, fun b hb hbc => hd hb hbc⟩
  obtain ⟨hax, hxn, han, hxc⟩ := hpr
  have hli : ∀ b, x.root = some b → ∃ n, s.heap.cell b = some n := by
    intro b hb
    exact hx.exists_cell (mem_addrs_of_root hb)
  have hs : unlink a s = _ := bind_run (deref_run ha) _
  simp only [ho.root] at hs
  rw [bind_run (reparent_eq_some.mpr ⟨hli, rfl⟩) (a := ())] at hs
  -- the subtree gets its new parent, and what is not in it stays
  have hm : ∀ b, b ∉ x.addrs → (reparented s.heap x.root (top c)).cell b = s.heap.cell b := by
    intro b hb
    rw [reparented_cell, if_neg fun h => hb (mem_addrs_of_root h)]
  cases c with
  | nil =>
    -- at the root of the tree, the tree variable gets the subtree
    refine ⟨{ s with
      heap := reparented s.heap x.root none
      trees := update s.trees i x.root }, ?_, ?_, rfl, hm a hax, ?_, ?_, rfl, rfl⟩
    · rw [hs]
      simp [hro]
    · exact rep_of_moved hx hxn fun b _ => reparented_cell ..
    · intro b hb
      rw [hmem, not_or, not_or] at hb
      exact hm b hb.2.1
    · exact reparented_next _
  | cons f c =>
    have hp := hct.1
    have hpx : f.addr ∉ x.addrs := fun h => hxc _ h (.head _)
    have hpa : a ≠ f.addr := by
      rintro rfl
      exact (nodup_cons.mp han).1 (.head _)
    have hp1 := (hm f.addr hpx).trans hp
    refine ⟨_, hs.trans (assign_eq_some.mpr ⟨_, hp1, rfl⟩), ?_, ?_, ?_, ?_, ?_, rfl, rfl⟩
    · rw [rep_plug]
      refine ⟨hct.relink han ?_ ?_, rep_of_moved hx hxn ?_⟩
      · intro b hb hto
        have hbp : b ≠ f.addr := fun h => hto (congrArg some h.symm)
        rw [set_cell_of_ne hbp]
        exact hm b fun hbx => hxc b hbx hb
      · intro p n hpf hn
        cases hpf
        cases hp.symm.trans hn
        exact set_cell_self hp1
      · intro b hb
        have hbp : b ≠ f.addr := fun h => hpx (h ▸ hb)
        rw [set_cell_of_ne hbp]
        exact reparented_cell ..
    · -- the tree keeps its root
      have hsa : (plug c (f.plug x)).root = (plug c (f.plug (.node l a v r))).root := by
        apply root_plug_congr
        rw [LFrame.plug, LFrame.plug, root_sided, root_sided]
      rw [plug_cons, hsa]
      exact (update_eq_self_iff.mpr ht.symm).symm
    · rw [set_cell_of_ne hpa]
      exact hm a hax
    · intro b hb
      rw [hmem, not_or, not_or] at hb
      have hbp : b ≠ f.addr := fun h => hb.2.2 (h ▸ (.head _))
      rw [set_cell_of_ne hbp]
      exact hm b hb.2.1
    · exact reparented_next _

end Unlink

/-! ## Deleting a key -/

lemma keys_eq (t : LTree (Element K)) : keys t = t.nodes.map fun n => n.2.data := by
  simp [keys, entries, comp_def]

structure Deleted (i : ℕ) (k : K) (t t' : LTree (Element K)) (s s' : State K) : Prop where
  rep : t'.Rep s'.heap.cell none
  trees : s'.trees = Function.update s.trees i t'.root
  keys : ∃ ks ks', keys t = ks ++ k :: ks' ∧ keys t' = ks ++ ks'
  fair : Fair t → Fair t'
  addrs : t'.addrs.Sublist t.addrs
  cell : ∀ b ∉ t.addrs, s'.heap.cell b = s.heap.cell b
  next : s'.heap.next = s.heap.next
  root : s'.root = none
  exited : s'.exited = s.exited

lemma Deleted.of_root {i : ℕ} {k : K} {t t' : LTree (Element K)} {s s' : State K}
    {root : Option ℕ} (h : Deleted i k t t' { s with root := root } s') : Deleted i k t t' s s' :=
  ⟨h.rep, h.trees, h.keys, h.fair, h.addrs, h.cell, h.next, h.root, h.exited⟩

section Delete

variable {c : LCtx (Element K)} {l r x : LTree (Element K)} {z i fuel : ℕ} {v : Element K}
  {s : State K}

lemma deleteNode_spec_of_onlyChild (ho : OnlyChild l r x)
    (hrep : (plug c (.node l z v r)).Rep s.heap.cell none)
    (hnd : (plug c (.node l z v r)).addrs.Nodup)
    (ht : s.trees i = (plug c (.node l z v r)).root) (hr : s.root = some i) :
    ∃ s', deleteNode fuel z s = some (0, s') ∧
      Deleted i v.data (plug c (.node l z v r)) (plug c x) s s' := by
  obtain ⟨s1, hrun, h1⟩ := unlink_spec ho hrep hnd ht hr
  have hz := cell_of_rep_plug hrep
  have hfe : l.root = none ∨ r.root = none := by
    rcases ho with ⟨rfl, -⟩ | ⟨rfl, -⟩
    · exact .inl rfl
    · exact .inr rfl
  have hno : (plug c (.node l z v r)).nodes =
      (before c ++ l.nodes) ++ (z, v) :: (r.nodes ++ after c) := by
    simp [nodes_plug]
  have hn' : (plug c x).nodes = (before c ++ l.nodes) ++ (r.nodes ++ after c) := by
    simp [nodes_plug, ho.nodes]
  have hsu : (plug c x).nodes.Sublist (plug c (.node l z v r)).nodes := by
    rw [hno, hn']
    exact (sublist_cons_self ..).append_left _
  have hzo : z ∉ (plug c x).addrs := by
    rw [LTree.addrs, hno, map_append, map_cons, nodup_middle, nodup_cons] at hnd
    rw [LTree.addrs, hn', map_append]
    exact hnd.1
  refine ⟨{ s1 with heap := s1.heap.free z, root := none }, ?_, ?_, h1.trees, ?_, ?_,
    hsu.map Prod.fst, ?_, h1.next, rfl, h1.exited⟩
  · have hc : chooseTempTree fuel z s = some (z, s) := by
      rw [chooseTempTree, bind_run (deref_run hz), get_bind_run, if_pos hfe]
      rfl
    have hs : spliceBack z z s1 = some ((), s1) := by
      rw [spliceBack, if_neg (not_not.mpr rfl)]
      rfl
    rw [deleteNode, bind_run hc, bind_run hrun, bind_run hs]
    rfl
  · refine h1.rep.frame fun b hb => ?_
    exact free_cell_of_ne fun h => hzo (h ▸ hb)
  · refine ⟨(before c ++ l.nodes).map fun n => n.2.data,
      (r.nodes ++ after c).map fun n => n.2.data, ?_, ?_⟩
    · rw [keys_eq, hno, map_append, map_cons]
    · rw [keys_eq, hn', map_append]
  · intro hf n hn
    exact hf n (hsu.subset hn)
  · intro b hb
    have hbz : b ≠ z := by
      rintro rfl
      apply hb
      simp [LTree.addrs, hno]
    rw [free_cell_of_ne hbz]
    exact h1.cell b hb

lemma treeNext_right {cell : ℕ → Option (LNode (Element K))} {ll rr : LTree (Element K)} {b : ℕ}
    {w : Element K} {parent : Option ℕ} (hz : cell z = some ⟨v, l.root, some b, parent⟩)
    (hr : (node ll b w rr).Rep cell (some z)) (hf : ll.nodes.length < fuel) :
    treeNext cell fuel z = some (node ll b w rr).addrs.head? := by
  have hh : (node ll b w rr).addrs.head?.map some = some (node ll b w rr).addrs.head? := by
    rw [addrs_node]
    cases ll.addrs <;> rfl
  simp only [treeNext, hz]
  rw [descendLeft_eq hr hf, hh]

lemma deleteNode_spec_of_two {ll rr : LTree (Element K)} {b : ℕ} {w : Element K} (hl : l ≠ .nil)
    (hrep : (plug c (.node l z v (.node ll b w rr))).Rep s.heap.cell none)
    (hnd : (plug c (.node l z v (.node ll b w rr))).addrs.Nodup)
    (ht : s.trees i = (plug c (.node l z v (.node ll b w rr))).root)
    (hr : s.root = some i) (hfu : ll.nodes.length < fuel) :
    ∃ t' s', deleteNode fuel z s = some (0, s') ∧
      Deleted i v.data (plug c (.node l z v (.node ll b w rr))) t' s s' := by
  obtain ⟨hct, hz, hlr, hrr⟩ := (rep_plug ..).mp hrep
  have hne := treeNext_right hz hrr hfu
  -- `y` is the leftmost node of the right subtree
  obtain ⟨c', y, u, x, hp, hb⟩ := exists_leftmost ll rr b w
  rw [← hp] at hrep hnd ht hne ⊢
  have hw : plug c (.node l z v (plug c' (.node .nil y u x))) =
      plug (c' ++ ⟨.right, z, v, l⟩ :: c) (.node .nil y u x) := by
    rw [plug_append]
    rfl
  have hw' : plug c (.node l z v (plug c' x)) = plug (c' ++ ⟨.right, z, v, l⟩ :: c) x := by
    rw [plug_append]
    rfl
  have hh : (plug c' (.node .nil y u x)).addrs.head? = some y := by
    rw [LTree.addrs, nodes_plug, hb]
    rfl
  rw [hh] at hne
  obtain ⟨s1, hrun, h1⟩ := unlink_spec (.inl ⟨rfl, rfl⟩) (hw ▸ hrep) (hw ▸ hnd) (hw ▸ ht) hr
  have hy := cell_of_rep_plug (hw ▸ hrep)
  rw [← hw, ← hw'] at h1
  have hz1 := cell_of_rep_plug h1.rep
  -- the nodes before, between and after
  have hno : (plug c (.node l z v (plug c' (.node .nil y u x)))).nodes =
      (before c ++ l.nodes) ++ (z, v) :: (y, u) :: (x.nodes ++ (after c' ++ after c)) := by
    simp [nodes_plug, hb]
  have hn1 : ∀ v' : Element K, (plug c (.node l z v' (plug c' x))).nodes =
      (before c ++ l.nodes) ++ (z, v') :: (x.nodes ++ (after c' ++ after c)) := by
    intro v'
    simp [nodes_plug, hb]
  have hsu : ∀ v' : Element K, (plug c (.node l z v' (plug c' x))).addrs.Sublist
      (plug c (.node l z v (plug c' (.node .nil y u x)))).addrs := by
    intro v'
    simp only [LTree.addrs, hno, hn1, map_append, map_cons]
    exact (((sublist_cons_self ..).cons_cons _).append_left _)
  have hyo : ∀ v' : Element K, y ∉ (plug c (.node l z v' (plug c' x))).addrs := by
    intro v'
    have hn' := hnd
    simp only [LTree.addrs, hno, map_append, map_cons] at hn'
    simp only [LTree.addrs, hn1, map_append, map_cons]
    grind
  have hzi : ∀ v' : Element K, z ∈ (plug c (.node l z v' (plug c' x))).addrs := by
    intro v'
    simp [LTree.addrs, hn1]
  have hyz : y ≠ z := fun h => hyo v (h ▸ hzi v)
  have hno1 := hnd.sublist (hsu v)
  -- the successor's key goes to `z`
  have hr2 : (plug c (.node l z { v with data := u.data } (plug c' x))).Rep
      ((s1.heap.set z ⟨{ v with data := u.data }, l.root, (plug c' x).root, top c⟩).free
        y).cell none := by
    refine rep_plug_setValue h1.rep hno1 ?_ ?_
    · intro n hn
      cases hz1.symm.trans hn
      rw [free_cell_of_ne hyz.symm, set_cell_self hz1]
      rfl
    · intro d hd hdz
      have hdy : d ≠ y := fun h => hyo v (h ▸ hd)
      rw [free_cell_of_ne hdy, set_cell_of_ne hdz]
  refine ⟨_, { s1 with
    heap := (s1.heap.set z ⟨{ v with data := u.data }, l.root, (plug c' x).root, top c⟩).free y
    root := none }, ?_, hr2, ?_, ?_, ?_, hsu _, ?_, h1.next, rfl, h1.exited⟩
  · have hm : ¬ (l.root = none ∨ (node ll b w rr).root = none) := by
      rw [root_eq_none_iff]
      exact not_or.mpr ⟨hl, (by rintro ⟨⟩)⟩
    have hc : chooseTempTree fuel z s = some (y, s) := by
      rw [chooseTempTree, bind_run (deref_run hz), get_bind_run, if_neg hm, hne]
      rfl
    have hs : spliceBack y z s1 = some ((), { s1 with
        heap := s1.heap.set z ⟨{ v with data := u.data }, l.root, (plug c' x).root, top c⟩ }) := by
      rw [spliceBack, if_pos hyz, bind_run (deref_run (h1.node.trans hy))]
      exact assign_eq_some.mpr ⟨_, hz1, rfl⟩
    rw [deleteNode, bind_run hc, bind_run hrun, bind_run hs]
    rfl
  · rw [h1.trees]
    congr 1
    exact root_plug_congr c rfl
  · refine ⟨(before c ++ l.nodes).map fun n => n.2.data,
      u.data :: (x.nodes ++ (after c' ++ after c)).map fun n => n.2.data, ?_, ?_⟩
    · rw [keys_eq, hno, map_append, map_cons, map_cons]
    · rw [keys_eq, hn1, map_append, map_cons]
  · intro hf n hn
    unfold Fair at hf
    rw [hno] at hf
    rw [hn1] at hn
    simp only [mem_append, mem_cons] at hf hn
    rcases hn with hn | rfl | hn
    · exact hf n (.inl hn)
    · exact hf (z, v) (.inr (.inl rfl))
    · exact hf n (.inr (.inr (.inr hn)))
  · intro d hd
    have hdz : d ≠ z := fun h => hd (h ▸ (hsu v).subset (hzi v))
    have hdy : d ≠ y := by
      rintro rfl
      apply hd
      simp [LTree.addrs, hno]
    rw [free_cell_of_ne hdy, set_cell_of_ne hdz]
    exact h1.cell d hd

lemma deleteNode_spec (hrep : (plug c (.node l z v r)).Rep s.heap.cell none)
    (hn : (plug c (.node l z v r)).addrs.Nodup)
    (ht : s.trees i = (plug c (.node l z v r)).root) (hr : s.root = some i)
    (hf : r.nodes.length < fuel) :
    ∃ t' s', deleteNode fuel z s = some (0, s') ∧
      Deleted i v.data (plug c (.node l z v r)) t' s s' := by
  by_cases hl : l = .nil
  · exact ⟨_, deleteNode_spec_of_onlyChild (.inl ⟨hl, rfl⟩) hrep hn ht hr⟩
  · cases r with
    | nil => exact ⟨_, deleteNode_spec_of_onlyChild (.inr ⟨rfl, rfl⟩) hrep hn ht hr⟩
    | node ll b w rr =>
      apply deleteNode_spec_of_two hl hrep hn ht hr
      simp only [nodes_node, length_append, length_cons] at hf
      omega

variable [LinearOrder K] {t : LTree (Element K)} {k : K}

/-- **Deletion**: `Tree_Delete` on a link to a search tree, which is part of the tree in variable
`i`. -/
theorem treeDelete_spec (theComp : Comparator K) (hrep : (plug c t).Rep s.heap.cell none)
    (hn : (plug c t).addrs.Nodup) (hi : Increasing (entries t))
    (ht : s.trees i = (plug c t).root) (hr : s.root = none ∨ s.root = some i)
    (hf : t.nodes.length < fuel) :
    (k ∈ keys t ∧ ∃ t' s', treeDelete theComp i k fuel t.root s = some (0, s') ∧
      Deleted i k (plug c t) t' s s') ∨
    (k ∉ keys t ∧ treeDelete theComp i k fuel t.root s = some (-1, { s with root := none })) := by
  induction t generalizing c fuel s with
  | nil =>
    obtain _ | fuel := fuel
    · omega
    · exact .inr ⟨by simp [keys], rfl⟩
  | node l a v r ihl ihr =>
    obtain _ | fuel := fuel
    · omega
    have hc := cell_of_rep_plug hrep
    simp only [nodes_node, length_append, length_cons] at hf
    have hse : (if s.root = none then some i else s.root) = some i := by
      rcases hr with hr | hr <;> simp [hr]
    have hs : treeDelete theComp i k (fuel + 1) (some a) s =
        (if 0 < theComp.compare v.data k then treeDelete theComp i k fuel l.root
        else if theComp.compare v.data k < 0 then treeDelete theComp i k fuel r.root
        else deleteNode fuel a : TreeProg K ℤ) { s with root := some i } := by
      rw [treeDelete, bind_run (modify_eq_some.mpr rfl) (a := ()), hse]
      exact bind_run (deref_run (s := { s with root := some i }) hc) _
    rw [root_node, hs]
    rcases lt_trichotomy k v.data with hlt | rfl | hlt
    · rw [if_pos ((theComp.pos_iff _ _).mpr hlt)]
      have hk : k ∈ keys (.node l a v r) ↔ k ∈ keys l := mem_keys_sided .left hi hlt
      rw [hk]
      have hre := ihl (c := ⟨.left, a, v, r⟩ :: c) (s := { s with root := some i }) hrep hn
        (increasing_of_sided .left hi) ht (.inr rfl) (by omega : l.nodes.length < fuel)
      refine hre.imp (And.imp_right ?_) id
      rintro ⟨t', s', hrun, h⟩
      exact ⟨t', s', hrun, h.of_root⟩
    · rw [if_neg (by rw [theComp.pos_iff]; exact lt_irrefl _),
        if_neg (by rw [theComp.neg_iff]; exact lt_irrefl _)]
      obtain ⟨t', s', hrun, h⟩ := deleteNode_spec (s := { s with root := some i }) hrep hn
        ht rfl (by omega : r.nodes.length < fuel)
      exact .inl ⟨by simp [keys], t', s', hrun, h.of_root⟩
    · rw [if_neg (by rw [theComp.pos_iff]; exact not_lt_of_gt hlt),
        if_pos ((theComp.neg_iff _ _).mpr hlt)]
      have hk : k ∈ keys (.node l a v r) ↔ k ∈ keys r := mem_keys_sided .right hi hlt
      rw [hk]
      have hre := ihr (c := ⟨.right, a, v, l⟩ :: c) (s := { s with root := some i }) hrep hn
        (increasing_of_sided .right hi) ht (.inr rfl) (by omega : r.nodes.length < fuel)
      refine hre.imp (And.imp_right ?_) id
      rintro ⟨t', s', hrun, h⟩
      exact ⟨t', s', hrun, h.of_root⟩

end Delete

end Glomop.ClientLib.Avl
