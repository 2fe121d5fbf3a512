import Glomop.ClientLib.AvlSet

/-!
# The balance factors of the AVL tree

As long as keys are only added to it, a tree is balanced (`balanced_of_adds`).  `Grown` is what the
static variable `checkBalance` means: rebalancing at a node keeps it, one case for each case of the
`switch`, and so does every level of the recursion (`treeAdd_grows`).
-/

namespace Glomop.ClientLib.Avl

open Glomop.Lib Function List LTree Prog

variable {K : Type}

/-! ## Balanced trees -/

/-- Every balance factor says by how much the right subtree is higher, and may be what it is. -/
def Balanced : LTree (Element K) → Prop
  | .nil => True
  | .node l _ v r =>
    v.bal = (r.height : ℤ) - (l.height : ℤ) ∧ FairBal v.bal ∧ Balanced l ∧ Balanced r

def Leaning (side : Side) (bal : ℤ) (height other : ℕ) : Prop :=
  (bal = sign side ∧ height = other + 1) ∨ (bal = 0 ∧ height = other) ∨
    (bal = sign side.other ∧ other = height + 1)

section Leaning

variable {side : Side} {bal : ℤ} {height other : ℕ}

section

variable (h : Leaning side bal height other)

include h

lemma Leaning.higher (hb : bal = sign side) : height = other + 1 := by
  subst hb
  rcases h with ⟨-, h⟩ | ⟨hb, -⟩ | ⟨hb, -⟩
  · exact h
  · exact absurd hb (sign_ne_zero side)
  · exact absurd hb (sign_other_ne side)

lemma Leaning.level (hb : bal = 0) : height = other := by
  subst hb
  rcases h with ⟨hb, -⟩ | ⟨-, h⟩ | ⟨hb, -⟩
  · exact absurd hb.symm (sign_ne_zero side)
  · exact h
  · exact absurd hb.symm (sign_ne_zero side.other)

lemma Leaning.lower (hb : bal = sign side.other) : other = height + 1 := by
  subst hb
  rcases h with ⟨hb, -⟩ | ⟨hb, -⟩ | ⟨-, h⟩
  · exact absurd hb.symm (sign_other_ne side)
  · exact absurd hb (sign_ne_zero side.other)
  · exact h

end

end Leaning

section Balanced

variable {side : Side} {t u u' o x y z : LTree (Element K)} {a p q m : ℕ} {v vp vq vm : Element K}

lemma balanced_sided : Balanced (.sided side u a v o) ↔
    Leaning side v.bal u.height o.height ∧ Balanced u ∧ Balanced o := by
  cases side with
  | left =>
    simp only [sided, Balanced, Leaning, FairBal, sign, Side.other]
    constructor
    · rintro ⟨hb, hf, hu, ho⟩
      exact ⟨by omega, hu, ho⟩
    · rintro ⟨hl, hu, ho⟩
      exact ⟨by omega, by omega, hu, ho⟩
  | right =>
    simp only [sided, Balanced, Leaning, FairBal, sign, Side.other]
    constructor
    · rintro ⟨hb, hf, ho, hu⟩
      exact ⟨by omega, hu, ho⟩
    · rintro ⟨hl, hu, ho⟩
      exact ⟨by omega, by omega, ho, hu⟩

lemma Balanced.fair (h : Balanced t) : Fair t := by
  induction t with
  | nil => exact nofun
  | node l b w r ihl ihr =>
    obtain ⟨-, hf, hl, hr⟩ := h
    intro n hn
    simp only [nodes_node, mem_append, mem_cons] at hn
    rcases hn with hn | rfl | hn
    · exact ihl hl n hn
    · exact hf
    · exact ihr hr n hn

/-- A balanced tree is low. -/
lemma Balanced.fib_le (h : Balanced t) : Nat.fib (t.height + 1 + 1) ≤ t.nodes.length + 1 := by
  induction t with
  | nil => exact le_refl 1
  | node l a v r ihl ihr =>
    obtain ⟨hb, hf, hl, hr⟩ := h
    have hll := ihl hl
    have hrl := ihr hr
    unfold FairBal at hf
    rw [height, Nat.fib_add_two, nodes_node, length_append, length_cons]
    rcases le_total l.height r.height with hle | hle
    · have hm := Nat.fib_mono (show r.height + 1 ≤ l.height + 1 + 1 by omega)
      rw [max_eq_right hle]
      omega
    · have hm := Nat.fib_mono (show l.height + 1 ≤ r.height + 1 + 1 by omega)
      rw [max_eq_left hle]
      omega

/-- A tree has become another, balanced one, and one level higher if `higher` says so. -/
structure Grown (t t' : LTree (Element K)) (higher : Bool) : Prop where
  balanced : Balanced t'
  height : t'.height = t.height + higher.toNat
  tall : higher = true → t ≠ .nil → Tall t'

lemma ne_nil_of_height (h : 0 < t.height) : t ≠ .nil := by
  rintro rfl
  exact absurd h (lt_irrefl 0)

/-! ## One level

A node whose subtree on one side has grown, by what `rebalance` does. -/

section

variable (h : Balanced (.sided side u a v o))

include h

lemma grown_same (hu : Grown u u' false) :
    Grown (.sided side u a v o) (.sided side u' a v o) false := by
  obtain ⟨hl, -, ho⟩ := balanced_sided.mp h
  have hh : u'.height = u.height := hu.height
  refine ⟨balanced_sided.mpr ⟨?_, hu.balanced, ho⟩, ?_, nofun⟩
  · rw [hh]
    exact hl
  · rw [height_sided, height_sided, hh]
    rfl

lemma grown_level (hb : v.bal = sign side.other) (hu : Grown u u' true) :
    Grown (.sided side u a v o) (.sided side u' a { v with bal := 0 } o) false := by
  obtain ⟨hl, -, ho⟩ := balanced_sided.mp h
  have hot := hl.lower hb
  have hh : u'.height = u.height + 1 := hu.height
  refine ⟨balanced_sided.mpr ⟨.inr (.inl ⟨rfl, by omega⟩), hu.balanced, ho⟩, ?_, nofun⟩
  simp only [height_sided, Bool.toNat_false]
  omega

lemma grown_higher (hb : v.bal = 0) (hu : Grown u u' true) :
    Grown (.sided side u a v o) (.sided side u' a { v with bal := sign side } o) true := by
  obtain ⟨hl, -, ho⟩ := balanced_sided.mp h
  have hot := hl.level hb
  have hh : u'.height = u.height + 1 := hu.height
  refine ⟨balanced_sided.mpr ⟨.inl ⟨rfl, by omega⟩, hu.balanced, ho⟩, ?_, fun _ _ => ?_⟩
  · simp only [height_sided, Bool.toNat_true]
    omega
  · exact ⟨side, u', a, _, o, rfl, rfl, ne_nil_of_height (by omega)⟩

lemma grown_single (hb : v.bal = sign side)
    (hu : Grown u (.sided side x p vp y) true) (hvp : vp.bal = sign side) :
    Grown (.sided side u a v o)
      (.sided side x p { vp with bal := 0 } (.sided side y a { v with bal := 0 } o)) false := by
  obtain ⟨hl, -, ho⟩ := balanced_sided.mp h
  obtain ⟨hl', hx, hy⟩ := balanced_sided.mp hu.balanced
  have hot := hl.higher hb
  have ho' := hl'.higher hvp
  have hh : (sided side x p vp y).height = u.height + 1 := hu.height
  rw [height_sided] at hh
  have hi : Balanced (.sided side y a { v with bal := 0 } o) :=
    balanced_sided.mpr ⟨.inr (.inl ⟨rfl, by omega⟩), hy, ho⟩
  refine ⟨balanced_sided.mpr ⟨.inr (.inl ⟨rfl, ?_⟩), hx, hi⟩, ?_, nofun⟩
  · rw [height_sided]
    omega
  · simp only [height_sided, Bool.toNat_false]
    omega

end

lemma rebalancedDouble_eq {bal : ℤ} (hb : FairBal bal)
    (hn : (sided side (.sided side x p vp (.sided side y q vq z)) m vm o).addrs.Nodup) :
    rebalancedDouble side m p q bal
        (.sided side (.sided side x p vp y) q vq (.sided side z m vm o)) =
      .sided side
        (.sided side x p { vp with bal := if bal = sign side.other then sign side else 0 } y) q
        { vq with bal := 0 }
        (.sided side z m { vm with bal := if bal = sign side then sign side.other else 0 } o) := by
  simp only [nodup_addrs_sided, mem_addrs_sided, not_or] at hn
  obtain ⟨⟨hmp, hmx, hmq, hmy, hmz⟩, hmo,
    ⟨hpx, ⟨hpq, hpy, hpz⟩, -, ⟨hqy, hqz, -, -, -⟩, hx⟩, -, hd⟩ := hn
  have hqx : q ∉ x.addrs := fun hq => (hx q hq).1 rfl
  have hpo : p ∉ o.addrs := hd p (.inl rfl)
  have hqo : q ∉ o.addrs := hd q (.inr (.inr (.inl rfl)))
  have hw : ∀ bp bm : ℤ,
      withBals (.sided side (.sided side x p vp y) q vq (.sided side z m vm o)) p q m bp 0 bm =
        .sided side (.sided side x p { vp with bal := bp } y) q { vq with bal := 0 }
          (.sided side z m { vm with bal := bm } o) := by
    intro bp bm
    simp [withBals, withBal_sided, withBal_of_not_mem, hpx, hpy, hpz, hpo, hqx, hqy, hqz, hqo,
      hmx, hmy, hmz, hmo, hmp, hmq, hpq, Ne.symm hmp, Ne.symm hmq, Ne.symm hpq]
  unfold rebalancedDouble
  rcases hb.cases side with rfl | rfl | rfl
  · rw [if_neg (sign_ne_zero _), if_neg (sign_other_ne side).symm, if_pos rfl, if_pos rfl,
      if_neg (sign_other_ne side).symm, hw]
  · rw [if_pos rfl, if_neg (sign_ne_zero _).symm, if_neg (sign_ne_zero _).symm, hw]
  · rw [if_neg (sign_ne_zero _), if_pos rfl, if_neg (sign_other_ne side), if_pos rfl, hw]

lemma grown_double (h : Balanced (.sided side u a v o)) (hb : v.bal = sign side)
    (hu : Grown u (.sided side x p vp (.sided side y q vq z)) true)
    (hvp : vp.bal = sign side.other) :
    Grown (.sided side u a v o)
      (.sided side
        (.sided side x p { vp with bal := if vq.bal = sign side.other then sign side else 0 } y) q
        { vq with bal := 0 }
        (.sided side z a { v with bal := if vq.bal = sign side then sign side.other else 0 } o))
      false := by
  obtain ⟨hl, -, ho⟩ := balanced_sided.mp h
  obtain ⟨hl', hx, hi⟩ := balanced_sided.mp hu.balanced
  obtain ⟨hl'', hy, hz⟩ := balanced_sided.mp hi
  have hot := hl.higher hb
  have ho' := hl'.lower hvp
  have hh : (sided side x p vp (.sided side y q vq z)).height = u.height + 1 := hu.height
  rw [height_sided] at hh
  rw [height_sided] at ho' hh
  -- the two subtrees in the middle are as high as the outer ones, or one of them is lower
  have hle : Leaning side (if vq.bal = sign side.other then sign side else 0)
      x.height y.height := by
    rcases hl'' with ⟨hvq, hyz⟩ | ⟨hvq, hyz⟩ | ⟨hvq, hyz⟩
    · rw [hvq, if_neg (sign_other_ne side)]
      exact .inr (.inl ⟨rfl, by omega⟩)
    · rw [hvq, if_neg (sign_ne_zero _).symm]
      exact .inr (.inl ⟨rfl, by omega⟩)
    · rw [hvq, if_pos rfl]
      exact .inl ⟨rfl, by omega⟩
  have hr : Leaning side (if vq.bal = sign side then sign side.other else 0) z.height o.height := by
    rcases hl'' with ⟨hvq, hyz⟩ | ⟨hvq, hyz⟩ | ⟨hvq, hyz⟩
    · rw [hvq, if_pos rfl]
      exact .inr (.inr ⟨rfl, by omega⟩)
    · rw [hvq, if_neg (sign_ne_zero _).symm]
      exact .inr (.inl ⟨rfl, by omega⟩)
    · rw [hvq, if_neg (sign_other_ne side).symm]
      exact .inr (.inl ⟨rfl, by omega⟩)
  have hm : max y.height z.height = o.height := by
    rcases hl'' with ⟨-, hyz⟩ | ⟨-, hyz⟩ | ⟨-, hyz⟩ <;> omega
  refine ⟨balanced_sided.mpr ⟨.inr (.inl ⟨rfl, ?_⟩), balanced_sided.mpr ⟨hle, hx, hy⟩,
    balanced_sided.mpr ⟨hr, hz, ho⟩⟩, ?_, nofun⟩
  · simp only [height_sided]
    omega
  · simp only [height_sided, Bool.toNat_false]
    omega

end Balanced

section Rebalance

variable {side : Side} {u u' o : LTree (Element K)} {a : ℕ} {v : Element K} {parent : Option ℕ}
  {s : State K}

/-- **Rebalancing** at a node whose subtree has become higher. -/
theorem rebalance_grown (hrep : (sided side u' a v o).Rep s.heap.cell parent)
    (hn : (sided side u' a v o).addrs.Nodup) (h : Balanced (.sided side u a v o))
    (hu : Grown u u' true) :
    ∃ t' s', rebalance side a s = some (.returned 0 t'.root, s') ∧
      Reshaped (.sided side u' a v o) t' parent s s' ∧
      Grown (.sided side u a v o) t' s'.checkBalance := by
  obtain ⟨hl, -, -⟩ := balanced_sided.mp h
  rcases hl with ⟨hb, ho⟩ | ⟨hb, -⟩ | ⟨hb, -⟩
  · -- the subtree was the higher one, so it is not a new leaf
    obtain ⟨side', x, p, vp, y, rfl, hvp, hx⟩ := hu.tall rfl (ne_nil_of_height (by omega))
    by_cases hs : side' = side
    · subst hs
      obtain ⟨s', hrun, hr, hc⟩ := rotateSingle_spec hrep hn
      rw [rebalance_eq hrep hb, if_pos hvp]
      refine ⟨_, s', by rw [hrun, root_sided], hr, ?_⟩
      rw [hc]
      exact grown_single h hb hu hvp
    · obtain rfl : side' = side.other := by cases side <;> cases side' <;> simp_all [Side.other]
      obtain ⟨x1, q, vq, x2, rfl⟩ := exists_sided hx side
      rw [sided_other] at hrep hn hu ⊢
      obtain ⟨s', hrun, hr, hc⟩ := rotateDouble_spec hrep hn
      rw [rebalance_eq hrep hb, if_neg (hvp ▸ (sign_other_ne side).symm), if_pos hvp]
      have hf : FairBal vq.bal := hu.balanced.fair (q, vq) (by cases side <;> simp [sided])
      refine ⟨_, s', by rw [hrun, root_rebalancedDouble, root_sided], hr, ?_⟩
      rw [hc, rebalancedDouble_eq hf hn]
      exact grown_double h hb hu hvp
  · obtain ⟨s', hrun, hr, hc⟩ := rebalance_higher hrep hn hb
    refine ⟨_, s', by rw [hrun, root_sided], hr, ?_⟩
    rw [hc]
    exact grown_higher h hb hu
  · obtain ⟨s', hrun, hr, hc⟩ := rebalance_level hrep hn hb
    refine ⟨_, s', by rw [hrun, root_sided], hr, ?_⟩
    rw [hc]
    exact grown_level h hb hu

end Rebalance

section Insertion

variable [LinearOrder K] {k : K} {t u u' o : LTree (Element K)} {parent : Option ℕ}
  {s s2 : State K} {a : ℕ} {v : Element K}

def Grows (k : K) (t : LTree (Element K)) (parent : Option ℕ) (x : TreeProg K AddResult)
    (s s₁ : State K) : Prop :=
  ∃ t' s', x s₁ = some (.returned 0 t'.root, s') ∧ Placed k t t' parent s s' ∧
    Grown t t' s'.checkBalance

lemma afterInsertion_grows (side : Side) (hrep : (sided side u a v o).Rep s.heap.cell parent)
    (hn : (sided side u a v o).addrs.Nodup) (h : Balanced (.sided side u a v o))
    (hi : Increasing (entries (.sided side u a v o))) (hto : Toward k v.data side)
    (hp : Placed k u u' (some a) { s with parent := some a } s2) (hg : Grown u u' s2.checkBalance) :
    Grows k (.sided side u a v o) parent (afterInsertion side a (.returned 0 u'.root)) s s2 := by
  obtain ⟨s3, hs, hp3, hn3⟩ := hp.sided hrep hn h.fair hi hto
  rw [Grows, hs]
  cases hh : s2.checkBalance with
  | true =>
    rw [hh] at hg
    rw [if_pos rfl]
    obtain ⟨t', s', hr', hr, hg'⟩ := rebalance_grown hp3.rep hn3 h hg
    exact ⟨t', s', hr', hp3.reshaped hr, hg'⟩
  | false =>
    rw [hh] at hg
    rw [if_neg Bool.false_ne_true]
    refine ⟨.sided side u' a v o, { s3 with checkBalance := false }, ?_,
      hp3.reshaped ((Reshaped.refl hp3.rep).setCheckBalance false),
      grown_same h hg⟩
    rw [root_sided]
    rfl

/-- **Insertion into a balanced tree**: `Tree_Add` of a new key. -/
theorem treeAdd_grows (theComp : Comparator K) {fuel : ℕ} (hrep : t.Rep s.heap.cell parent)
    (hn : t.addrs.Nodup) (h : Balanced t) (hi : Increasing (entries t))
    (hpa : t = .nil → s.parent = parent) (hf : t.nodes.length < fuel) (hk : k ∉ keys t) :
    Grows k t parent (treeAdd theComp false k fuel t.root) s s := by
  induction t generalizing fuel parent s with
  | nil =>
    obtain _ | fuel := fuel
    · omega
    obtain ⟨r, s', hrun, hsp⟩ : ∃ r s',
        treeAdd theComp false k (fuel + 1) none s = some (r, s') ∧
          AddSpec false k .nil parent s r s' :=
      treeAdd_nil theComp fuel (hpa rfl)
    cases hsp with
    | present hk' => exact absurd hk' hk
    | exited _ hb => simp [BadPlace] at hb
    | @added t' s' _ _ hp hle _ =>
      obtain ⟨⟨b, d, rfl⟩, hc⟩ := hle rfl
      refine ⟨_, s', hrun, hp, ?_⟩
      rw [hc]
      exact ⟨⟨rfl, fairBal_zero, trivial, trivial⟩, rfl, fun _ hne => absurd rfl hne⟩
  | node l a v r ihl ihr =>
    obtain _ | fuel := fuel
    · omega
    obtain ⟨ha, hl, hr⟩ := id hrep
    obtain ⟨_, _, hbl, hbr⟩ := id h
    simp only [nodes_node, length_append, length_cons] at hf
    have hs : treeAdd theComp false k (fuel + 1) (some a) s = _ := bind_run (deref_run ha) _
    rw [root_node, Grows, hs]
    rcases lt_trichotomy k v.data with hlt | rfl | hlt
    · rw [if_pos ((theComp.pos_iff _ _).mpr hlt)]
      have hkl : k ∉ keys l := fun hmem => hk ((mem_keys_sided .left hi hlt).mpr hmem)
      obtain ⟨l', s2, hrun, hp, hg⟩ := ihl (s := { s with parent := some a }) hl
        (nodup_addrs_of_sided .left hn) hbl (increasing_of_sided .left hi)
        (fun _ => rfl) (by omega : l.nodes.length < fuel) hkl
      obtain ⟨t', s', hr', hp', hg'⟩ := afterInsertion_grows .left hrep hn h hi hlt hp hg
      exact ⟨t', s', (bind_run rfl _).trans ((bind_run hrun _).trans hr'), hp', hg'⟩
    · exact absurd (by simp [keys]) hk
    · rw [if_neg (by rw [theComp.pos_iff]; exact not_lt_of_gt hlt),
        if_pos ((theComp.neg_iff _ _).mpr hlt)]
      have hkr : k ∉ keys r := fun hmem => hk ((mem_keys_sided .right hi hlt).mpr hmem)
      obtain ⟨r', s2, hrun, hp, hg⟩ := ihr (s := { s with parent := some a }) hr
        (nodup_addrs_of_sided .right hn) hbr (increasing_of_sided .right hi)
        (fun _ => rfl) (by omega : r.nodes.length < fuel) hkr
      obtain ⟨t', s', hr', hp', hg'⟩ := afterInsertion_grows .right hrep hn h hi hlt hp hg
      exact ⟨t', s', (bind_run rfl _).trans ((bind_run hrun _).trans hr'), hp', hg'⟩

end Insertion

/-! ## Adding keys, one after the other -/

section Adding

variable [LinearOrder K] (theComp : Comparator K) {s s' : State K} {i : ℕ} {parent : Option ℕ}
  {ks : List K} {k : K} {t : LTree (Element K)} {calls : List (K × Bool)}

/-- A tree variable holds a balanced search tree with some keys; `parent` is the parent pointer of
its root. -/
structure BalancedTree (s : State K) (i : ℕ) (parent : Option ℕ) (ks : List K)
    (t : LTree (Element K)) : Prop where
  link : s.trees i = t.root
  rep : t.Rep s.heap.cell parent
  nodup : t.addrs.Nodup
  balanced : Balanced t
  increasing : Increasing (entries t)
  keys : (keys t).Perm ks
  empty : t = .nil → s.parent = parent

section

variable (h : BalancedTree s i parent ks t)

include h

lemma BalancedTree.lt_fuel : t.nodes.length < s.fuel := length_nodes_lt_fuel h.rep h.nodup

lemma BalancedTree.add (hk : k ∉ ks) :
    ∃ s', add theComp i k false s = some (some 0, s') ∧ s'.exited = s.exited ∧
      ∃ t', BalancedTree s' i parent (ks ++ [k]) t' := by
  have hke : k ∉ Avl.keys t := fun hmem => hk (h.keys.mem_iff.mp hmem)
  obtain ⟨t', s1, hrun, hp, hg⟩ := treeAdd_grows theComp h.rep h.nodup h.balanced
    h.increasing h.empty h.lt_fuel hke
  rw [← h.link] at hrun
  have hpe := hp.addrs_perm
  refine ⟨{ s1 with trees := update s1.trees i t'.root },
    (get_bind_run s _).trans (bind_run hrun _), hp.touches.exited, t',
    ⟨update_self .., hp.rep, ?_, hg.balanced, hp.entries.increasing h.increasing, ?_, ?_⟩⟩
  · rw [hpe.nodup_iff, nodup_cons]
    exact ⟨next_not_mem_addrs h.rep, h.nodup⟩
  · have hn : (Avl.keys t').Perm (k :: Avl.keys t) := hp.entries.perm.map Prod.snd
    exact (hn.trans (h.keys.cons k)).trans (perm_append_singleton k ks).symm
  · rintro rfl
    exact absurd hpe.nil_eq.symm (cons_ne_nil _ _)

/-- A key that is there already is rejected. -/
lemma BalancedTree.add_mem (hk : k ∈ ks) :
    ∃ s', Avl.add theComp i k false s = some (some (-1), s') ∧ BalancedTree s' i parent ks t := by
  have hke : k ∈ Avl.keys t := h.keys.mem_iff.mpr hk
  obtain ⟨r, s1, hrun, hs⟩ : ∃ r s1, treeAdd theComp false k s.fuel t.root s = some (r, s1) ∧
      AddSpec false k t parent s r s1 :=
    treeAdd_spec theComp h.rep h.nodup h.balanced.fair h.increasing h.empty h.lt_fuel
  rw [← h.link] at hrun
  cases hs with
  | present _ hh =>
    refine ⟨{ s1 with trees := update s1.trees i t.root },
      (get_bind_run s _).trans (bind_run hrun _), update_self .., hh ▸ h.rep, h.nodup, h.balanced,
      h.increasing, h.keys, ?_⟩
    rintro rfl
    exact absurd hke not_mem_nil
  | exited hn | added hn => exact absurd hke hn

lemma BalancedTree.add_noMemory (hk : k ∉ ks) :
    ∃ s', Avl.add theComp i k true s = some (none, s') ∧ s'.exited = true := by
  have hke : k ∉ Avl.keys t := fun hmem => hk (h.keys.mem_iff.mp hmem)
  obtain ⟨r, s1, hrun, hs⟩ : ∃ r s1, treeAdd theComp true k s.fuel t.root s = some (r, s1) ∧
      AddSpec true k t parent s r s1 :=
    treeAdd_spec theComp h.rep h.nodup h.balanced.fair h.increasing h.empty h.lt_fuel
  rw [← h.link] at hrun
  cases hs with
  | present hk' => exact absurd hk' hke
  | exited =>
    exact ⟨{ s1 with exited := true }, (get_bind_run s _).trans (bind_run hrun _), rfl⟩
  | added _ hg => exact nomatch hg.1

end

/-- The calls that add keys to a tree, each with memory for its node or without. -/
def addCalls (i : ℕ) (calls : List (K × Bool)) : List (Call K) :=
  calls.map fun c => .add i c.1 c.2

/-- **One call.** -/
theorem BalancedTree.step (h : BalancedTree s i parent ks t) (hr : s.exited = false)
    (hk : k ∉ ks) (noMemory : Bool) :
    ∃ s', step theComp s (.add i k noMemory) s' ∧ s'.exited = noMemory ∧
      (noMemory = false → ∃ t', BalancedTree s' i parent (ks ++ [k]) t') := by
  have ha : ∀ {r s'}, Avl.add theComp i k noMemory s = some (r, s') →
      Avl.step theComp s (.add i k noMemory) s' := by
    intro r s' hrun
    rw [Avl.step, next, hr, if_neg Bool.false_ne_true, act, hrun]
    rfl
  cases noMemory with
  | true =>
    obtain ⟨s', hrun, he⟩ := h.add_noMemory theComp hk
    exact ⟨s', ha hrun, he, (by rintro ⟨⟩)⟩
  | false =>
    obtain ⟨s', hrun, he, hb⟩ := h.add theComp hk
    exact ⟨s', ha hrun, he.trans hr, fun _ => hb⟩

lemma eq_of_run_exited {calls : List (Call K)} (he : s.exited = true)
    (hrun : Run (step theComp) s calls s') : s' = s := by
  cases hrun with
  | nil => rfl
  | cons hs _ =>
    rw [step, next, if_pos he] at hs
    cases hs

/-- **Every sequence of calls** with distinct keys: the tree stays balanced as long as the process
runs, and it runs as long as there is memory. -/
theorem BalancedTree.run (h : BalancedTree s i parent ks t) (hru : s.exited = false)
    (hd : (ks ++ calls.map Prod.fst).Nodup) :
    (∀ s', Run (Avl.step theComp) s (addCalls i calls) s' → s'.exited = false →
      ∃ t', BalancedTree s' i parent (ks ++ calls.map Prod.fst) t') ∧
    ((∀ c ∈ calls, c.2 = false) →
      ∃ s', Run (Avl.step theComp) s (addCalls i calls) s' ∧ s'.exited = false) := by
  induction calls generalizing s ks t with
  | nil =>
    rw [map_nil, append_nil]
    refine ⟨?_, fun _ => ⟨s, .nil s, hru⟩⟩
    intro s' hrun _
    cases hrun
    exact ⟨t, h⟩
  | cons c calls ih =>
    have hk : c.1 ∉ ks := by
      intro hmem
      exact (nodup_append.mp hd).2.2 _ hmem _ (.head _) rfl
    have hsp : ks ++ (c :: calls).map Prod.fst = ks ++ [c.1] ++ calls.map Prod.fst := by simp
    rw [hsp] at hd ⊢
    obtain ⟨s1, hs, he, hn⟩ := h.step theComp hru hk c.2
    constructor
    · intro s' hrun hr'
      obtain _ | ⟨hs', hr⟩ := hrun
      cases hs.symm.trans hs'
      cases hm : c.2 with
      | true =>
        obtain rfl := eq_of_run_exited theComp (he.trans hm) hr
        exact nomatch hr'.symm.trans (he.trans hm)
      | false =>
        obtain ⟨t1, h1⟩ := hn hm
        exact (ih h1 (he.trans hm) hd).1 s' hr hr'
    · intro ha
      have hm := ha c (.head _)
      obtain ⟨t1, h1⟩ := hn hm
      obtain ⟨s', hr, hr'⟩ := (ih h1 (he.trans hm) hd).2 fun c' hc' => ha c' (.tail _ hc')
      exact ⟨s', .cons hs hr, hr'⟩

lemma balancedTree_nil (hempty : s.trees i = none) : BalancedTree s i s.parent [] .nil :=
  ⟨hempty, trivial, nodup_nil, trivial, Pairwise.nil, .refl _, fun _ => rfl⟩

/-- **A tree to which keys are only added is balanced**: keys that are all different are added to a
tree that is empty, whatever else the process has done before.  As long as the process runs, the
tree in memory has these keys, and every balance factor is the difference of two heights and -1, 0
or 1.  Only a lack of memory ends the process. -/
theorem balanced_of_adds (s : State K) (i : ℕ) (calls : List (K × Bool)) (hempty : s.trees i = none)
    (hrunning : s.exited = false) (hdistinct : (calls.map Prod.fst).Nodup) :
    (∀ s', Run (Avl.step theComp) s (addCalls i calls) s' → s'.exited = false →
      ∃ t, s'.trees i = t.root ∧ t.Rep s'.heap.cell s.parent ∧ Balanced t ∧
        (Avl.keys t).Perm (calls.map Prod.fst)) ∧
    ((∀ c ∈ calls, c.2 = false) →
      ∃ s', Run (Avl.step theComp) s (addCalls i calls) s' ∧ s'.exited = false) := by
  obtain ⟨ha, hr⟩ := (balancedTree_nil hempty).run theComp hrunning hdistinct
  refine ⟨fun s' hrun hr' => ?_, hr⟩
  obtain ⟨t, ht⟩ := ha s' hrun hr'
  exact ⟨t, ht.link, ht.rep, ht.balanced, ht.keys⟩

/-- Eight keys, with rotations of all four kinds. -/
theorem balanced_of_adds_sample : ∃ s',
    Run (Avl.step intComparator) State.start
      (addCalls 0 [(5, false), (3, false), (4, false), (8, false), (7, false), (9, false),
        (2, false), (1, false)]) s' ∧
    ∃ t, s'.trees 0 = t.root ∧ t.Rep s'.heap.cell none ∧ Balanced t ∧
      (Avl.keys t).Perm [5, 3, 4, 8, 7, 9, 2, 1] := by
  obtain ⟨ha, hru⟩ := balanced_of_adds intComparator State.start 0
    [(5, false), (3, false), (4, false), (8, false), (7, false), (9, false), (2, false), (1, false)]
    rfl rfl (by decide)
  obtain ⟨s', hrun, hr⟩ := hru (by decide)
  exact ⟨s', hrun, ha s' hrun hr⟩

/-! ## How long a search takes -/

end Adding

end Glomop.ClientLib.Avl
