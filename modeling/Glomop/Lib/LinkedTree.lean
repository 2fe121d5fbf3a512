import Mathlib

/-!
# Binary trees in memory

`LTree` is a binary tree whose nodes carry their addresses, and `t.Rep cell parent` says that the
memory `cell` holds it, with parent pointers.  An `LCtx` is a tree with a hole; `rep_plug` takes a
tree in memory apart at a position, and puts it together again.  The reading programs `descendLeft`
and `climb` find the successor of a node (`descendLeft_eq`, `climb_eq`).
-/

namespace Glomop.Lib

open List

variable {α : Type}

@[ext] structure LNode (α : Type) where
  value : α
  left : Option ℕ
  right : Option ℕ
  parent : Option ℕ
deriving DecidableEq

inductive LTree (α : Type)
  | nil
  | node (l : LTree α) (a : ℕ) (v : α) (r : LTree α)

/-! ## The two sides -/

inductive Side
  | left
  | right
deriving DecidableEq

def Side.other : Side → Side
  | .left => .right
  | .right => .left

namespace LNode

def sided (side : Side) (v : α) (child other parent : Option ℕ) : LNode α :=
  match side with
  | .left => ⟨v, child, other, parent⟩
  | .right => ⟨v, other, child, parent⟩

def child (n : LNode α) : Side → Option ℕ
  | .left => n.left
  | .right => n.right

def setChild (n : LNode α) (side : Side) (p : Option ℕ) : LNode α :=
  match side with
  | .left => { n with left := p }
  | .right => { n with right := p }

def setParent (n : LNode α) (p : Option ℕ) : LNode α := { n with parent := p }

def setValue (n : LNode α) (v : α) : LNode α := { n with value := v }

variable (side : Side) (v w : α) (p c o q : Option ℕ)

@[simp] lemma sided_value : (sided side v c o q).value = v := by cases side <;> rfl

@[simp] lemma sided_parent : (sided side v c o q).parent = q := by cases side <;> rfl

@[simp] lemma sided_child : (sided side v c o q).child side = c := by cases side <;> rfl

@[simp] lemma sided_child_other : (sided side v c o q).child side.other = o := by
  cases side <;> rfl

@[simp] lemma setChild_sided : (sided side v c o q).setChild side p = sided side v p o q := by
  cases side <;> rfl

@[simp] lemma setChild_other_sided :
    (sided side v c o q).setChild side.other p = sided side v c p q := by
  cases side <;> rfl

@[simp] lemma setParent_sided : (sided side v c o q).setParent p = sided side v c o p := by
  cases side <;> rfl

end LNode

variable {a : ℕ} {l r : LTree α} {v : α}

namespace LTree

def root : LTree α → Option ℕ
  | nil => none
  | node _ a _ _ => some a

def nodes : LTree α → List (ℕ × α)
  | nil => []
  | node l a v r => l.nodes ++ (a, v) :: r.nodes

def addrs (t : LTree α) : List ℕ := t.nodes.map Prod.fst

@[simp] lemma root_nil : (nil : LTree α).root = none := rfl

@[simp] lemma root_node (l r : LTree α) (a : ℕ) (v : α) : (node l a v r).root = some a := rfl

@[simp] lemma nodes_nil : (nil : LTree α).nodes = [] := rfl

@[simp] lemma nodes_node (l r : LTree α) (a : ℕ) (v : α) :
    (node l a v r).nodes = l.nodes ++ (a, v) :: r.nodes := rfl

@[simp] lemma addrs_nil : (nil : LTree α).addrs = [] := rfl

@[simp] lemma addrs_node (l r : LTree α) (a : ℕ) (v : α) :
    (node l a v r).addrs = l.addrs ++ a :: r.addrs := by
  simp [addrs]

lemma root_eq_none_iff {t : LTree α} : t.root = none ↔ t = nil := by
  cases t <;> simp

lemma mem_addrs_of_root {t : LTree α} (h : t.root = some a) : a ∈ t.addrs := by
  cases t with
  | nil => exact nomatch h
  | node l b v r =>
    cases h
    simp

/-! ## In memory -/

def Rep (cell : ℕ → Option (LNode α)) : LTree α → Option ℕ → Prop
  | nil, _ => True
  | node l a v r, parent =>
    cell a = some ⟨v, l.root, r.root, parent⟩ ∧ Rep cell l (some a) ∧ Rep cell r (some a)

variable {cell cell' : ℕ → Option (LNode α)} {t : LTree α} {parent parent' : Option ℕ}

lemma Rep.frame (h : t.Rep cell parent) (hs : ∀ a ∈ t.addrs, cell' a = cell a) :
    t.Rep cell' parent := by
  induction t generalizing parent with
  | nil => trivial
  | node l a v r ihl ihr =>
    simp only [addrs_node, mem_append, mem_cons] at hs
    refine ⟨(hs a (.inr (.inl rfl))).trans h.1, ?_, ?_⟩
    · exact ihl h.2.1 fun b hb => hs b (.inl hb)
    · exact ihr h.2.2 fun b hb => hs b (.inr (.inr hb))

lemma Rep.exists_cell (h : t.Rep cell parent) (ha : a ∈ t.addrs) : ∃ n, cell a = some n := by
  induction t generalizing parent with
  | nil => exact nomatch ha
  | node l b v r ihl ihr =>
    simp only [addrs_node, mem_append, mem_cons] at ha
    rcases ha with ha | rfl | ha
    · exact ihl h.2.1 ha
    · exact ⟨_, h.1⟩
    · exact ihr h.2.2 ha

lemma Rep.reparent (h : t.Rep cell parent) (hn : t.addrs.Nodup)
    (hs : ∀ a ∈ t.addrs, t.root ≠ some a → cell' a = cell a)
    (hr : ∀ a n, t.root = some a → cell a = some n →
      cell' a = some (n.setParent parent')) : t.Rep cell' parent' := by
  cases t with
  | nil => trivial
  | node l a v r =>
    simp only [addrs_node, nodup_append, nodup_cons] at hn
    obtain ⟨-, ⟨har, -⟩, hd⟩ := hn
    simp only [addrs_node, mem_append, mem_cons, root_node, ne_eq, Option.some.injEq] at hs
    refine ⟨hr a _ rfl h.1, ?_, ?_⟩
    · refine h.2.1.frame fun b hb => hs b (.inl hb) ?_
      rintro rfl
      exact hd a hb a (.head _) rfl
    · refine h.2.2.frame fun b hb => hs b (.inr (.inr hb)) ?_
      rintro rfl
      exact har hb

def mapValues (f : ℕ → α → α) : LTree α → LTree α
  | nil => nil
  | node l a v r => node (l.mapValues f) a (f a v) (r.mapValues f)

@[simp] lemma root_mapValues (f : ℕ → α → α) (t : LTree α) : (t.mapValues f).root = t.root := by
  cases t <;> rfl

lemma nodes_mapValues (f : ℕ → α → α) (t : LTree α) :
    (t.mapValues f).nodes = t.nodes.map fun n => (n.1, f n.1 n.2) := by
  induction t with
  | nil => rfl
  | node l a v r ihl ihr => simp [mapValues, ihl, ihr]

lemma Rep.mapValues {f : ℕ → α → α} (h : t.Rep cell parent)
    (hv : ∀ a ∈ t.addrs, ∀ n, cell a = some n → cell' a = some (n.setValue (f a n.value))) :
    (t.mapValues f).Rep cell' parent := by
  induction t generalizing parent with
  | nil => trivial
  | node l a v r ihl ihr =>
    simp only [addrs_node, mem_append, mem_cons] at hv
    refine ⟨?_, ihl h.2.1 fun b hb => hv b (.inl hb), ihr h.2.2 fun b hb => hv b (.inr (.inr hb))⟩
    rw [hv a (.inr (.inl rfl)) _ h.1, root_mapValues, root_mapValues]
    rfl

lemma Rep.parent_of_child (h : t.Rep cell parent) {b : ℕ} {n : LNode α} (ha : a ∈ t.addrs)
    (hn : cell a = some n) (hc : n.left = some b ∨ n.right = some b) :
    b ∈ t.addrs ∧ ∃ m, cell b = some m ∧ m.parent = some a := by
  induction t generalizing parent with
  | nil => exact nomatch ha
  | node l c v r ihl ihr =>
    simp only [addrs_node, mem_append, mem_cons] at ha ⊢
    rcases ha with ha | rfl | ha
    · obtain ⟨hb, hm⟩ := ihl h.2.1 ha
      exact ⟨.inl hb, hm⟩
    · cases h.1.symm.trans hn
      rcases hc with hc | hc
      · refine ⟨.inl (mem_addrs_of_root hc), ?_⟩
        cases l with
        | nil => exact nomatch hc
        | node ll d w lr =>
          cases hc
          exact ⟨_, h.2.1.1, rfl⟩
      · refine ⟨.inr (.inr (mem_addrs_of_root hc)), ?_⟩
        cases r with
        | nil => exact nomatch hc
        | node rl d w rr =>
          cases hc
          exact ⟨_, h.2.2.1, rfl⟩
    · obtain ⟨hb, hm⟩ := ihr h.2.2 ha
      exact ⟨.inr (.inr hb), hm⟩

lemma Rep.child_of_parent (h : t.Rep cell parent) {b : ℕ} {m : LNode α} (hb : b ∈ t.addrs)
    (hm : cell b = some m) (hno : t.addrs.Nodup) :
    (t.root = some b ∧ m.parent = parent) ∨
      ∃ a ∈ t.addrs, m.parent = some a ∧
        ∃ n, cell a = some n ∧ (n.left = some b ∨ n.right = some b) := by
  induction t generalizing parent with
  | nil => exact nomatch hb
  | node l c v r ihl ihr =>
    simp only [addrs_node, nodup_append, nodup_cons] at hno
    obtain ⟨hl, ⟨-, hr⟩, -⟩ := hno
    simp only [addrs_node, mem_append, mem_cons] at hb ⊢
    rcases hb with hb | rfl | hb
    · rcases ihl h.2.1 hb hl with ⟨hro, hp⟩ | ⟨a, ha, hp, hn⟩
      · exact .inr ⟨c, .inr (.inl rfl), hp, _, h.1, .inl hro⟩
      · exact .inr ⟨a, .inl ha, hp, hn⟩
    · cases h.1.symm.trans hm
      exact .inl ⟨rfl, rfl⟩
    · rcases ihr h.2.2 hb hr with ⟨hro, hp⟩ | ⟨a, ha, hp, hn⟩
      · exact .inr ⟨c, .inr (.inl rfl), hp, _, h.1, .inr hro⟩
      · exact .inr ⟨a, .inr (.inr ha), hp, hn⟩

def height : LTree α → ℕ
  | nil => 0
  | node l _ _ r => max l.height r.height + 1

lemma height_le_length (t : LTree α) : t.height ≤ t.nodes.length := by
  induction t with
  | nil => rfl
  | node l a v r ihl ihr =>
    rw [height, nodes_node, List.length_append, List.length_cons]
    omega

def sided (side : Side) (t : LTree α) (a : ℕ) (v : α) (o : LTree α) : LTree α :=
  match side with
  | .left => node t a v o
  | .right => node o a v t

section Sided

variable {side : Side} {o : LTree α} {a b : ℕ} {v : α}

@[simp] lemma root_sided : (sided side t a v o).root = some a := by cases side <;> rfl

lemma rep_sided : (sided side t a v o).Rep cell parent ↔
    cell a = some (.sided side v t.root o.root parent) ∧
      t.Rep cell (some a) ∧ o.Rep cell (some a) := by
  cases side with
  | left => rfl
  | right => exact and_congr_right fun _ => and_comm

lemma mem_addrs_sided : b ∈ (sided side t a v o).addrs ↔ b = a ∨ b ∈ t.addrs ∨ b ∈ o.addrs := by
  cases side <;> simp [sided] <;> tauto

@[simp] lemma mapValues_sided (f : ℕ → α → α) : (sided side t a v o).mapValues f =
    sided side (t.mapValues f) a (f a v) (o.mapValues f) := by
  cases side <;> rfl

lemma height_sided : (sided side t a v o).height = max t.height o.height + 1 := by
  cases side with
  | left => rfl
  | right => exact congrArg (· + 1) (max_comm _ _)

lemma addrs_sided_perm (side : Side) (t o : LTree α) (a : ℕ) (v : α) :
    (sided side t a v o).addrs.Perm (a :: (t.addrs ++ o.addrs)) := by
  cases side with
  | left => simp [sided]
  | right => simpa [sided] using perm_middle.trans ((perm_append_comm).cons a)

lemma nodup_addrs_sided : (sided side t a v o).addrs.Nodup ↔
    a ∉ t.addrs ∧ a ∉ o.addrs ∧ t.addrs.Nodup ∧ o.addrs.Nodup ∧ ∀ b ∈ t.addrs, b ∉ o.addrs := by
  rw [(addrs_sided_perm side t o a v).nodup_iff, nodup_cons, mem_append, nodup_append']
  simp only [not_or, disjoint_left]
  tauto

lemma nodup_addrs_of_sided (side : Side) (h : (sided side t a v o).addrs.Nodup) : t.addrs.Nodup :=
  (nodup_addrs_sided.mp h).2.2.1

end Sided

end LTree

/-! ## Trees with a hole -/

structure LFrame (α : Type) where
  side : Side
  addr : ℕ
  value : α
  rest : LTree α

abbrev LCtx (α : Type) := List (LFrame α)

def LFrame.plug (f : LFrame α) (t : LTree α) : LTree α := .sided f.side t f.addr f.value f.rest

namespace LCtx

def top (c : LCtx α) : Option ℕ := c.head?.map LFrame.addr

@[simp] lemma top_nil : top ([] : LCtx α) = none := rfl

@[simp] lemma top_cons (f : LFrame α) (c : LCtx α) : top (f :: c) = some f.addr := rfl

def plug : LCtx α → LTree α → LTree α
  | [], t => t
  | f :: c, t => plug c (f.plug t)

@[simp] lemma plug_nil (t : LTree α) : plug [] t = t := rfl

@[simp] lemma plug_cons (f : LFrame α) (c : LCtx α) (t : LTree α) :
    plug (f :: c) t = plug c (f.plug t) := rfl

lemma plug_append (c c' : LCtx α) (t : LTree α) : plug (c ++ c') t = plug c' (plug c t) := by
  induction c generalizing t with
  | nil => rfl
  | cons f c ih => exact ih (f.plug t)

lemma root_plug_congr (c : LCtx α) {t t' : LTree α} (h : t.root = t'.root) :
    (plug c t).root = (plug c t').root := by
  induction c generalizing t t' with
  | nil => exact h
  | cons f c ih =>
    apply ih
    rw [LFrame.plug, LFrame.plug, LTree.root_sided, LTree.root_sided]

def before : LCtx α → List (ℕ × α)
  | [] => []
  | ⟨.left, _, _, _⟩ :: c => before c
  | ⟨.right, a, v, l⟩ :: c => before c ++ (l.nodes ++ [(a, v)])

def after : LCtx α → List (ℕ × α)
  | [] => []
  | ⟨.left, a, v, r⟩ :: c => (a, v) :: (r.nodes ++ after c)
  | ⟨.right, _, _, _⟩ :: c => after c

lemma nodes_plug (c : LCtx α) (t : LTree α) :
    (plug c t).nodes = before c ++ (t.nodes ++ after c) := by
  induction c generalizing t with
  | nil => simp [before, after]
  | cons f c ih =>
    obtain ⟨side, a, v, o⟩ := f
    cases side <;> simp [ih, LFrame.plug, LTree.sided, before, after]

lemma before_append (c c' : LCtx α) : before (c ++ c') = before c' ++ before c := by
  induction c with
  | nil => simp [before]
  | cons f c ih =>
    obtain ⟨side, a, v, o⟩ := f
    cases side <;> simp [before, ih]

lemma after_append (c c' : LCtx α) : after (c ++ c') = after c ++ after c' := by
  induction c with
  | nil => simp [after]
  | cons f c ih =>
    obtain ⟨side, a, v, o⟩ := f
    cases side <;> simp [after, ih]

lemma exists_plug {t : LTree α} {xs ys : List (ℕ × α)} (h : t.nodes = xs ++ (a, v) :: ys) :
    ∃ (c : LCtx α) (l r : LTree α), plug c (.node l a v r) = t ∧ r.nodes ++ after c = ys := by
  induction t generalizing xs ys with
  | nil => simp at h
  | node l b w r ihl ihr =>
    rw [LTree.nodes_node, append_eq_append_iff] at h
    rcases h with ⟨zs, rfl, hri⟩ | ⟨zs, hl, hri⟩
    · cases zs with
      | nil =>
        obtain ⟨⟨rfl, rfl⟩, rfl⟩ : ((b = a) ∧ w = v) ∧ r.nodes = ys := by simpa using hri
        exact ⟨[], l, r, rfl, by simp [after]⟩
      | cons z zs =>
        obtain ⟨rfl, hr⟩ := cons.inj hri
        obtain ⟨c, l', r', hp, ha⟩ := ihr hr
        refine ⟨c ++ [⟨.right, b, w, l⟩], l', r', ?_, ?_⟩
        · rw [plug_append, hp]
          rfl
        · simp [after_append, after, ← ha]
    · cases zs with
      | nil =>
        obtain ⟨⟨rfl, rfl⟩, rfl⟩ : ((a = b) ∧ v = w) ∧ ys = r.nodes := by simpa using hri
        exact ⟨[], l, r, rfl, by simp [after]⟩
      | cons z zs =>
        obtain ⟨rfl, rfl⟩ := cons.inj hri
        obtain ⟨c, l', r', hp, ha⟩ := ihl hl
        refine ⟨c ++ [⟨.left, b, w, r⟩], l', r', ?_, ?_⟩
        · rw [plug_append, hp]
          rfl
        · simp [after_append, after, ← ha]

def addrs : LCtx α → List ℕ
  | [] => []
  | f :: c => f.addr :: (f.rest.addrs ++ addrs c)

lemma addrs_plug_perm (c : LCtx α) (t : LTree α) : (plug c t).addrs.Perm (t.addrs ++ addrs c) := by
  induction c generalizing t with
  | nil => simp [addrs]
  | cons f c ih =>
    rw [plug_cons, addrs]
    refine (ih (f.plug t)).trans ?_
    refine ((LTree.addrs_sided_perm ..).append_right (addrs c)).trans ?_
    simpa using perm_middle.symm

/-- The memory holds the tree around the hole, which `hole` points to. -/
def Rep (cell : ℕ → Option (LNode α)) : LCtx α → Option ℕ → Prop
  | [], _ => True
  | f :: c, hole =>
    cell f.addr = some (.sided f.side f.value hole f.rest.root (top c)) ∧
      f.rest.Rep cell (some f.addr) ∧ Rep cell c (some f.addr)

variable {cell cell' : ℕ → Option (LNode α)} {c : LCtx α} {hole : Option ℕ}

lemma rep_plug (c : LCtx α) (t : LTree α) :
    (plug c t).Rep cell none ↔ Rep cell c t.root ∧ t.Rep cell (top c) := by
  induction c generalizing t with
  | nil => simp [Rep]
  | cons f c ih =>
    rw [plug_cons, ih, LFrame.plug, LTree.rep_sided, LTree.root_sided, Rep, top_cons]
    tauto

lemma cell_of_rep_plug (h : (plug c (.node l a v r)).Rep cell none) :
    cell a = some ⟨v, l.root, r.root, top c⟩ :=
  ((rep_plug ..).mp h).2.1

lemma Rep.frame (h : Rep cell c hole) (hs : ∀ a ∈ addrs c, cell' a = cell a) :
    Rep cell' c hole := by
  induction c generalizing hole with
  | nil => trivial
  | cons f c ih =>
    simp only [addrs, mem_cons, mem_append] at hs
    refine ⟨(hs f.addr (.inl rfl)).trans h.1, ?_, ?_⟩
    · exact h.2.1.frame fun b hb => hs b (.inr (.inl hb))
    · exact ih h.2.2 fun b hb => hs b (.inr (.inr hb))

lemma rep_plug_setValue {w : α} (h : (plug c (.node l a v r)).Rep cell none)
    (hno : (plug c (.node l a v r)).addrs.Nodup)
    (ha : ∀ n, cell a = some n → cell' a = some (n.setValue w))
    (hs : ∀ b ∈ (plug c (.node l a v r)).addrs, b ≠ a → cell' b = cell b) :
    (plug c (.node l a w r)).Rep cell' none := by
  have hp := addrs_plug_perm c (.node l a v r)
  rw [hp.nodup_iff, LTree.addrs_node, nodup_append'] at hno
  simp only [hp.mem_iff, LTree.addrs_node, mem_append, mem_cons] at hs
  obtain ⟨hn, -, hd⟩ := hno
  rw [nodup_middle, nodup_cons, mem_append, not_or] at hn
  rw [rep_plug] at h ⊢
  obtain ⟨hct, hc, hl, hr⟩ := h
  refine ⟨hct.frame ?_, ha _ hc, hl.frame ?_, hr.frame ?_⟩
  · intro b hb
    refine hs b (.inr hb) ?_
    rintro rfl
    exact hd (mem_append_right _ (.head _)) hb
  · intro b hb
    refine hs b (.inl (.inl hb)) ?_
    rintro rfl
    exact hn.1.1 hb
  · intro b hb
    refine hs b (.inl (.inr (.inr hb))) ?_
    rintro rfl
    exact hn.1.2 hb

lemma Rep.relink {hole' : Option ℕ} (h : Rep cell c (some a)) (hn : (a :: addrs c).Nodup)
    (hs : ∀ b ∈ addrs c, top c ≠ some b → cell' b = cell b)
    (ht : ∀ p n, top c = some p → cell p = some n →
      cell' p = some (n.setChild (if n.left = some a then .left else .right) hole')) :
    Rep cell' c hole' := by
  cases c with
  | nil => trivial
  | cons f c =>
    simp only [addrs, nodup_cons, mem_cons, mem_append, not_or] at hn hs
    obtain ⟨⟨-, ha, -⟩, ⟨hr, hc⟩, -⟩ := hn
    have hsi : (if (LNode.sided f.side f.value (some a) f.rest.root (top c)).left = some a
        then Side.left else Side.right) = f.side := by
      -- the test for the left child is right because the other subtree has another root
      have hne : f.rest.root ≠ some a := fun hro => ha (LTree.mem_addrs_of_root hro)
      cases hf : f.side <;> simp [LNode.sided, hne]
    refine ⟨?_, ?_, ?_⟩
    · rw [ht _ _ rfl h.1, hsi, LNode.setChild_sided]
    · refine h.2.1.frame fun b hb => hs b (.inr (.inl hb)) ?_
      rintro hb'
      cases hb'
      exact hr hb
    · refine h.2.2.frame fun b hb => hs b (.inr (.inr hb)) ?_
      rintro hb'
      cases hb'
      exact hc hb

end LCtx

/-! ## Reading a tree -/

section Reading

variable (cell : ℕ → Option (LNode α))

def descendLeft : ℕ → ℕ → Option ℕ
  | 0, _ => none
  | fuel + 1, a =>
    match cell a with
    | none => none
    | some n =>
      match n.left with
      | none => some a
      | some b => descendLeft fuel b

def climb : ℕ → ℕ → Option ℕ → Option (Option ℕ)
  | _, _, none => some none
  | 0, _, some _ => none
  | fuel + 1, child, some a =>
    match cell a with
    | none => none
    | some n => if n.right = some child then climb fuel a n.parent else some (some a)

end Reading

variable {cell : ℕ → Option (LNode α)}

lemma LTree.exists_leftmost (l r : LTree α) (a : ℕ) (v : α) :
    ∃ (c : LCtx α) (b : ℕ) (w : α) (x : LTree α), LCtx.plug c (.node .nil b w x) = .node l a v r ∧
      LCtx.before c = [] := by
  induction l generalizing a v r with
  | nil => exact ⟨[], a, v, r, rfl, rfl⟩
  | node ll b w lr ih =>
    obtain ⟨c, d, u, x, hp, hb⟩ := ih lr b w
    refine ⟨c ++ [⟨.left, a, v, r⟩], d, u, x, ?_, ?_⟩
    · rw [LCtx.plug_append, hp]
      rfl
    · simp [LCtx.before_append, LCtx.before, hb]

lemma descendLeft_eq {parent : Option ℕ} {fuel : ℕ} (h : (LTree.node l a v r).Rep cell parent)
    (hf : l.nodes.length < fuel) : descendLeft cell fuel a = (LTree.node l a v r).addrs.head? := by
  induction l generalizing a v r parent fuel with
  | nil =>
    obtain _ | fuel := fuel
    · omega
    · simp [descendLeft, h.1]
  | node ll b w lr ih =>
    obtain _ | fuel := fuel
    · omega
    · have hf' : ll.nodes.length < fuel := by
        simp only [LTree.nodes_node, length_append, length_cons] at hf
        omega
      have hr := ih h.2.1 hf'
      simp only [descendLeft, h.1, LTree.root_node]
      rw [hr]
      simp

lemma climb_eq {c : LCtx α} {child fuel : ℕ} (h : LCtx.Rep cell c (some child))
    (hn : (child :: LCtx.addrs c).Nodup) (hf : c.length ≤ fuel) :
    climb cell fuel child (LCtx.top c) = some (((LCtx.after c).map Prod.fst).head?) := by
  induction c generalizing child fuel with
  | nil => cases fuel <;> simp [climb, LCtx.after]
  | cons f c ih =>
    obtain _ | fuel := fuel
    · simp at hf
    · obtain ⟨side, a, v, o⟩ := f
      simp only [LCtx.addrs, nodup_cons, mem_cons, mem_append, not_or] at hn
      obtain ⟨⟨-, hch, -⟩, ⟨-, hac⟩, hr⟩ := hn
      cases side with
      | left =>
        have hne : o.root ≠ some child := fun hro => hch (LTree.mem_addrs_of_root hro)
        simp [climb, h.1, LNode.sided, hne, LCtx.after]
      | right =>
        have hn' : (a :: LCtx.addrs c).Nodup := nodup_cons.mpr ⟨hac, (nodup_append.mp hr).2.1⟩
        have hc := ih h.2.2 hn' (by simpa using hf)
        simp only [LCtx.top_cons, climb, h.1, LNode.sided, if_true]
        exact hc

end Glomop.Lib
