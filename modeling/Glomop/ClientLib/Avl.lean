import Glomop.Lib.Heap
import Glomop.Lib.LinkedTree
import Glomop.Lib.Prog
import Glomop.Lib.Run

/-!
# The AVL tree of the client library

`utils.c` keeps ordered sets of pointers in binary trees with parent pointers.  Insertion rotates by
the balance factors; deletion does not look at them.  `Tree_Add` and `Tree_Delete` hand values from
one level to the next in static variables, which all trees share.  `Tree_Add` takes a pointer to the
link that is to receive the new node; the model passes the link's value down and the new one back.
Source: `utils.c`.
-/

namespace Glomop.ClientLib.Avl

open Glomop.Lib Prog

/-- What a comparator promises: `theComp a b` is positive if `a` comes after `b`, negative if it
comes before.  `utils.h` `AVL_comparator`. -/
structure Comparator (K : Type) [LinearOrder K] where
  compare : K → K → ℤ
  pos_iff : ∀ a b, 0 < compare a b ↔ b < a
  neg_iff : ∀ a b, compare a b < 0 ↔ a < b

/-- What a node holds besides its links.  `utils.h` `AVL_tree_element`. -/
@[ext] structure Element (K : Type) where
  data : K
  bal : ℤ
deriving DecidableEq

/-- The nodes of all trees, the variables the trees are in, and the static variables of `Tree_Add`
(`checkBalance`, `parent`) and `Tree_Delete` (`root`). -/
structure State (K : Type) where
  heap : Heap (LNode (Element K))
  trees : ℕ → Option ℕ
  checkBalance : Bool
  parent : Option ℕ
  root : Option ℕ
  exited : Bool

variable {K : Type}

def State.start : State K := ⟨.empty, fun _ => none, false, none, none, false⟩

abbrev TreeProg (K : Type) := Prog (State K)

def deref (a : ℕ) : TreeProg K (LNode (Element K)) := do
  let s ← get
  ofOption (s.heap.cell a)

def assign (a : ℕ) (f : LNode (Element K) → LNode (Element K)) : TreeProg K Unit := do
  let n ← deref a
  modify fun s => { s with heap := s.heap.set a (f n) }

def setBal (a : ℕ) (b : ℤ) : TreeProg K Unit :=
  assign a fun n => n.setValue { n.value with bal := b }

def setCheckBalance (b : Bool) : TreeProg K Unit := modify fun s => { s with checkBalance := b }

/-- `if (r != NULL) r->parent = p`. -/
def reparent (r p : Option ℕ) : TreeProg K Unit :=
  match r with
  | none => pure ()
  | some a => assign a fun n => n.setParent p

/-- How `Tree_Add` ends: it returns a code and has put a value into the link, or it has called
`exit`. -/
inductive AddResult
  | returned (code : ℤ) (link : Option ℕ)
  | exited
deriving DecidableEq

def sign : Side → ℤ
  | .left => -1
  | .right => 1

/-- The links after an LL or RR rotation: `p` comes to the top, with `q` below it. -/
def turnSingle (side : Side) (q p : ℕ) : TreeProg K Unit := do
  let nq ← deref q
  let np ← deref p
  let r := np.child side.other
  assign p fun n => (n.setParent nq.parent).setChild side.other (some q)
  assign q fun n => (n.setParent (some p)).setChild side r
  reparent r (some q)

/-- The LL rotation (`side` is `left`) and the RR rotation (`right`) at `q`, whose child on that
side is `p`.  `Tree_Add`; the RR rotation writes the same links in another order. -/
def rotateSingle (side : Side) (q p : ℕ) : TreeProg K AddResult := do
  turnSingle side q p
  setBal p 0
  setBal q 0
  setCheckBalance false
  return .returned 0 (some p)

def rebalanceDouble (side : Side) (m p q : ℕ) (bal : ℤ) : TreeProg K Unit := do
  if bal = 0 then
    setBal q 0
    setBal p 0
    setBal m 0
  else if bal = sign side then
    setBal q 0
    setBal p 0
    setBal m (sign side.other)
  else if bal = sign side.other then
    setBal q 0
    setBal p (sign side)
    setBal m 0

/-- The links after an LR or RL rotation: `q` comes to the top, with `p` and `m` below it. -/
def turnDouble (side : Side) (m p q : ℕ) : TreeProg K Unit := do
  let nq ← deref q
  let s := nq.child side
  let u := nq.child side.other
  let nm ← deref m
  assign q fun n => n.setParent nm.parent
  assign m fun n => n.setParent (some q)
  assign p fun n => n.setParent (some q)
  reparent s (some p)
  reparent u (some m)
  assign p fun n => n.setChild side.other s
  assign q fun n => (n.setChild side (some p)).setChild side.other (some m)
  assign m fun n => n.setChild side u

/-- The LR rotation (`side` is `left`) and the RL rotation (`right`) at `m`, whose child on that
side is `p`.  `Tree_Add`; the RL rotation writes the same links in another order. -/
def rotateDouble (side : Side) (m p : ℕ) : TreeProg K AddResult := do
  let np ← deref p
  let q ← ofOption (np.child side.other)
  turnDouble side m p q
  let nq ← deref q
  rebalanceDouble side m p q nq.value.bal
  setCheckBalance false
  return .returned 0 (some q)

/-- A child that has grown has a balance factor other than -1 and 1.  On the left this is the
`default` of the `switch`, which calls `exit`; on the right there is none.  `Tree_Add`. -/
def wierdCase (a : ℕ) : Side → AddResult
  | .left => .exited
  | .right => .returned 0 (some a)

/-- What insertion does at a node after its subtree on one side has grown.  `Tree_Add`. -/
def rebalance (side : Side) (a : ℕ) : TreeProg K AddResult := do
  let n ← deref a
  if n.value.bal = sign side.other then
    setBal a 0
    setCheckBalance false
    return .returned 0 (some a)
  else if n.value.bal = 0 then
    setBal a (sign side)
    setCheckBalance true
    return .returned 0 (some a)
  else if n.value.bal = sign side then
    let p ← ofOption (n.child side)
    let np ← deref p
    if np.value.bal = sign side then
      rotateSingle side a p
    else if np.value.bal = sign side.other then
      rotateDouble side a p
    else
      return wierdCase a side
  else
    return .returned 0 (some a)

def afterInsertion (side : Side) (a : ℕ) : AddResult → TreeProg K AddResult
  | .exited => return .exited
  | .returned code link => do
    assign a fun n => n.setChild side link
    if code ≠ 0 then
      setCheckBalance false
      return .returned (-1) (some a)
    else
      let s ← get
      if s.checkBalance then
        rebalance side a
      else
        setCheckBalance false
        return .returned 0 (some a)

variable [LinearOrder K] (theComp : Comparator K)

/-- Insert into the tree that a link points to.  `noMemory`: `malloc` fails, on which
`Allocate_AVL_tree` calls `exit`. -/
def treeAdd (noMemory : Bool) (addMe : K) : ℕ → Option ℕ → TreeProg K AddResult
  | 0, _ => fault
  | _ + 1, none => do
    if noMemory then
      return .exited
    else
      let s ← get
      set { s with
        heap := s.heap.alloc ⟨⟨addMe, 0⟩, none, none, s.parent⟩
        checkBalance := true
        parent := none }
      return .returned 0 (some s.heap.next)
  | fuel + 1, some a => do
    let n ← deref a
    if 0 < theComp.compare n.value.data addMe then
      modify fun s => { s with parent := some a }
      let r ← treeAdd noMemory addMe fuel n.left
      afterInsertion .left a r
    else if theComp.compare n.value.data addMe < 0 then
      modify fun s => { s with parent := some a }
      let r ← treeAdd noMemory addMe fuel n.right
      afterInsertion .right a r
    else
      setCheckBalance false
      return .returned (-1) (some a)

/-- The node after a node. -/
def treeNext (cell : ℕ → Option (LNode (Element K))) (fuel searchMe : ℕ) : Option (Option ℕ) :=
  match cell searchMe with
  | none => none
  | some n =>
    match n.right with
    | some b => (descendLeft cell fuel b).map some
    | none => climb cell fuel searchMe n.parent

def treeFirst (cell : ℕ → Option (LNode (Element K))) (fuel : ℕ) : Option ℕ → Option (Option ℕ)
  | none => some none
  | some a => (descendLeft cell fuel a).map some

def treeSearch (cell : ℕ → Option (LNode (Element K))) (searchForMe : K) :
    ℕ → Option ℕ → Option (Option ℕ)
  | 0, _ => none
  | _ + 1, none => some none
  | fuel + 1, some a =>
    match cell a with
    | none => none
    | some n =>
      if 0 < theComp.compare n.value.data searchForMe then
        treeSearch cell searchForMe fuel n.left
      else if theComp.compare n.value.data searchForMe < 0 then
        treeSearch cell searchForMe fuel n.right
      else some (some a)

/-- Take the node `tempTree`, which has at most one child, out of its tree.  `Tree_Delete`. -/
def unlink (tempTree : ℕ) : TreeProg K Unit := do
  let n ← deref tempTree
  let tempTreeX := if n.left.isSome then n.left else n.right
  reparent tempTreeX n.parent
  match n.parent with
  | none =>
    let s ← get
    let i ← ofOption s.root
    set { s with trees := Function.update s.trees i tempTreeX }
  | some p =>
    assign p fun np =>
      np.setChild (if np.left = some tempTree then .left else .right) tempTreeX

/-- The node to be freed for `z`: `z` itself, or its successor if it has two children.
`Tree_Delete`. -/
def chooseTempTree (fuel z : ℕ) : TreeProg K ℕ := do
  let n ← deref z
  let s ← get
  if n.left = none ∨ n.right = none then
    return z
  else
    ofOption ((treeNext s.heap.cell fuel z).bind id)

/-- "Splice successor back in".  `Tree_Delete`. -/
def spliceBack (tempTree z : ℕ) : TreeProg K Unit := do
  if tempTree ≠ z then
    let n ← deref tempTree
    assign z fun nz => nz.setValue { nz.value with data := n.value.data }

/-- Delete the node `z`, which was found.  `Tree_Delete`. -/
def deleteNode (fuel z : ℕ) : TreeProg K ℤ := do
  let tempTree ← chooseTempTree fuel z
  unlink tempTree
  spliceBack tempTree z
  modify fun s => { s with heap := s.heap.free tempTree, root := none }
  return 0

/-- Delete a key from the tree that a link points to; `i` is the variable the outermost call was
given. -/
def treeDelete (i : ℕ) (deleteMe : K) : ℕ → Option ℕ → TreeProg K ℤ
  | 0, _ => fault
  | _ + 1, none => do
    modify fun s => { s with root := none }
    return -1
  | fuel + 1, some z => do
    modify fun s => { s with root := if s.root = none then some i else s.root }
    let n ← deref z
    if 0 < theComp.compare n.value.data deleteMe then
      treeDelete i deleteMe fuel n.left
    else if theComp.compare n.value.data deleteMe < 0 then
      treeDelete i deleteMe fuel n.right
    else
      deleteNode fuel z

/-! ## The calls of a process -/

inductive Call (K : Type)
  | add (i : ℕ) (key : K) (noMemory : Bool)
  | delete (i : ℕ) (key : K)
  | search (i : ℕ) (key : K)
  | next (a : ℕ)
deriving DecidableEq

def State.fuel (s : State K) : ℕ := s.heap.next + 1

/-- `Tree_Add` on a tree variable: the code it returns, unless it calls `exit`. -/
def add (i : ℕ) (key : K) (noMemory : Bool) : TreeProg K (Option ℤ) := do
  let s ← get
  match ← treeAdd theComp noMemory key s.fuel (s.trees i) with
  | .exited =>
    modify fun s => { s with exited := true }
    return none
  | .returned code link =>
    modify fun s => { s with trees := Function.update s.trees i link }
    return some code

/-- `Tree_Delete` on a tree variable. -/
def delete (i : ℕ) (key : K) : TreeProg K ℤ := do
  let s ← get
  treeDelete theComp i key s.fuel (s.trees i)

/-- The state after a call. -/
def act (s : State K) : Call K → Option (State K)
  | .add i key noMemory => (add theComp i key noMemory s).map Prod.snd
  | .delete i key => (delete theComp i key s).map Prod.snd
  | .search i key => (treeSearch theComp s.heap.cell key s.fuel (s.trees i)).map fun _ => s
  | .next a => (treeNext s.heap.cell s.fuel a).map fun _ => s

/-- The process goes on until `exit`. -/
def next (s : State K) (call : Call K) : Option (State K) :=
  if s.exited then none else act theComp s call

def step (s : State K) (call : Call K) (s' : State K) : Prop := next theComp s call = some s'

/-- `Tree_Next` from `Tree_First` to the end. -/
def iterateFrom (s : State K) : ℕ → Option ℕ → Option (List ℕ)
  | _, none => some []
  | 0, some _ => none
  | rounds + 1, some a =>
    match treeNext s.heap.cell s.fuel a with
    | none => none
    | some b => (iterateFrom s rounds b).map (a :: ·)

def iterate (s : State K) (i : ℕ) : Option (List ℕ) :=
  (treeFirst s.heap.cell s.fuel (s.trees i)).bind (iterateFrom s s.fuel)

end Glomop.ClientLib.Avl
