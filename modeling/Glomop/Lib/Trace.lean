import Glomop.Lib.Prog

/-!
# Programs that say what they do

`Traced ε σ α` is a program like `Prog σ α`, which also notes events of type `ε` on the way.  The
notes are kept where the program faults.  `erase` forgets the notes; that the result is the original
program is proved by `simp` with the lemmas about `erase`.
-/

namespace Glomop.Lib

def Traced (ε σ α : Type) := σ → List ε × Option (α × σ)

namespace Traced

variable {ε σ α β : Type}

instance : Monad (Traced ε σ) where
  pure a := fun s => ([], some (a, s))
  bind x f := fun s =>
    match (x s).2 with
    | none => ((x s).1, none)
    | some (a, s₁) => ((x s).1 ++ (f a s₁).1, (f a s₁).2)

def lift (x : Prog σ α) : Traced ε σ α := fun s => ([], x s)

def note (events : σ → List ε) (x : Prog σ α) : Traced ε σ α := fun s => (events s, x s)

def erase (x : Traced ε σ α) : Prog σ α := fun s => (x s).2

/-! ## Erasure -/

@[simp] lemma erase_pure (a : α) : erase (pure a : Traced ε σ α) = pure a := rfl

@[simp] lemma erase_lift (x : Prog σ α) : erase (lift x : Traced ε σ α) = x := rfl

@[simp] lemma erase_note (events : σ → List ε) (x : Prog σ α) : erase (note events x) = x := rfl

@[simp] lemma erase_bind (x : Traced ε σ α) (f : α → Traced ε σ β) :
    erase (x >>= f) = erase x >>= fun a => erase (f a) := by
  funext s
  change (match (x s).2 with
    | none => ((x s).1, none)
    | some (a, s1) => ((x s).1 ++ (f a s1).1, (f a s1).2)).2 =
    ((x s).2).bind fun p => (f p.1 p.2).2
  cases (x s).2 <;> rfl

@[simp] lemma erase_ite {c : Prop} [Decidable c] (x y : Traced ε σ α) :
    erase (if c then x else y) = if c then erase x else erase y := by
  split_ifs <;> rfl

lemma erase_run (x : Traced ε σ α) (s : σ) : erase x s = (x s).2 := rfl

/-! ## Running -/

variable {s : σ} {x : Traced ε σ α}

lemma bind_run {s1 : σ} {a : α} (h : (x s).2 = some (a, s1)) (f : α → Traced ε σ β) :
    (x >>= f) s = ((x s).1 ++ (f a s1).1, (f a s1).2) := by
  change (match (x s).2 with
    | none => ((x s).1, none)
    | some (a, s1) => ((x s).1 ++ (f a s1).1, (f a s1).2)) = _
  rw [h]

lemma bind_none (h : (x s).2 = none) (f : α → Traced ε σ β) : (x >>= f) s = ((x s).1, none) := by
  change (match (x s).2 with
    | none => ((x s).1, none)
    | some (a, s1) => ((x s).1 ++ (f a s1).1, (f a s1).2)) = _
  rw [h]

lemma lift_bind_run {x : Prog σ α} {s1 : σ} {a : α} (h : x s = some (a, s1))
    (f : α → Traced ε σ β) : (lift x >>= f) s = f a s1 :=
  bind_run (show ((lift x : Traced ε σ α) s).2 = some (a, s1) from h) f

lemma get_bind_run (s : σ) (f : σ → Traced ε σ β) : (lift get >>= f) s = f s s :=
  lift_bind_run rfl f

lemma lift_bind_none {x : Prog σ α} (h : x s = none) (f : α → Traced ε σ β) :
    (lift x >>= f) s = ([], none) :=
  bind_none (show ((lift x : Traced ε σ α) s).2 = none from h) f

lemma lift_bind (x : Prog σ α) (f : α → Prog σ β) :
    (lift (x >>= f) : Traced ε σ β) = lift x >>= fun a => lift (f a) := by
  funext s
  cases hx : x s with
  | none =>
    rw [lift_bind_none hx]
    exact congrArg ([], ·) (Prog.bind_none hx f)
  | some result =>
    obtain ⟨a, s1⟩ := result
    rw [lift_bind_run hx]
    exact congrArg ([], ·) (Prog.bind_run hx f)

lemma lift_pure (a : α) : (lift (pure a) : Traced ε σ α) = pure a := rfl

lemma lift_ite {c : Prop} [Decidable c] (x y : Prog σ α) :
    (lift (if c then x else y) : Traced ε σ α) = if c then lift x else lift y := by
  split_ifs <;> rfl

lemma forall_bind {P : ε → Prop} {f : α → Traced ε σ β} (hx : ∀ e ∈ (x s).1, P e)
    (hf : ∀ a s1, (x s).2 = some (a, s1) → ∀ e ∈ (f a s1).1, P e) : ∀ e ∈ ((x >>= f) s).1, P e := by
  intro e he
  cases hr : (x s).2 with
  | none =>
    rw [bind_none hr] at he
    exact hx e he
  | some result =>
    obtain ⟨a, s1⟩ := result
    rw [bind_run hr] at he
    rcases List.mem_append.mp he with he | he
    · exact hx e he
    · exact hf a s1 hr e he

lemma mem_bind (f : α → Traced ε σ β) {e : ε} (he : e ∈ (x s).1) : e ∈ ((x >>= f) s).1 := by
  cases hr : (x s).2 with
  | none =>
    rw [bind_none hr]
    exact he
  | some result =>
    rw [bind_run hr]
    exact List.mem_append_left _ he

lemma forall_lift {P : ε → Prop} (x : Prog σ α) (s : σ) :
    ∀ e ∈ ((lift x : Traced ε σ α) s).1, P e := by
  nofun

end Traced

end Glomop.Lib
