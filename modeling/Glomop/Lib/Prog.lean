import Mathlib

/-!
# Programs over a state that may fault

`Prog σ α` is a state transformer over `σ` whose result is `none` exactly when the program
**faults**, as where it reads through a pointer to something deleted.

* **Inversion.** Each primitive has one `simp` lemma that reads a successful run backwards.
* **Total correctness.** `Prog.Returns x s a Q`: `x` run from `s` returns `a` in a state satisfying
  `Q`.
* **Values.** `Prog.Yields x a`: `x` returns nothing but `a`, whatever it does to the state.
* **Effects.** `Prog.Within R x`: a run of `x` takes a state only to states that the preorder `R`
  relates to it.
-/

namespace Glomop.Lib

/-- A program over states `σ`: it faults, or returns a value and the next state. -/
abbrev Prog (σ : Type) := StateT σ Option

namespace Prog

variable {σ α β : Type}

def fault : Prog σ α := fun _ => none

/-- Continue with the value of `x`, or fault where there is none (a freed object, say). -/
def ofOption (x : Option α) : Prog σ α := fun s => x.map fun a => (a, s)

/-! ## Reading a successful run backwards -/

variable {Q : σ → Prop} {a : α} {b : β} {f : α → Prog σ β} {s s' : σ} {x : Prog σ α}

@[simp] lemma bind_eq_some :
    (x >>= f) s = some (b, s') ↔ ∃ a s1, x s = some (a, s1) ∧ f a s1 = some (b, s') := by
  change (x s).bind (fun p => f p.1 p.2) = some (b, s') ↔ _
  rw [Option.bind_eq_some_iff]
  exact ⟨fun ⟨⟨a, s1⟩, h1, h2⟩ => ⟨a, s1, h1, h2⟩, fun ⟨a, s1, h1, h2⟩ => ⟨⟨a, s1⟩, h1, h2⟩⟩

@[simp] lemma pure_eq_some {b : α} : (pure a : Prog σ α) s = some (b, s') ↔ b = a ∧ s' = s := by
  change some (a, s) = some (b, s') ↔ _
  simp [eq_comm]

@[simp] lemma get_eq_some {t : σ} : (get : Prog σ σ) s = some (t, s') ↔ t = s ∧ s' = s := by
  change some (s, s) = some (t, s') ↔ _
  simp [eq_comm]

@[simp] lemma set_eq_some {t : σ} {u : PUnit} :
    (set t : Prog σ PUnit) s = some (u, s') ↔ s' = t := by
  change some (PUnit.unit, t) = some (u, s') ↔ _
  simp [eq_comm]

@[simp] lemma modify_eq_some {f : σ → σ} {u : PUnit} :
    (modify f : Prog σ PUnit) s = some (u, s') ↔ s' = f s := by
  change some (PUnit.unit, f s) = some (u, s') ↔ _
  simp [eq_comm]

@[simp] lemma fault_eq_some : (fault : Prog σ α) s = some (a, s') ↔ False := by
  simp [fault]

@[simp] lemma ofOption_eq_some {x : Option α} :
    (ofOption x : Prog σ α) s = some (a, s') ↔ x = some a ∧ s' = s := by
  cases x <;> simp [ofOption, eq_comm]

@[simp] lemma ite_eq_some {c : Prop} [Decidable c] {y : Prog σ α} :
    (if c then x else y) s = some (a, s') ↔
      (c ∧ x s = some (a, s')) ∨ (¬ c ∧ y s = some (a, s')) := by
  by_cases h : c <;> simp [h]

/-- **The `simp` set for a run that succeeded**: what the primitives do is put in its place, and what
is left are the values of options and the runs of other programs. -/
lemma run_iff :
    (∀ {σ α β γ} (x : Prog σ α) (f : α → Prog σ β) (g : β → Prog σ γ),
      x >>= f >>= g = x >>= fun a => f a >>= g) ∧
    (∀ {σ α} (f : σ → Prog σ α) s, (get >>= f) s = f s s) ∧
    (∀ {σ α} t (f : PUnit → Prog σ α) s, (set t >>= f) s = f ⟨⟩ t) ∧
    (∀ {σ α} g (f : PUnit → Prog σ α) s, (modify g >>= f) s = f ⟨⟩ (g s)) ∧
    (∀ {σ α β} a (f : α → Prog σ β) s, (pure a >>= f) s = f a s) ∧
    (∀ {σ α β} x (f : α → Prog σ β) s, (ofOption x >>= f) s = x.bind (f · s)) ∧
    (∀ {α β : Type} (x : Option α) (f : α → Option β) b,
      x.bind f = some b ↔ ∃ a, x = some a ∧ f a = some b) ∧
    (∀ {σ α β} (x : Prog σ α) (f : α → Prog σ β) s b s', (x >>= f) s = some (b, s') ↔
      ∃ a s1, x s = some (a, s1) ∧ f a s1 = some (b, s')) ∧
    (∀ {σ α} (a : α) (s : σ) b s', (pure a : Prog σ α) s = some (b, s') ↔ b = a ∧ s' = s) ∧
    (∀ {σ} (s : σ) t s', (get : Prog σ σ) s = some (t, s') ↔ t = s ∧ s' = s) ∧
    (∀ {σ} (s t : σ) u s', (set t : Prog σ PUnit) s = some (u, s') ↔ s' = t) ∧
    (∀ {σ} f (s : σ) u s', (modify f : Prog σ PUnit) s = some (u, s') ↔ s' = f s) ∧
    ∀ {σ α} x (s : σ) (a : α) s', (ofOption x : Prog σ α) s = some (a, s') ↔ x = some a ∧ s' = s := by
  refine ⟨bind_assoc, fun _ _ => rfl, fun _ _ _ => rfl, fun _ _ _ => rfl, fun _ _ _ => rfl,
    fun x f s => ?_, fun _ _ _ => Option.bind_eq_some_iff, fun _ _ _ _ _ => bind_eq_some,
    fun _ _ _ _ => pure_eq_some, fun _ _ _ => get_eq_some, fun _ _ _ _ => set_eq_some,
    fun _ _ _ _ => modify_eq_some, fun _ _ _ _ => ofOption_eq_some⟩
  cases x <;> rfl

/-! ## Running forwards -/

lemma bind_run {s1 : σ} (h : x s = some (a, s1)) (f : α → Prog σ β) : (x >>= f) s = f a s1 := by
  change (x s).bind (fun p => f p.1 p.2) = _
  rw [h]
  rfl

lemma bind_none (h : x s = none) (f : α → Prog σ β) : (x >>= f) s = none := by
  change (x s).bind (fun p => f p.1 p.2) = _
  rw [h]
  rfl

lemma get_bind_run (s : σ) (f : σ → Prog σ β) : (get >>= f) s = f s s := bind_run rfl f

lemma bind_congr_at {y : Prog σ α} (h : x s = y s) (f : α → Prog σ β) :
    (x >>= f) s = (y >>= f) s := by
  change (x s).bind (fun p => f p.1 p.2) = (y s).bind (fun p => f p.1 p.2)
  rw [h]

/-! ## Total correctness -/

/-- `x` run from `s` does not fault. -/
def Halts (x : Prog σ α) (s : σ) : Prop := ∃ a s', x s = some (a, s')

lemma Halts.of_eq (h : x s = some (a, s')) : Halts x s := ⟨a, s', h⟩

lemma Halts.bind {s1 : σ} (hx : x s = some (a, s1)) (hf : Halts (f a) s1) : Halts (x >>= f) s := by
  obtain ⟨b, s', hb⟩ := hf
  exact ⟨b, s', (bind_run hx f).trans hb⟩

/-- `x` run from `s` does not fault: it returns `a`, in a state satisfying `Q`. -/
def Returns (x : Prog σ α) (s : σ) (a : α) (Q : σ → Prop) : Prop :=
  ∃ s', x s = some (a, s') ∧ Q s'

lemma Returns.pure (a : α) (h : Q s) : Returns (pure a : Prog σ α) s a Q := ⟨s, rfl, h⟩

lemma Returns.ofOption {x : Option α} (hx : x = some a) (h : Q s) : Returns (ofOption x) s a Q :=
  ⟨s, by simp [hx], h⟩

lemma Returns.set (h : Q s') : Returns (set s') s () Q := ⟨s', rfl, h⟩

lemma Returns.bind {P : σ → Prop} (hx : Returns x s a P)
    (hf : ∀ s1, P s1 → Returns (f a) s1 b Q) : Returns (x >>= f) s b Q := by
  obtain ⟨s1, h1, hP⟩ := hx
  obtain ⟨s2, h2, hQ⟩ := hf s1 hP
  exact ⟨s2, bind_eq_some.mpr ⟨a, s1, h1, h2⟩, hQ⟩

lemma Returns.mono {P : σ → Prop} (hx : Returns x s a P) (hPQ : ∀ s', P s' → Q s') :
    Returns x s a Q := by
  obtain ⟨s', h, hP⟩ := hx
  exact ⟨s', h, hPQ s' hP⟩

/-! ## Values -/

def Yields (x : Prog σ α) (a : α) : Prop := ∀ ⦃s : σ⦄ ⦃b : α⦄ ⦃s' : σ⦄, x s = some (b, s') → b = a

lemma Yields.pure (a : α) : Yields (pure a : Prog σ α) a := by
  intro s b s' h
  exact (pure_eq_some.mp h).1

lemma Yields.bind (hf : ∀ a, Yields (f a) b) : Yields (x >>= f) b := by
  intro s b' s' h
  obtain ⟨a, s1, -, h⟩ := bind_eq_some.mp h
  exact hf a h

/-! ## Effects -/

/-- Every successful run of `x` takes the state to one that `R` relates to it. -/
def Within (R : σ → σ → Prop) (x : Prog σ α) : Prop :=
  ∀ ⦃s : σ⦄ ⦃a : α⦄ ⦃s' : σ⦄, x s = some (a, s') → R s s'

section Within

variable {R : σ → σ → Prop}

lemma Within.mono {R' : σ → σ → Prop} (hx : Within R x) (hle : ∀ s s', R s s' → R' s s') :
    Within R' x := by
  intro s a s' h
  exact hle s s' (hx h)

lemma Within.fault : Within R (fault : Prog σ α) := by
  intro s a s' h
  rw [fault_eq_some] at h
  exact h.elim

lemma Within.modify {f : σ → σ} (h : ∀ s, R s (f s)) : Within R (modify f : Prog σ PUnit) := by
  intro s u s' hs
  rw [modify_eq_some] at hs
  rw [hs]
  exact h s

variable [IsPreorder σ R]

lemma Within.pure (a : α) : Within R (pure a : Prog σ α) := by
  intro s b s' h
  rw [pure_eq_some] at h
  rw [h.2]
  exact refl_of R s

lemma Within.get : Within R (get : Prog σ σ) := by
  intro s t s' h
  rw [get_eq_some] at h
  rw [h.2]
  exact refl_of R s

lemma Within.ofOption (x : Option α) : Within R (ofOption x : Prog σ α) := by
  intro s a s' h
  rw [ofOption_eq_some] at h
  rw [h.2]
  exact refl_of R s

/-- **The sequencing rule** for effects. -/
theorem Within.bind (hx : Within R x) (hf : ∀ a, Within R (f a)) : Within R (x >>= f) := by
  intro s b s' h
  rw [bind_eq_some] at h
  obtain ⟨a, s1, h1, h2⟩ := h
  exact trans_of R (hx h1) (hf a h2)

end Within

end Prog

end Glomop.Lib
