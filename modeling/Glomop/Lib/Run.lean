import Mathlib

/-!
# Runs of a transition relation

`Run step s es s'`: the machine goes from `s` to `s'` by the events `es`, in order.  Every prefix of
a run is a run, so a statement about the end of every run is one about every state reached.
`Guarded ok step` has the runs each of whose steps meets `ok` on the state before it.
-/

namespace Glomop.Lib

variable {σ ε : Type}

/-- The machine goes from one state to another by a list of events. -/
inductive Run (step : σ → ε → σ → Prop) : σ → List ε → σ → Prop
  | nil (s : σ) : Run step s [] s
  | cons {s s₁ s' : σ} {e : ε} {es : List ε} :
      step s e s₁ → Run step s₁ es s' → Run step s (e :: es) s'

/-- The steps that meet a condition on the state before them and the event. -/
def Guarded (ok : σ → ε → Prop) (step : σ → ε → σ → Prop) (s : σ) (e : ε) (s' : σ) : Prop :=
  ok s e ∧ step s e s'

namespace Run

variable {step : σ → ε → σ → Prop} {s s' : σ} {es : List ε}

/-- **The invariant rule for runs**: what holds at the start and is kept by every step holds at
the end. -/
theorem invariant {I : σ → Prop} (hst : ∀ s e s', I s → step s e s' → I s')
    (h : Run step s es s') (hs : I s) : I s' := by
  induction h with
  | nil s => exact hs
  | cons h1 _ ih => exact ih (hst _ _ _ hs h1)

/-- The invariant rule with a record of the events: what holds of the record and the state at the
start, and is kept when a step and its event are taken together, holds at the end. -/
lemma fold {ρ : Type} {record : ρ → ε → ρ} {I : ρ → σ → Prop} {r : ρ}
    (hst : ∀ r s e s', I r s → step s e s' → I (record r e) s')
    (h : Run step s es s') (hs : I r s) : I (es.foldl record r) s' := by
  induction h generalizing r with
  | nil s => exact hs
  | cons h1 _ ih => exact ih (hst _ _ _ _ hs h1)

lemma append {es' : List ε} {s'' : σ} (h : Run step s es s') (h' : Run step s' es' s'') :
    Run step s (es ++ es') s'' := by
  induction h with
  | nil s => exact h'
  | cons h1 _ ih => exact .cons h1 (ih h')

lemma mono {step' : σ → ε → σ → Prop} (hle : ∀ s e s', step s e s' → step' s e s')
    (h : Run step s es s') : Run step' s es s' := by
  induction h with
  | nil s => exact .nil s
  | cons h1 _ ih => exact .cons (hle _ _ _ h1) ih

end Run

/-! ## Computing runs

Where the next state is computed, so is a run on given events. -/

section Replay

variable (ok : σ → ε → Prop) [∀ s e, Decidable (ok s e)] (next : σ → ε → Option σ)

/-- The state after some events; `none` if one is not possible or does not meet the condition. -/
def replay : σ → List ε → Option σ
  | s, [] => some s
  | s, e :: es => if ok s e then (next s e).bind fun s' => replay s' es else none

variable {ok next}

lemma run_of_replay {s s' : σ} {es : List ε} (h : replay ok next s es = some s') :
    Run (Guarded ok fun s e s' => next s e = some s') s es s' := by
  induction es generalizing s with
  | nil =>
    obtain rfl := Option.some.inj h
    exact .nil s
  | cons e es ih =>
    unfold replay at h
    split_ifs at h with hok
    obtain ⟨s1, hn, h⟩ := Option.bind_eq_some_iff.mp h
    exact .cons ⟨hok, hn⟩ (ih h)

/-- A computed run whose end meets a condition that can be decided. -/
lemma exists_guarded_of_decide {s : σ} {es : List ε} {p : σ → Prop} [DecidablePred p]
    (h : (replay ok next s es).any (fun s => decide (p s)) = true) :
    ∃ s', Run (Guarded ok fun s e s' => next s e = some s') s es s' ∧ p s' := by
  obtain ⟨s', hr, hp⟩ := (Option.any_eq_true _ _).mp h
  exact ⟨s', run_of_replay hr, of_decide_eq_true hp⟩

lemma exists_run_of_decide {s : σ} {es : List ε} {p : σ → Prop} [DecidablePred p]
    (h : (replay (fun _ _ => True) next s es).any (fun s => decide (p s)) = true) :
    ∃ s', Run (fun s e s' => next s e = some s') s es s' ∧ p s' := by
  obtain ⟨s', hrun, hp⟩ := exists_guarded_of_decide h
  exact ⟨s', hrun.mono fun _ _ _ h => h.2, hp⟩

end Replay

end Glomop.Lib
