import HmkitWorkspace.TransitionRuns

/-! # Views that determine behaviour

A view of the states determines a system when what a step emits, and the view after it, depend
on the view before it alone. The system then runs as the one on views does. -/
namespace StateViews

open TransitionRuns

variable {σ τ ε ο : Type*}

def Determines (view : σ → τ) (step : StepFunction σ ε ο) (viewStep : StepFunction τ ε ο) :
    Prop :=
  ∀ s e, (step s e).map (fun r => (view r.1, r.2)) = viewStep (view s) e

/-- What a system answers to the events of a list, one by one. -/
def answers (step : StepFunction σ ε ο) (s : σ) (es : List ε) : Option (List (List ο)) :=
  (run step s es).map fun r => r.1.map Transition.outputs

variable {view : σ → τ} {step : StepFunction σ ε ο} {viewStep : StepFunction τ ε ο} {s s' u : σ}
  {e : ε} {out : List ο}

theorem answers_cons (step : StepFunction σ ε ο) (s : σ) (e : ε) (es : List ε) :
    answers step s (e :: es) =
      (step s e).bind fun r => (answers step r.1 es).map fun tail => r.2 :: tail := by
  cases hs : step s e with
  | none => simp [answers, run, hs]
  | some r =>
    obtain ⟨u, out⟩ := r
    cases hr : run step u es with
    | none => simp [answers, run, hs, hr]
    | some tail => simp [answers, run, hs, hr]

theorem Determines.emits (h : Determines view step viewStep) (hs : step s e = some (u, out)) :
    viewStep (view s) e = some (view u, out) := by
  rw [← h s e, hs]
  rfl

theorem Determines.answers_eq (h : Determines view step viewStep) (s : σ) (es : List ε) :
    answers step s es = answers viewStep (view s) es := by
  induction es generalizing s with
  | nil => rfl
  | cons e es ih =>
    rw [answers_cons, answers_cons, ← h s e]
    cases step s e with
    | none => rfl
    | some r => simp [ih]

/-- States that look the same answer the same for ever. -/
theorem Determines.congr (h : Determines view step viewStep) (same : view s = view s')
    (es : List ε) : answers step s es = answers step s' es := by
  rw [h.answers_eq, h.answers_eq, same]

end StateViews
