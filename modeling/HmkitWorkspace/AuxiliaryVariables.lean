import HmkitWorkspace.TransitionRuns

/-! # Auxiliary variables

A record of what happened, kept beside the state and never read by the system. Runs with the
record are runs of the system. -/
namespace AuxiliaryVariables

open TransitionRuns

variable {σ γ ε ο : Type*}

structure Augmented (σ γ : Type*) where
  state : σ
  record : γ

/-- The system with a record that is updated from the state before each event, the event and
what it emitted. -/
def augment (step : StepFunction σ ε ο) (update : σ → γ → ε → List ο → γ) :
    StepFunction (Augmented σ γ) ε ο :=
  fun w e => (step w.state e).map fun r => (⟨r.1, update w.state w.record e r.2⟩, r.2)

def forget (t : Transition (Augmented σ γ) ε ο) : Transition σ ε ο :=
  ⟨t.pre.state, t.event, t.outputs, t.post.state⟩

variable {step : StepFunction σ ε ο} {update : σ → γ → ε → List ο → γ} {G : σ → ε → Prop}
  {w v : Augmented σ γ} {s₀ s : σ} {g : γ} {e : ε} {out : List ο}
  {tr : List (Transition (Augmented σ γ) ε ο)}

theorem augment_step (h : augment step update w e = some (v, out)) :
    step w.state e = some (v.state, out) ∧ v.record = update w.state w.record e out := by
  simp only [augment, Option.map_eq_some_iff, Prod.mk.injEq] at h
  obtain ⟨⟨s, calls⟩, hs, rfl, rfl⟩ := h
  exact ⟨hs, rfl⟩

theorem Execution.forget (h : Execution (augment step update) (fun w e => G w.state e) ⟨s₀, g⟩
    tr w) : Execution step G s₀ (tr.map forget) w.state := by
  induction h with
  | init => exact .init
  | tail _ hg hs ih =>
    rw [List.map_append]
    exact ih.tail hg (augment_step hs).1

end AuxiliaryVariables
