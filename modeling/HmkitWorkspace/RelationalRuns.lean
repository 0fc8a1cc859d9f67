import HmkitWorkspace.TransitionRuns
import Mathlib.Data.List.Forall2

/-! # Two systems in lockstep

Steps that take related states and events to related states and outputs, and fail together,
take related lists of events to related runs. -/
namespace RelationalRuns

open TransitionRuns

variable {σ σ' ε ε' ο ο' : Type*}

/-- Related results of a step: the states and, one by one, the outputs. -/
def Results (S : σ → σ' → Prop) (O : ο → ο' → Prop) (r : σ × List ο) (r' : σ' × List ο') : Prop :=
  S r.1 r'.1 ∧ List.Forall₂ O r.2 r'.2

/-- From related states, related events fail together or have related results. -/
def Lockstep (step : StepFunction σ ε ο) (step' : StepFunction σ' ε' ο') (S : σ → σ' → Prop)
    (E : ε → ε' → Prop) (O : ο → ο' → Prop) : Prop :=
  ∀ ⦃s s' e e'⦄, S s s' → E e e' → Option.Rel (Results S O) (step s e) (step' s' e')

/-- Related transitions: the events, the outputs one by one, and the states on both sides. -/
structure Transitions (S : σ → σ' → Prop) (E : ε → ε' → Prop) (O : ο → ο' → Prop)
    (t : Transition σ ε ο) (t' : Transition σ' ε' ο') : Prop where
  pre : S t.pre t'.pre
  event : E t.event t'.event
  outputs : List.Forall₂ O t.outputs t'.outputs
  post : S t.post t'.post

/-- Related runs: transition by transition, and their final states. -/
def Runs (S : σ → σ' → Prop) (E : ε → ε' → Prop) (O : ο → ο' → Prop)
    (r : List (Transition σ ε ο) × σ) (r' : List (Transition σ' ε' ο') × σ') : Prop :=
  List.Forall₂ (Transitions S E O) r.1 r'.1 ∧ S r.2 r'.2

variable {step : StepFunction σ ε ο} {step' : StepFunction σ' ε' ο'} {S : σ → σ' → Prop}
  {E : ε → ε' → Prop} {O : ο → ο' → Prop} {s : σ} {s' : σ'} {es : List ε} {es' : List ε'}

theorem Lockstep.run (h : Lockstep step step' S E O) (hs : S s s') (he : List.Forall₂ E es es') :
    Option.Rel (Runs S E O) (run step s es) (run step' s' es') := by
  induction he generalizing s s' with
  | nil => exact .some ⟨.nil, hs⟩
  | @cons e e' es es' event _ ih =>
    have first := h hs event
    simp only [TransitionRuns.run]
    generalize hx : step s e = x at first
    generalize hx' : step' s' e' = x' at first
    cases first with
    | none => exact .none
    | @some r r' results =>
      have rest := ih results.1
      dsimp only
      generalize TransitionRuns.run step r.1 es = y at rest
      generalize TransitionRuns.run step' r'.1 es' = y' at rest
      cases rest with
      | none => exact .none
      | some runs => exact .some ⟨.cons ⟨hs, event, results.2, results.1⟩ runs.1, runs.2⟩

end RelationalRuns
