import HmkitWorkspace.TransitionRuns

/-! # Layers that hand events on

An outer system forwards some of its events to an inner one, translated, and answers the rest
by itself. Its runs are runs of the inner system on the events that were forwarded. -/
namespace Forwarding

open TransitionRuns

variable {σ τ ε ε' ο ο' : Type*}

/-- A forwarded event steps the inner system, any other one leaves it alone; `relayed` picks the
inner system's outputs out of those of the outer one. -/
def Forwards (outer : StepFunction σ ε ο) (inner : StepFunction τ ε' ο') (view : σ → τ)
    (forwarded : ε → Option ε') (relayed : ο → Option ο') : Prop :=
  ∀ ⦃s e u out⦄, outer s e = some (u, out) →
    match forwarded e with
    | some e' => inner (view s) e' = some (view u, out.filterMap relayed)
    | none => view u = view s ∧ out.filterMap relayed = []

variable {outer : StepFunction σ ε ο} {inner : StepFunction τ ε' ο'} {view : σ → τ}
  {forwarded : ε → Option ε'} {relayed : ο → Option ο'} {G : σ → ε → Prop} {s₀ s u : σ} {e : ε}
  {out : List ο} {tr : List (Transition σ ε ο)}

/-- The run of the inner system inside a run of the outer one. -/
theorem Forwards.execution (h : Forwards outer inner view forwarded relayed)
    (hx : Execution outer G s₀ tr s) :
    ∃ tr', Execution inner (fun _ _ => True) (view s₀) tr' (view s) ∧
      tr'.map Transition.event = (tr.map Transition.event).filterMap forwarded ∧
      outputsOf tr' = (outputsOf tr).filterMap relayed := by
  induction hx with
  | init => exact ⟨[], .init, rfl, rfl⟩
  | @tail tr s e out u _ _ hs ih =>
    obtain ⟨tr', inside, events, outputs⟩ := ih
    have stepped := h hs
    cases he : forwarded e with
    | none =>
      rw [he] at stepped
      refine ⟨tr', stepped.1 ▸ inside, ?_, ?_⟩
      · simp [events, he]
      · simp [outputs, stepped.2]
    | some e' =>
      rw [he] at stepped
      refine ⟨tr' ++ [_], inside.tail trivial stepped, ?_, ?_⟩
      · simp [events, he]
      · simp [outputs]

end Forwarding
