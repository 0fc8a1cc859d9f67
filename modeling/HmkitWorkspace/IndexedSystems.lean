import HmkitWorkspace.TransitionRuns

/-! # Many copies of a system

The copies share nothing and one of them takes a step at a time. Any interleaving of their
steps is, for each copy, a run of the system. -/
namespace IndexedSystems

open TransitionRuns

variable {ι σ ε ο : Type*} [DecidableEq ι]

/-- The copy that the event names takes the step. -/
def each (ι : Type*) [DecidableEq ι] (step : StepFunction σ ε ο) :
    StepFunction (ι → σ) (ι × ε) ο :=
  fun s x => (step (s x.1) x.2).map fun r => (Function.update s x.1 r.1, r.2)

/-- A transition as the copy that took it sees it. -/
def alone (t : Transition (ι → σ) (ι × ε) ο) : Transition σ ε ο :=
  ⟨t.pre t.event.1, t.event.2, t.outputs, t.post t.event.1⟩

def history (i : ι) (tr : List (Transition (ι → σ) (ι × ε) ο)) : List (Transition σ ε ο) :=
  (tr.filter fun t => t.event.1 = i).map alone

variable {step : StepFunction σ ε ο} {G : σ → ε → Prop} {s₀ s u : ι → σ} {x : ι × ε}
  {out : List ο} {tr : List (Transition (ι → σ) (ι × ε) ο)}

theorem each_step (h : each ι step s x = some (u, out)) :
    step (s x.1) x.2 = some (u x.1, out) ∧ ∀ j, j ≠ x.1 → u j = s j := by
  simp only [each, Option.map_eq_some_iff, Prod.mk.injEq] at h
  obtain ⟨⟨v, out'⟩, hs, rfl, rfl⟩ := h
  refine ⟨by simpa using hs, ?_⟩
  intro j other
  exact Function.update_of_ne other ..

theorem history_append (i : ι) (tr tr' : List (Transition (ι → σ) (ι × ε) ο)) :
    history i (tr ++ tr') = history i tr ++ history i tr' := by
  simp [history]

/-- An interleaving of guarded steps is a guarded run of each copy. -/
theorem Execution.history (h : Execution (each ι step) (fun s x => G (s x.1) x.2) s₀ tr s) (i : ι) :
    Execution step G (s₀ i) (history i tr) (s i) := by
  induction h with
  | init => exact .init
  | @tail tr s x out u _ hg hs ih =>
    obtain ⟨own, others⟩ := each_step hs
    rw [history_append]
    by_cases here : x.1 = i
    · subst here
      have last : IndexedSystems.history x.1 [(⟨s, x, out, u⟩ : Transition (ι → σ) (ι × ε) ο)] =
          [⟨s x.1, x.2, out, u x.1⟩] := by simp [IndexedSystems.history, alone]
      rw [last]
      exact ih.tail hg own
    · have nothing : IndexedSystems.history i
          [(⟨s, x, out, u⟩ : Transition (ι → σ) (ι × ε) ο)] = [] := by
        simp [IndexedSystems.history, here]
      rw [nothing, List.append_nil, others i (Ne.symm here)]
      exact ih

theorem alone_mem {t : Transition (ι → σ) (ι × ε) ο} (ht : t ∈ tr) :
    alone t ∈ history t.event.1 tr :=
  List.mem_map_of_mem (List.mem_filter.mpr ⟨ht, by simp⟩)

end IndexedSystems
