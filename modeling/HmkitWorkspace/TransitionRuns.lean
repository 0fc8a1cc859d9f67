import Mathlib.Logic.Function.Basic
import Mathlib.Data.Int.Notation

/-! # Runs of partial deterministic systems

A step consumes one event and either fails (undefined behaviour) or yields a new
state and the outputs emitted on the way. Executions keep every transition, so that
a property of a whole history is a property of the list of its transitions. -/
namespace TransitionRuns

variable {σ ε ο : Type*}

abbrev StepFunction (σ ε ο : Type*) := σ → ε → Option (σ × List ο)

structure Transition (σ ε ο : Type*) where
  pre : σ
  event : ε
  outputs : List ο
  post : σ

/-- Executions in which every event offered to the system satisfies the guard `G`. -/
inductive Execution (step : StepFunction σ ε ο) (G : σ → ε → Prop) (s₀ : σ) :
    List (Transition σ ε ο) → σ → Prop where
  | init : Execution step G s₀ [] s₀
  | tail {tr s e out u} : Execution step G s₀ tr s → G s e → step s e = some (u, out) →
      Execution step G s₀ (tr ++ [⟨s, e, out, u⟩]) u

theorem total_step {r : σ × List ο} {u : σ} {out : List ο} (h : some r = some (u, out)) :
    r.1 = u ∧ r.2 = out := by
  cases h
  exact ⟨rfl, rfl⟩

variable {step : StepFunction σ ε ο} {G H : σ → ε → Prop} {s₀ s u : σ}
  {tr : List (Transition σ ε ο)}

theorem Execution.invariant (I : σ → Prop) (h₀ : I s₀)
    (preserved : ∀ {s e out u}, I s → G s e → step s e = some (u, out) → I u)
    (h : Execution step G s₀ tr s) : I s := by
  induction h with
  | init => exact h₀
  | tail _ hg hs ih => exact preserved ih hg hs

/-- The invariant rule for properties relating the state to the history that led to it. -/
theorem Execution.history_invariant (I : List (Transition σ ε ο) → σ → Prop) (h₀ : I [] s₀)
    (preserved : ∀ {tr s e out u}, I tr s → G s e → step s e = some (u, out) →
      I (tr ++ [⟨s, e, out, u⟩]) u)
    (h : Execution step G s₀ tr s) : I tr s := by
  induction h with
  | init => exact h₀
  | tail _ hg hs ih => exact preserved ih hg hs

/-- Every transition of an execution starts at a state reached by an earlier part of it. -/
theorem Execution.transition (h : Execution step G s₀ tr s) {t : Transition σ ε ο}
    (ht : t ∈ tr) :
    ∃ earlier, Execution step G s₀ earlier t.pre ∧ G t.pre t.event ∧
      step t.pre t.event = some (t.post, t.outputs) := by
  induction h with
  | init => cases ht
  | tail hx hg hs ih =>
    rcases List.mem_append.mp ht with ht | ht
    · exact ih ht
    · rw [List.mem_singleton] at ht
      subst t
      exact ⟨_, hx, hg, hs⟩

theorem Execution.last (P : σ → Prop) (h₀ : P s₀) (h : Execution step G s₀ tr s)
    (posts : ∀ t ∈ tr, P t.post) : P s := by
  cases h with
  | init => exact h₀
  | tail _ _ _ => exact posts _ (List.mem_append_right _ (List.mem_singleton_self _))

/-- A history is good exactly when every step of it met the condition that keeps it good. -/
theorem Execution.history_iff (I : List (Transition σ ε ο) → σ → Prop)
    (Q : Transition σ ε ο → Prop)
    (exact_step : ∀ {tr s e out u}, Execution step G s₀ tr s → G s e →
      step s e = some (u, out) → (I (tr ++ [⟨s, e, out, u⟩]) u ↔ I tr s ∧ Q ⟨s, e, out, u⟩))
    (h : Execution step G s₀ tr s) : I tr s ↔ I [] s₀ ∧ ∀ t ∈ tr, Q t := by
  induction h with
  | init => simp
  | tail hx hg hs ih =>
    rw [exact_step hx hg hs, ih, List.forall_mem_append, and_assoc]
    simp

theorem Execution.state_iff (I : σ → Prop) (Q : Transition σ ε ο → Prop)
    (exact_step : ∀ {tr s e out u}, Execution step G s₀ tr s → G s e →
      step s e = some (u, out) → (I u ↔ I s ∧ Q ⟨s, e, out, u⟩))
    (h : Execution step G s₀ tr s) : I s ↔ I s₀ ∧ ∀ t ∈ tr, Q t :=
  h.history_iff (fun _ s => I s) Q exact_step

/-- Two properties of steps that agree in good states hold of the same runs, when the first
one leads from good states to good states. -/
theorem Execution.forall_iff (I : σ → Prop) (h₀ : I s₀) {P Q : Transition σ ε ο → Prop}
    (kept : ∀ t, P t → I t.post)
    (exact_step : ∀ {tr s e out u}, Execution step G s₀ tr s → I s → G s e →
      step s e = some (u, out) → (P ⟨s, e, out, u⟩ ↔ Q ⟨s, e, out, u⟩))
    (h : Execution step G s₀ tr s) : (∀ t ∈ tr, P t) ↔ ∀ t ∈ tr, Q t := by
  induction h with
  | init => simp
  | tail hx hg hs ih =>
    rw [List.forall_mem_append, List.forall_mem_append, ih]
    apply and_congr_right
    intro earlier
    have good := hx.last I h₀ fun t ht => kept t (ih.mpr earlier t ht)
    simpa using exact_step hx good hg hs

theorem Execution.mono (weaker : ∀ s e, G s e → H s e)
    (h : Execution step G s₀ tr s) : Execution step H s₀ tr s := by
  induction h with
  | init => exact .init
  | tail _ hg hs ih => exact .tail ih (weaker _ _ hg) hs

/-- A condition met by every transition may be added to the guard. -/
theorem Execution.restrict (h : Execution step G s₀ tr s)
    (met : ∀ t ∈ tr, H t.pre t.event) :
    Execution step (fun s e => G s e ∧ H s e) s₀ tr s := by
  induction h with
  | init => exact .init
  | tail _ hg hs ih =>
    exact .tail (ih fun t ht => met t (List.mem_append_left _ ht))
      ⟨hg, met _ (List.mem_append_right _ (List.mem_singleton_self _))⟩ hs

theorem Execution.append {tr' : List (Transition σ ε ο)} (h : Execution step G s₀ tr s)
    (h' : Execution step G s tr' u) : Execution step G s₀ (tr ++ tr') u := by
  induction h' with
  | init => simpa using h
  | tail _ hg hs ih => simpa [List.append_assoc] using ih.tail hg hs

/-- Replays a list of events, keeping the transitions. -/
def run (step : StepFunction σ ε ο) (s : σ) : List ε → Option (List (Transition σ ε ο) × σ)
  | [] => some ([], s)
  | e :: es =>
    match step s e with
    | none => none
    | some (u, out) => (run step u es).map fun r => (⟨s, e, out, u⟩ :: r.1, r.2)

/-- A successful replay is an execution of the events it was given. -/
theorem execution_of_run (es : List ε) (h : run step s es = some (tr, u))
    (met : ∀ t ∈ tr, G t.pre t.event) : Execution step G s tr u := by
  induction es generalizing s tr with
  | nil =>
    obtain ⟨rfl, rfl⟩ : [] = tr ∧ s = u := by simpa [run] using h
    exact .init
  | cons e es ih =>
    cases hs : step s e with
    | none => simp [run, hs] at h
    | some r =>
      obtain ⟨v, out⟩ := r
      simp only [run, hs, Option.map_eq_some_iff, Prod.mk.injEq] at h
      obtain ⟨⟨tl, w⟩, hr, rfl, rfl⟩ := h
      have first : Execution step G s ([] ++ [⟨s, e, out, v⟩]) v :=
        .tail .init (met ⟨s, e, out, v⟩ (List.mem_cons_self ..)) hs
      have rest := ih hr fun t ht => met t (List.mem_cons_of_mem _ ht)
      exact first.append rest

/-- The outputs of a history, in the order in which they were emitted. -/
def outputsOf (tr : List (Transition σ ε ο)) : List ο := tr.flatMap Transition.outputs

@[simp] theorem outputsOf_nil : outputsOf ([] : List (Transition σ ε ο)) = [] := rfl

@[simp] theorem outputsOf_append (tr tr' : List (Transition σ ε ο)) :
    outputsOf (tr ++ tr') = outputsOf tr ++ outputsOf tr' := List.flatMap_append

@[simp] theorem outputsOf_singleton (t : Transition σ ε ο) : outputsOf [t] = t.outputs := by
  simp [outputsOf]

/-- What outputs add to a counter. -/
def balance (delta : ο → ℤ) : List ο → ℤ
  | [] => 0
  | x :: out => delta x + balance delta out

@[simp] theorem balance_nil (delta : ο → ℤ) : balance delta [] = 0 := rfl

@[simp] theorem balance_cons (delta : ο → ℤ) (x : ο) (out : List ο) :
    balance delta (x :: out) = delta x + balance delta out := rfl

@[simp] theorem balance_append (delta : ο → ℤ) (out out' : List ο) :
    balance delta (out ++ out') = balance delta out + balance delta out' := by
  induction out with
  | nil => simp
  | cons x out ih =>
    rw [List.cons_append, balance_cons, balance_cons, ih]
    omega

end TransitionRuns
