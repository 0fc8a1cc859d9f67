import Mathlib.Data.List.Basic

/-! # Traces in which everything is justified by what came before

A safety property of a trace often says that an observation may only occur after certain
others. `Justified R` asks `R` of every observation and the part of the trace before it. -/
namespace JustifiedTraces

variable {α : Type*} {R : List α → α → Prop} {l before after : List α} {x y : α}

def Justified (R : List α → α → Prop) (l : List α) : Prop :=
  ∀ before x after, l = before ++ x :: after → R before x

/-- An entry of an extended trace is the new one, or stands in the trace before. -/
theorem concat_eq_split (h : l ++ [x] = before ++ y :: after) :
    (before = l ∧ y = x ∧ after = []) ∨ ∃ rest, after = rest ++ [x] ∧ l = before ++ y :: rest := by
  rcases List.eq_nil_or_concat after with rfl | ⟨rest, z, rfl⟩
  · obtain ⟨rfl, hx⟩ := List.append_inj' h rfl
    exact Or.inl ⟨rfl, (List.singleton_inj.mp hx).symm, rfl⟩
  · have hr : l ++ [x] = (before ++ y :: rest) ++ [z] := by simpa using h
    obtain ⟨rfl, hx⟩ := List.append_inj' hr rfl
    obtain rfl := List.singleton_inj.mp hx
    exact Or.inr ⟨rest, by simp, rfl⟩

theorem justified_nil : Justified R [] := by
  intro before x after h
  simp at h

theorem justified_concat : Justified R (l ++ [x]) ↔ Justified R l ∧ R l x := by
  constructor
  · intro h
    refine ⟨?_, h l x [] rfl⟩
    intro before y after hl
    exact h before y (after ++ [x]) (by simp [hl])
  · intro h before y after hl
    rcases concat_eq_split hl with ⟨rfl, rfl, _⟩ | ⟨rest, _, old⟩
    · exact h.2
    · exact h.1 before y rest old

/-- The entries of `l` in turn, each with what came before it. -/
def JustifiedAfter (R : List α → α → Prop) (before : List α) : List α → Prop
  | [] => True
  | x :: l => R before x ∧ JustifiedAfter R (before ++ [x]) l

theorem Justified.extend (h : Justified R before) (after : JustifiedAfter R before l) :
    Justified R (before ++ l) := by
  induction l generalizing before with
  | nil => rwa [List.append_nil]
  | cons x l ih =>
    have longer := ih (justified_concat.mpr ⟨h, after.1⟩) after.2
    rwa [List.append_assoc] at longer

theorem JustifiedAfter.mono (more : List α)
    (kept : ∀ {before x}, R before x → R (more ++ before) x)
    (h : JustifiedAfter R before l) : JustifiedAfter R (more ++ before) l := by
  induction l generalizing before with
  | nil => trivial
  | cons x l ih =>
    refine ⟨kept h.1, ?_⟩
    rw [List.append_assoc]
    exact ih h.2

/-- A block that is justified by itself is so after anything, if nothing is ever taken back. -/
theorem Justified.append_block (kept : ∀ {more before x}, R before x → R (more ++ before) x)
    (h : Justified R l) (block : JustifiedAfter R [] after) : Justified R (l ++ after) := by
  apply h.extend
  have later := block.mono l kept
  rwa [List.append_nil] at later

end JustifiedTraces
