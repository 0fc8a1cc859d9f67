import Mathlib.Logic.Function.Basic
import Mathlib.Data.List.FinRange

/-! # Linear search and loops over arrays of fixed length

A C array of `n` records is a function on `Fin n`; a counting loop over it visits the
indices in increasing order. -/
namespace FixedSlots

variable {n : ℕ} {α σ : Type*}

/-- The first index whose entry passes the test: a loop that returns at the first hit. -/
def findSlot (t : Fin n → α) (p : α → Bool) : Option (Fin n) :=
  (List.finRange n).find? fun i => p (t i)

variable {t : Fin n → α} {p : α → Bool} {i : Fin n}

theorem findSlot_eq_none_iff : findSlot t p = none ↔ ∀ i, p (t i) = false := by
  simp [findSlot, List.find?_eq_none]

theorem findSlot_passes (h : findSlot t p = some i) : p (t i) = true := by
  simp only [findSlot] at h
  simpa using List.find?_some h

theorem findSlot_first (h : findSlot t p = some i) (j : Fin n) (hj : j < i) :
    p (t j) = false := by
  obtain ⟨_, k, hk, hki, earlier⟩ := List.find?_eq_some_iff_getElem.mp h
  rw [List.getElem_finRange] at hki
  subst i
  have hlt : j.val < k := by simpa [Fin.lt_def] using hj
  simpa using earlier j.val hlt

theorem findSlot_isSome_iff : (findSlot t p).isSome ↔ ∃ i, p (t i) = true := by
  simp [findSlot]

theorem findSlot_of_first (hp : p (t i) = true) (earlier : ∀ j, j < i → p (t j) = false) :
    findSlot t p = some i := by
  cases h : findSlot t p with
  | none => rw [findSlot_eq_none_iff.mp h i] at hp; cases hp
  | some j =>
    rcases lt_trichotomy j i with hj | rfl | hj
    · have hpj := findSlot_passes h
      rw [earlier j hj] at hpj; cases hpj
    · rfl
    · rw [findSlot_first h i hj] at hp; cases hp

theorem findSlot_of_unique (hp : p (t i) = true)
    (unique : ∀ j, p (t j) = true → j = i) : findSlot t p = some i := by
  apply findSlot_of_first hp
  intro j hj
  by_contra hne
  exact hj.ne (unique j (by simpa using hne))

theorem findSlot_congr {β : Type*} {t' : Fin n → β} {q : β → Bool}
    (same : ∀ i, p (t i) = q (t' i)) : findSlot t p = findSlot t' q := by
  simp [findSlot, same]

/-- `for (i = 0; i < n; i++) body i`. -/
def forEach (n : ℕ) (body : Fin n → σ → σ) (s : σ) : σ :=
  (List.finRange n).foldl (fun s i => body i s) s

/-- The loop rule: `P k` is what holds before the iteration with index `k`. -/
theorem forEach_invariant (P : ℕ → σ → Prop) {body : Fin n → σ → σ} {s : σ} (start : P 0 s)
    (preserved : ∀ (i : Fin n) s, P i s → P (i + 1) (body i s)) : P n (forEach n body s) := by
  induction n with
  | zero => simpa [forEach] using start
  | succ n ih =>
    have earlier : P n (forEach n (fun i => body i.castSucc) s) :=
      ih fun i s h => preserved i.castSucc s h
    have last := preserved (Fin.last n) _ earlier
    simpa [forEach, List.finRange_succ_last, List.foldl_map] using last

/-- A loop whose iteration `i` rewrites entry `i` alone computes the array of the rewritten
entries, when `result i` is what iteration `i` writes once the earlier ones have run. -/
theorem forEach_pointwise (result : Fin n → α) {body : Fin n → (Fin n → α) → Fin n → α}
    (iteration : ∀ i, body i (fun j => if j < i then result j else t j) =
      fun j => if j ≤ i then result j else t j) :
    forEach n body t = result := by
  have loop : forEach n body t = fun j => if j.val < n then result j else t j := by
    refine forEach_invariant (fun k s => s = fun j => if j.val < k then result j else t j)
      (by simp) ?_
    rintro i _ rfl
    have h := iteration i
    simp only [Fin.lt_def, Fin.le_def] at h
    simpa only [Nat.lt_succ_iff] using h
  simpa using loop

end FixedSlots
