import Mathlib.Data.Finset.Image
import Mathlib.Data.Finset.Card
import Mathlib.Data.Fintype.Card
import Mathlib.Data.Fintype.Basic

/-! # Tables of keys as bounded sets

A fixed number of slots holds keys; a distinguished key marks a vacant slot and every other
key has at most one slot. The table then is a set of at most as many keys as it has slots. -/
namespace KeyedSlots

variable {n : ℕ} {κ : Type*} [DecidableEq κ] {t : Fin n → κ} {v k : κ} {i : Fin n}

/-- The keys that hold a slot. -/
def keys (t : Fin n → κ) (v : κ) : Finset κ := (Finset.univ.image t).erase v

def Distinct (t : Fin n → κ) (v : κ) : Prop := ∀ i j, t i = t j → t i ≠ v → i = j

theorem mem_keys : k ∈ keys t v ↔ k ≠ v ∧ ∃ i, t i = k := by
  simp [keys]

/-- Each key counts for the one slot it holds. -/
theorem card_keys (distinct : Distinct t v) :
    (keys t v).card = (Finset.univ.filter fun i => t i ≠ v).card := by
  have image : keys t v = (Finset.univ.filter fun i => t i ≠ v).image t := by
    ext k
    simp only [mem_keys, Finset.mem_image, Finset.mem_filter, Finset.mem_univ, true_and]
    constructor
    · rintro ⟨hk, i, rfl⟩
      exact ⟨i, hk, rfl⟩
    · rintro ⟨i, hi, rfl⟩
      exact ⟨hi, i, rfl⟩
  rw [image]
  apply Finset.card_image_of_injOn
  intro i hi j _ same
  have occupied : t i ≠ v := by simpa using hi
  exact distinct i j same occupied

theorem card_keys_le (distinct : Distinct t v) : (keys t v).card ≤ n := by
  rw [card_keys distinct]
  simpa using Finset.card_filter_le (Finset.univ : Finset (Fin n)) fun i => t i ≠ v

/-- There is a vacant slot exactly when the set has not reached the bound. -/
theorem card_keys_lt_iff (distinct : Distinct t v) : (keys t v).card < n ↔ ∃ i, t i = v := by
  rw [card_keys distinct]
  constructor
  · intro fewer
    by_contra full
    have all : (Finset.univ.filter fun i => t i ≠ v) = Finset.univ := by
      apply Finset.filter_true_of_mem
      intro i _ hi
      exact full ⟨i, hi⟩
    rw [all, Finset.card_univ, Fintype.card_fin] at fewer
    omega
  · rintro ⟨i, hi⟩
    have strict : (Finset.univ.filter fun i => t i ≠ v) ⊂ Finset.univ := by
      apply Finset.filter_ssubset.mpr
      exact ⟨i, Finset.mem_univ i, by simpa using hi⟩
    simpa using Finset.card_lt_card strict

/-- Claiming a vacant slot inserts the key. -/
theorem keys_claim (vacant : t i = v) (hk : k ≠ v) :
    keys (Function.update t i k) v = insert k (keys t v) := by
  ext x
  rw [Finset.mem_insert, mem_keys, mem_keys]
  constructor
  · rintro ⟨hx, j, rfl⟩
    by_cases hj : j = i
    · subst j
      exact Or.inl (by simp)
    · rw [Function.update_of_ne hj] at hx ⊢
      exact Or.inr ⟨hx, j, rfl⟩
  · rintro (rfl | ⟨hx, j, rfl⟩)
    · exact ⟨hk, i, by simp⟩
    · have hj : j ≠ i := fun he => hx (he ▸ vacant)
      exact ⟨hx, j, Function.update_of_ne hj _ _⟩

/-- Vacating the slot of a key, and of that key only, removes it. -/
theorem keys_release {t' : Fin n → κ}
    (released : ∀ j, t' j = if t j = k then v else t j) : keys t' v = (keys t v).erase k := by
  ext x
  rw [Finset.mem_erase, mem_keys, mem_keys]
  constructor
  · rintro ⟨hx, j, rfl⟩
    by_cases hj : t j = k
    · rw [released, if_pos hj] at hx
      exact absurd rfl hx
    · rw [released, if_neg hj] at hx ⊢
      exact ⟨hj, hx, j, rfl⟩
  · rintro ⟨hxk, hx, j, rfl⟩
    exact ⟨hx, j, by rw [released, if_neg hxk]⟩

end KeyedSlots
