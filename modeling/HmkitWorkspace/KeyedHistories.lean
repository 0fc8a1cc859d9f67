import Mathlib.Logic.Function.Basic
import Mathlib.Data.List.Induction

/-! # Histories of stores and deletions

What a map holds after a history of changes, and the change that decides it for one key. -/
namespace KeyedHistories

variable {κ ν : Type*}

inductive Change (κ ν : Type*) where
  | store (key : κ) (value : ν)
  | delete (key : κ)

def Change.key : Change κ ν → κ
  | .store key _ => key
  | .delete key => key

def Change.value : Change κ ν → Option ν
  | .store _ value => some value
  | .delete _ => none

variable [DecidableEq κ]

/-- The map after a history, starting from the empty one. -/
def contents (changes : List (Change κ ν)) : κ → Option ν :=
  changes.foldl (fun m c => Function.update m c.key c.value) fun _ => none

/-- The last change of one key. -/
def latest (key : κ) (changes : List (Change κ ν)) : Option (Change κ ν) :=
  (changes.filter fun c => c.key = key).getLast?

variable {key : κ} {changes : List (Change κ ν)} {c : Change κ ν}

@[simp] theorem contents_nil : contents ([] : List (Change κ ν)) = fun _ => none := rfl

@[simp] theorem contents_concat (changes : List (Change κ ν)) (c : Change κ ν) :
    contents (changes ++ [c]) = Function.update (contents changes) c.key c.value := by
  simp [contents]

theorem latest_concat :
    latest key (changes ++ [c]) = if c.key = key then some c else latest key changes := by
  by_cases h : c.key = key <;> simp [latest, h]

theorem contents_eq : contents changes key = (latest key changes).bind Change.value := by
  induction changes using List.reverseRecOn with
  | nil => rfl
  | append_singleton changes c ih =>
    rw [contents_concat, latest_concat]
    by_cases h : c.key = key
    · subst key; simp
    · rw [Function.update_of_ne (Ne.symm h), if_neg h, ih]

theorem latest_key (h : latest key changes = some c) : c.key = key := by
  have hmem := List.mem_of_getLast? h
  simpa using (List.mem_filter.mp hmem).2

theorem contents_eq_some_iff {value : ν} :
    contents changes key = some value ↔ latest key changes = some (.store key value) := by
  rw [contents_eq]
  cases h : latest key changes with
  | none => simp
  | some c =>
    have hk := latest_key h
    cases c with
    | store k v => obtain rfl : k = key := hk; simp [Change.value]
    | delete k => simp [Change.value]

theorem contents_filter_key :
    contents (changes.filter fun c => c.key = key) key = contents changes key := by
  simp [contents_eq, latest]

/-- A last change that passes a filter is the last one among those that pass. -/
theorem latest_filter {p : Change κ ν → Bool} (h : latest key changes = some c) (hp : p c = true) :
    latest key (changes.filter p) = some c := by
  induction changes using List.reverseRecOn with
  | nil => cases h
  | append_singleton changes d ih =>
    rw [latest_concat] at h
    by_cases hd : d.key = key
    · obtain rfl : d = c := by simpa [hd] using h
      simp [List.filter_append, hp, latest_concat, hd]
    · rw [if_neg hd] at h
      by_cases hpd : p d = true
      · simp [List.filter_append, hpd, latest_concat, hd, ih h]
      · simp [List.filter_append, hpd, ih h]

end KeyedHistories
