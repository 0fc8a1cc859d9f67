import HmkitWorkspace.TransitionRuns
import HmkitWorkspace.HmkitCoreCryptoHal

/-! # Nonces over a run

Seeding with the clock before every nonce makes the nonce a function of the second in which it
is asked for. -/
namespace NonceReuse

open TransitionRuns ByteBuffers SeededGenerators HmkitCoreCryptoHal

/-- The hidden state of the generator, and the second of the last call. -/
structure World (G : Type*) where
  generator : G
  clock : ℕ

variable {G : Type*}

/-- A call at a clock value. -/
def step (r : Generator G) : StepFunction (World G) ℕ Nonce := fun w time =>
  let n := generateNonce r w.generator time
  some (⟨n.generator, time⟩, [n.nonce])

def NonDecreasing (w : World G) (time : ℕ) : Prop := w.clock ≤ time

/-- The seeds of a run: clock values modulo `2 ^ 32`. -/
def seeds (tr : List (Transition (World G) ℕ Nonce)) : List UInt32 :=
  tr.map fun t => UInt32.ofNat t.event

variable {r : Generator G} {w₀ w u : World G} {time : ℕ} {out : List Nonce}
  {tr : List (Transition (World G) ℕ Nonce)}

theorem step_nonce (hs : step r w time = some (u, out)) :
    out.map Buffer.bytes = [r.first 9 (UInt32.ofNat time)] ∧ u.clock = time := by
  obtain ⟨rfl, rfl⟩ := total_step hs
  exact ⟨rfl, rfl⟩

/-- The nonces of a run are what its seeds make of a fresh generator. -/
theorem nonces_eq (h : Execution (step r) NonDecreasing w₀ tr w) :
    (outputsOf tr).map Buffer.bytes = (seeds tr).map (r.first 9) := by
  induction h with
  | init => rfl
  | tail _ _ hs ih =>
    rw [outputsOf_append, List.map_append, ih, outputsOf_singleton, (step_nonce hs).1]
    simp [seeds]

/-- The calls of a run come in order, between its first and its last clock value. -/
structure InOrder (start finish : ℕ) (tr : List (Transition (World G) ℕ Nonce)) : Prop where
  started : start ≤ finish
  sorted : tr.Pairwise fun t t' => t.event ≤ t'.event
  bounds : ∀ t ∈ tr, start ≤ t.event ∧ t.event ≤ finish

theorem inOrder_run (h : Execution (step r) NonDecreasing w₀ tr w) :
    InOrder w₀.clock w.clock tr := by
  induction h with
  | init => exact ⟨le_rfl, .nil, by simp⟩
  | @tail tr s e out u _ later hs ih =>
    have clock := (step_nonce hs).2
    have ordered : s.clock ≤ e := later
    have started := ih.started
    refine ⟨by omega, ?_, ?_⟩
    · rw [List.pairwise_append]
      refine ⟨ih.sorted, List.pairwise_singleton _ _, ?_⟩
      intro t ht t' ht'
      rw [List.mem_singleton] at ht'
      subst t'
      exact (ih.bounds t ht).2.trans ordered
    · intro t ht
      rcases List.mem_append.mp ht with ht | ht
      · have := ih.bounds t ht
        omega
      · rw [List.mem_singleton] at ht
        subst t
        constructor <;> simp only <;> omega

theorem seeds_nodup_iff :
    (seeds tr).Nodup ↔ tr.Pairwise fun t t' => t.event % 2 ^ 32 ≠ t'.event % 2 ^ 32 := by
  rw [seeds, List.nodup_iff_pairwise_ne, List.pairwise_map]
  apply List.Pairwise.iff
  intro t t'
  rw [Ne, Ne, ← UInt32.toNat_inj, UInt32.toNat_ofNat', UInt32.toNat_ofNat']

theorem nonces_nodup_iff (separating : r.Separating 9)
    (h : Execution (step r) NonDecreasing w₀ tr w) :
    (outputsOf tr).Nodup ↔
      tr.Pairwise fun t t' => t.event % 2 ^ 32 ≠ t'.event % 2 ^ 32 := by
  have injective : Function.Injective (Buffer.bytes : Nonce → List UInt8) := fun _ _ => Buffer.ext
  rw [← List.nodup_map_iff injective, nonces_eq h, separating.nodup_iff, seeds_nodup_iff]

/-- In less than `2 ^ 32` seconds the clock has another value modulo `2 ^ 32` in each. -/
theorem seconds_iff {start finish : ℕ} (order : InOrder start finish tr)
    (span : finish < start + 2 ^ 32) :
    (tr.Pairwise fun t t' => t.event % 2 ^ 32 ≠ t'.event % 2 ^ 32) ↔
      tr.Pairwise fun t t' => t.event < t'.event := by
  constructor
  · intro differ
    apply (order.sorted.and differ).imp
    intro t t' both
    apply lt_of_le_of_ne both.1
    intro same
    exact both.2 (congrArg (· % 2 ^ 32) same)
  · intro increasing
    apply increasing.imp_of_mem
    intro t t' ht ht' later
    have := order.bounds t ht
    have := order.bounds t' ht'
    omega

/-- No nonce of a run repeats exactly when no two of its calls come at clock values that are
equal modulo `2 ^ 32`: over less than 136 years, when no two come in one second. -/
theorem nonces_unrepeated (separating : r.Separating 9)
    (h : Execution (step r) NonDecreasing w₀ tr w) :
    ((outputsOf tr).Nodup ↔
      tr.Pairwise fun t t' => t.event % 2 ^ 32 ≠ t'.event % 2 ^ 32) ∧
    (w.clock < w₀.clock + 2 ^ 32 →
      ((outputsOf tr).Nodup ↔ tr.Pairwise fun t t' => t.event < t'.event)) := by
  refine ⟨nonces_nodup_iff separating h, ?_⟩
  intro span
  rw [nonces_nodup_iff separating h, seconds_iff (inOrder_run h) span]

theorem nonces_of_two_seconds :
    ∃ tr w, run (step counter) ⟨(0, 0), 100⟩ [100, 101] = some (tr, w) ∧ (outputsOf tr).Nodup := by
  refine ⟨_, _, rfl, ((nonces_unrepeated counter_separating (execution_of_run [100, 101] rfl
    ?_)).1).mpr (by decide)⟩
  rintro t (_ | ⟨_, _ | ⟨_, ⟨⟩⟩⟩)
  · exact (by decide : 100 ≤ 100)
  · exact (by decide : 100 ≤ 101)

/-- Two calls in one second, of a generator that would not have repeated itself. -/
theorem nonce_repeated_in_one_second :
    counter.Separating 9 ∧ (∀ n ≤ 2 ^ 40, counter.Unrepeated 9 n) ∧
    ∃ tr w, Execution (step counter) NonDecreasing ⟨(0, 0), 100⟩ tr w ∧ tr.length = 2 ∧
      ¬ (outputsOf tr).Nodup := by
  refine ⟨counter_separating, fun n hn => counter_unrepeated hn, _, _,
    execution_of_run [100, 100] rfl ?_, rfl, by decide⟩
  rintro t (_ | ⟨_, _ | ⟨_, ⟨⟩⟩⟩)
  · exact (by decide : 100 ≤ 100)
  · exact (by decide : 100 ≤ 100)

end NonceReuse
