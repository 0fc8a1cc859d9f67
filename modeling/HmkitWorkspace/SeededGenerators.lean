import Mathlib.Data.List.Nodup
import Mathlib.Data.UInt

/-! # Seeded generators

A seed sets the whole state, and each draw advances it. Blocks of drawn bytes are compared with
and without seeding in between. -/
namespace SeededGenerators

structure Generator (G : Type*) where
  seed : UInt32 → G
  draw : G → G × ℕ

variable {G : Type*} {r : Generator G} {size : ℕ}

/-- The low bytes of `n` draws and the state after them. -/
def Generator.bytes (r : Generator G) : ℕ → G → List UInt8 × G
  | 0, g => ([], g)
  | n + 1, g =>
    let d := r.draw g
    let rest := r.bytes n d.1
    (UInt8.ofNat d.2 :: rest.1, rest.2)

/-- Blocks drawn one after the other, with no seed in between. -/
def Generator.blocks (r : Generator G) (size : ℕ) : ℕ → G → List (List UInt8)
  | 0, _ => []
  | n + 1, g => (r.bytes size g).1 :: r.blocks size n (r.bytes size g).2

/-- What a seed makes of the first block. -/
def Generator.first (r : Generator G) (size : ℕ) (s : UInt32) : List UInt8 :=
  (r.bytes size (r.seed s)).1

/-- One seed gives `n` blocks without a repetition. -/
def Generator.Unrepeated (r : Generator G) (size n : ℕ) : Prop :=
  ∀ s, (r.blocks size n (r.seed s)).Nodup

/-- Distinct seeds give distinct first blocks. -/
def Generator.Separating (r : Generator G) (size : ℕ) : Prop :=
  Function.Injective (r.first size)

theorem Generator.length_bytes (r : Generator G) (n : ℕ) (g : G) :
    (r.bytes n g).1.length = n := by
  induction n generalizing g with
  | zero => rfl
  | succ n ih => rw [Generator.bytes, List.length_cons, ih]

/-- Seeding before every block repeats a block exactly when it repeats a seed. -/
theorem Generator.Separating.nodup_iff (separating : r.Separating size) (seeds : List UInt32) :
    (seeds.map (r.first size)).Nodup ↔ seeds.Nodup :=
  List.nodup_map_iff separating

/-! ## An instance -/

/-- The nine bytes of a number, lowest first. -/
def littleEndian (v : ℕ) : List UInt8 :=
  (List.range 9).map fun k => UInt8.ofNat (v / 256 ^ k)

/-- Draws the bytes of a number that starts at the seed and grows by `2 ^ 32` with each block. -/
def counter : Generator (ℕ × ℕ) where
  seed s := (s.toNat, 0)
  draw g :=
    if g.2 = 8 then ((g.1 + 2 ^ 32, 0), g.1 / 256 ^ 8) else ((g.1, g.2 + 1), g.1 / 256 ^ g.2)

theorem counter_bytes (v : ℕ) : counter.bytes 9 (v, 0) = (littleEndian v, v + 2 ^ 32, 0) := by
  simp [Generator.bytes, counter, littleEndian, List.range_succ]

/-- Numbers with the same low bytes agree as far as these go. -/
theorem mod_pow_congr {v w n : ℕ} (h : ∀ k < n, v / 256 ^ k % 256 = w / 256 ^ k % 256) :
    v % 256 ^ n = w % 256 ^ n := by
  induction n with
  | zero => simp [Nat.mod_one]
  | succ n ih =>
    have low := ih fun k hk => h k (by omega)
    rw [Nat.mod_pow_succ, Nat.mod_pow_succ, low, h n (by omega)]

theorem littleEndian_inj {v w : ℕ} (hv : v < 256 ^ 9) (hw : w < 256 ^ 9)
    (h : littleEndian v = littleEndian w) : v = w := by
  have low : v % 256 ^ 9 = w % 256 ^ 9 := by
    apply mod_pow_congr
    intro k hk
    have same := congrArg (fun l => l[k]?) h
    simpa [littleEndian, hk, ← UInt8.toNat_inj] using same
  rwa [Nat.mod_eq_of_lt hv, Nat.mod_eq_of_lt hw] at low

theorem counter_first (s : UInt32) : counter.first 9 s = littleEndian s.toNat := by
  have seeded : counter.seed s = (s.toNat, 0) := rfl
  rw [Generator.first, seeded, counter_bytes]

theorem counter_separating : counter.Separating 9 := by
  intro s s' h
  rw [counter_first, counter_first] at h
  have small := s.toNat_lt
  have small' := s'.toNat_lt
  apply UInt32.toNat_inj.mp
  exact littleEndian_inj (by omega) (by omega) h

theorem counter_blocks (n v : ℕ) :
    counter.blocks 9 n (v, 0) = (List.range n).map fun i => littleEndian (v + i * 2 ^ 32) := by
  induction n generalizing v with
  | zero => rfl
  | succ n ih =>
    rw [Generator.blocks, counter_bytes, ih, List.range_succ_eq_map, List.map_cons, List.map_map,
      Nat.zero_mul, Nat.add_zero]
    congr 2
    funext i
    apply congrArg littleEndian
    omega

theorem counter_unrepeated {n : ℕ} (hn : n ≤ 2 ^ 40) : counter.Unrepeated 9 n := by
  intro s
  have small := s.toNat_lt
  have seeded : counter.seed s = (s.toNat, 0) := rfl
  rw [seeded, counter_blocks]
  apply List.Nodup.map_on _ List.nodup_range
  intro i hi j hj same
  rw [List.mem_range] at hi hj
  have := littleEndian_inj (by omega) (by omega) same
  omega

end SeededGenerators
