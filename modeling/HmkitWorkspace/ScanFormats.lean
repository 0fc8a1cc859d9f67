import Mathlib.Algebra.Order.Ring.Nat
import Mathlib.Data.List.Basic
import Mathlib.Data.UInt
import Mathlib.Tactic.Ring

/-! # Reading formatted input

The conversions `%x` and `%s` of `scanf` with a width, on a list of bytes, and the comparison of
the strings they leave in zero-filled arrays. -/
namespace ScanFormats

def isSpace (b : UInt8) : Bool := b = 32 || (9 ≤ b.toNat && b.toNat ≤ 13)

def hexDigit (b : UInt8) : Option ℕ :=
  if 48 ≤ b.toNat ∧ b.toNat ≤ 57 then some (b.toNat - 48)
  else if 65 ≤ b.toNat ∧ b.toNat ≤ 70 then some (b.toNat - 55)
  else if 97 ≤ b.toNat ∧ b.toNat ≤ 102 then some (b.toNat - 87)
  else none

/-! ## Numbers -/

/-- At most `width` more digits. -/
def scanDigits : ℕ → ℕ → List UInt8 → ℕ × List UInt8
  | width + 1, value, b :: rest =>
    match hexDigit b with
    | some d => scanDigits width (16 * value + d) rest
    | none => (value, b :: rest)
  | _, value, input => (value, input)

def scanUnsigned : ℕ → List UInt8 → Option (ℕ × List UInt8)
  | width + 1, b :: rest => (hexDigit b).map fun d => scanDigits width d rest
  | _, _ => none

/-- The digits may stand behind `0x`, which counts. -/
def scanPrefixed : ℕ → List UInt8 → Option (ℕ × List UInt8)
  | width + 2, b :: x :: rest =>
    if b = 48 ∧ (x = 120 ∨ x = 88) then scanUnsigned width rest
    else scanUnsigned (width + 2) (b :: x :: rest)
  | width, input => scanUnsigned width input

/-- `%x` after the spaces, with its sign. -/
def scanHex (width : ℕ) (input : List UInt8) : Option (ℤ × List UInt8) :=
  match input.dropWhile isSpace with
  | [] => none
  | b :: rest =>
    if b = 43 then (scanPrefixed (width - 1) rest).map fun r => ((r.1 : ℤ), r.2)
    else if b = 45 then (scanPrefixed (width - 1) rest).map fun r => (-(r.1 : ℤ), r.2)
    else (scanPrefixed width (b :: rest)).map fun r => ((r.1 : ℤ), r.2)

/-- A conversion `%x`, or `%*x`, which stores nothing. -/
structure Conversion where
  width : ℕ
  stored : Bool

/-- What is stored before the first conversion that fails. -/
def scan : List Conversion → List UInt8 → List ℤ
  | [], _ => []
  | c :: format, input =>
    match scanHex c.width input with
    | none => []
    | some (value, rest) => if c.stored then value :: scan format rest else scan format rest

variable {digits digits' rest a b : List UInt8} {d : UInt8} {width n v : ℕ}

def IsHex (digits : List UInt8) : Prop := ∀ d ∈ digits, (hexDigit d).isSome

instance (digits : List UInt8) : Decidable (IsHex digits) :=
  decidable_of_iff (digits.all fun d => (hexDigit d).isSome) (by simp [IsHex])

def digitValue (b : UInt8) : ℕ := (hexDigit b).getD 0

def hexValueFrom (v : ℕ) (digits : List UInt8) : ℕ :=
  digits.foldl (fun v d => 16 * v + digitValue d) v

def hexValue (digits : List UInt8) : ℕ := hexValueFrom 0 digits

theorem hexDigit_lt {x : ℕ} (h : hexDigit d = some x) : x < 16 := by
  simp only [hexDigit] at h
  split_ifs at h <;> simp only [Option.some.injEq] at h <;> omega

theorem digitValue_lt (d : UInt8) : digitValue d < 16 := by
  rw [digitValue]
  cases h : hexDigit d with
  | none => simp
  | some x => exact hexDigit_lt h

theorem hexDigit_eq (h : (hexDigit d).isSome) : hexDigit d = some (digitValue d) := by
  obtain ⟨x, hx⟩ := Option.isSome_iff_exists.mp h
  rw [digitValue, hx, Option.getD_some]

theorem hexValueFrom_eq (v : ℕ) (digits : List UInt8) :
    hexValueFrom v digits = v * 16 ^ digits.length + hexValue digits := by
  induction digits generalizing v with
  | nil => simp [hexValueFrom, hexValue]
  | cons d digits ih =>
    have one := ih (16 * v + digitValue d)
    have other := ih (16 * 0 + digitValue d)
    calc hexValueFrom v (d :: digits)
        = (16 * v + digitValue d) * 16 ^ digits.length + hexValue digits := one
      _ = v * 16 ^ (d :: digits).length +
          ((16 * 0 + digitValue d) * 16 ^ digits.length + hexValue digits) := by
        rw [List.length_cons, pow_succ]
        ring
      _ = v * 16 ^ (d :: digits).length + hexValue (d :: digits) := by
        rw [← other]
        rfl

theorem hexValue_append (digits digits' : List UInt8) :
    hexValue (digits ++ digits') = hexValue digits * 16 ^ digits'.length + hexValue digits' := by
  rw [← hexValueFrom_eq]
  exact List.foldl_append

theorem hexValue_lt (digits : List UInt8) : hexValue digits < 16 ^ digits.length := by
  induction digits with
  | nil => simp [hexValue, hexValueFrom]
  | cons d digits ih =>
    have head := digitValue_lt d
    have split := hexValue_append [d] digits
    have single : hexValue [d] = digitValue d := by simp [hexValue, hexValueFrom]
    rw [List.singleton_append, single] at split
    rw [split, List.length_cons, pow_succ']
    calc digitValue d * 16 ^ digits.length + hexValue digits
        < (digitValue d + 1) * 16 ^ digits.length := by
          rw [Nat.add_mul, Nat.one_mul]
          omega
      _ ≤ 16 * 16 ^ digits.length := Nat.mul_le_mul_right _ head

/-- A full field of digits is read to its end. -/
theorem scanDigits_field (hex : IsHex digits) (v : ℕ) (rest : List UInt8) :
    scanDigits digits.length v (digits ++ rest) = (hexValueFrom v digits, rest) := by
  induction digits generalizing v with
  | nil => cases rest <;> rfl
  | cons d digits ih =>
    have head := hexDigit_eq (hex d List.mem_cons_self)
    rw [List.length_cons, List.cons_append, scanDigits, head]
    exact ih (fun x hx => hex x (List.mem_cons_of_mem _ hx)) _

theorem hexDigit_not_x (h : (hexDigit d).isSome) :
    isSpace d = false ∧ d ≠ 43 ∧ d ≠ 45 ∧ d ≠ 120 ∧ d ≠ 88 := by
  have range : (48 ≤ d.toNat ∧ d.toNat ≤ 57) ∨ (65 ≤ d.toNat ∧ d.toNat ≤ 70) ∨
      (97 ≤ d.toNat ∧ d.toNat ≤ 102) := by
    simp only [hexDigit] at h
    split_ifs at h with h1 h2 h3
    · exact .inl h1
    · exact .inr (.inl h2)
    · exact .inr (.inr h3)
    · cases h
  refine ⟨?_, ?_, ?_, ?_, ?_⟩
  · have apart : d ≠ 32 := by
      rintro rfl
      simp at range
    simp [isSpace, apart]
    omega
  all_goals
    rintro rfl
    simp at range

theorem scanPrefixed_field (hex : IsHex (d :: digits)) (rest : List UInt8) :
    scanPrefixed (d :: digits).length (d :: digits ++ rest) =
      some (hexValue (d :: digits), rest) := by
  have head := hexDigit_eq (hex d List.mem_cons_self)
  have field : scanUnsigned (d :: digits).length (d :: digits ++ rest) =
      some (hexValue (d :: digits), rest) := by
    have tail := scanDigits_field (fun x hx => hex x (List.mem_cons_of_mem _ hx))
      (digitValue d) rest
    rw [List.length_cons, List.cons_append, scanUnsigned, head, Option.map_some, tail]
    simp [hexValue, hexValueFrom]
  cases digits with
  | nil => exact field
  | cons x digits =>
    have apart := hexDigit_not_x (hex x (by simp))
    rw [← field]
    exact if_neg fun marked => marked.2.elim apart.2.2.2.1 apart.2.2.2.2

/-- `%x` reads a field that its digits fill, whatever follows. -/
theorem scanHex_field (hex : IsHex digits) (filled : digits ≠ []) (rest : List UInt8) :
    scanHex digits.length (digits ++ rest) = some ((hexValue digits : ℤ), rest) := by
  cases digits with
  | nil => exact absurd rfl filled
  | cons d digits =>
    obtain ⟨space, plus, minus, _⟩ := hexDigit_not_x (hex d List.mem_cons_self)
    have start : (d :: digits ++ rest).dropWhile isSpace = d :: digits ++ rest := by
      rw [List.cons_append, List.dropWhile_cons_of_neg (by simp [space])]
    rw [scanHex, start]
    change (if d = 43 then _ else if d = 45 then _ else _) = _
    rw [if_neg plus, if_neg minus]
    change (scanPrefixed _ (d :: digits ++ rest)).map _ = _
    rw [scanPrefixed_field hex]
    rfl

theorem scan_stored (format : List Conversion) (hex : IsHex digits)
    (len : digits.length = width) (filled : 0 < width) (rest : List UInt8) :
    scan (⟨width, true⟩ :: format) (digits ++ rest) =
      (hexValue digits : ℤ) :: scan format rest := by
  subst len
  rw [scan, scanHex_field hex (List.ne_nil_of_length_pos filled)]
  rfl

theorem scan_skipped (format : List Conversion) (hex : IsHex digits)
    (len : digits.length = width) (filled : 0 < width) (rest : List UInt8) :
    scan (⟨width, false⟩ :: format) (digits ++ rest) = scan format rest := by
  subst len
  rw [scan, scanHex_field hex (List.ne_nil_of_length_pos filled)]
  rfl

/-! ## Strings -/

/-- `%s` with a width. -/
def scanWord (width : ℕ) (input : List UInt8) : List UInt8 :=
  ((input.dropWhile isSpace).takeWhile fun b => !isSpace b).take width

/-- Whether `strncmp` gives 0, on arrays that are zero behind what the lists hold. -/
def strncmpEqual : ℕ → List UInt8 → List UInt8 → Bool
  | 0, _, _ => true
  | n + 1, a, b => a.headD 0 == b.headD 0 && (a.headD 0 == 0 || strncmpEqual n a.tail b.tail)

/-- The bytes before the terminator. -/
def cString (a : List UInt8) : List UInt8 := a.takeWhile (· ≠ 0)

/-- `strncmp` compares the strings, where both end within its bound. -/
theorem strncmpEqual_iff (ha : a.length < n) (hb : b.length < n) :
    strncmpEqual n a b = true ↔ cString a = cString b := by
  induction n generalizing a b with
  | zero => cases ha
  | succ n ih =>
    cases a with
    | nil =>
      cases b with
      | nil => simp [strncmpEqual]
      | cons y b =>
        by_cases hy : y = 0
        · simp [strncmpEqual, cString, hy]
        · simp [strncmpEqual, cString, hy, Ne.symm hy]
    | cons x a =>
      cases b with
      | nil => by_cases hx : x = 0 <;> simp [strncmpEqual, cString, hx]
      | cons y b =>
        have tails := ih (Nat.lt_of_succ_lt_succ ha) (Nat.lt_of_succ_lt_succ hb)
        simp only [strncmpEqual, List.headD_cons, List.tail_cons, Bool.and_eq_true, beq_iff_eq,
          Bool.or_eq_true, tails]
        by_cases hx : x = 0
        · by_cases hy : y = 0
          · simp [cString, hx, hy]
          · simp [cString, hx, hy, Ne.symm hy]
        · by_cases hy : y = 0
          · simp [cString, hx, hy]
          · simp [cString, hx, hy]

theorem scanWord_length (width : ℕ) (input : List UInt8) :
    (scanWord width input).length ≤ width := by
  rw [scanWord, List.length_take]
  exact Nat.min_le_left ..

end ScanFormats
