import Mathlib.Data.List.Basic
import Mathlib.Data.UInt

/-! # Decimal digits in ASCII

Reading digits from the most significant one on; anything else in the field is an error. -/
namespace DecimalDigits

def isDigit (b : UInt8) : Bool := 48 ≤ b.toNat && b.toNat ≤ 57

def decodeFrom (value : ℕ) : List UInt8 → Option ℕ
  | [] => some value
  | b :: rest => if isDigit b then decodeFrom (10 * value + (b.toNat - 48)) rest else none

def decodeDigits (field : List UInt8) : Option ℕ := decodeFrom 0 field

variable {value n d : ℕ} {b : UInt8} {field rest : List UInt8}

theorem isDigit_ofNat (h : d < 10) : isDigit (UInt8.ofNat (48 + d)) = true := by
  simp [isDigit]
  omega

/-- Reading one digit appends it to the value. -/
theorem decodeFrom_digit (h : d < 10) :
    decodeFrom value (UInt8.ofNat (48 + d) :: rest) = decodeFrom (10 * value + d) rest := by
  have small : (UInt8.ofNat (48 + d)).toNat - 48 = d := by
    rw [UInt8.toNat_ofNat']
    omega
  rw [decodeFrom, if_pos (isDigit_ofNat h), small]

theorem decodeFrom_lt (h : decodeFrom value field = some n) :
    n < (value + 1) * 10 ^ field.length := by
  induction field generalizing value with
  | nil =>
    obtain rfl : value = n := by simpa [decodeFrom] using h
    simp
  | cons b rest ih =>
    rw [decodeFrom] at h
    split at h
    · rename_i digit
      simp only [isDigit, Bool.and_eq_true, decide_eq_true_eq] at digit
      have tail := ih h
      have head : 10 * value + (b.toNat - 48) + 1 ≤ (value + 1) * 10 := by omega
      calc n < (10 * value + (b.toNat - 48) + 1) * 10 ^ rest.length := tail
        _ ≤ (value + 1) * 10 * 10 ^ rest.length := Nat.mul_le_mul_right _ head
        _ = (value + 1) * 10 ^ (b :: rest).length := by
          rw [List.length_cons, pow_succ', mul_assoc]
    · cases h

/-- A field of `k` digits holds numbers below `10 ^ k` only. -/
theorem decodeDigits_lt (h : decodeDigits field = some n) : n < 10 ^ field.length := by
  have bound := decodeFrom_lt h
  rwa [Nat.zero_add, Nat.one_mul] at bound

end DecimalDigits
