import Mathlib.Data.List.Basic
import Mathlib.Data.UInt

/-! # Sequences of length-type-value fields

A field is a length, which counts the type, then the type and the data. -/
namespace LengthTypeValue

structure Field where
  type : UInt8
  data : List UInt8
  deriving DecidableEq

/-- The length of the data fits the length byte beside the type. -/
def Field.Fits (f : Field) : Prop := f.data.length < 255

def Field.lengthByte (f : Field) : UInt8 := UInt8.ofNat (f.data.length + 1)

def encode (f : Field) : List UInt8 := f.lengthByte :: f.type :: f.data

def encodeAll (fields : List Field) : List UInt8 := fields.flatMap encode

/-- Takes one field off the front; a length of zero or one that runs past the end is refused. -/
def decodeField : List UInt8 → Option (Field × List UInt8)
  | length :: type :: rest =>
    if length ≠ 0 ∧ length.toNat - 1 ≤ rest.length then
      some (⟨type, rest.take (length.toNat - 1)⟩, rest.drop (length.toNat - 1))
    else none
  | _ => none

/-- At most so many fields, up to the end of the bytes. -/
def decodeWithin : ℕ → List UInt8 → Option (List Field)
  | _, [] => some []
  | 0, _ :: _ => none
  | n + 1, byte :: bytes =>
    match decodeField (byte :: bytes) with
    | none => none
    | some (f, rest) => (decodeWithin n rest).map fun fields => f :: fields

def decode (bytes : List UInt8) : Option (List Field) := decodeWithin bytes.length bytes

variable {f : Field} {fields fields' : List Field}

theorem Field.Fits.toNat_lengthByte (fits : f.Fits) :
    f.lengthByte.toNat = f.data.length + 1 := by
  unfold Field.Fits at fits
  rw [Field.lengthByte, UInt8.toNat_ofNat', Nat.mod_eq_of_lt (by omega)]

theorem decodeField_encode (fits : f.Fits) (rest : List UInt8) :
    decodeField (encode f ++ rest) = some (f, rest) := by
  have length := fits.toNat_lengthByte
  have nonzero : f.lengthByte ≠ 0 := by
    intro h
    rw [h] at length
    exact absurd length (by simp)
  simp [encode, decodeField, length, nonzero]

theorem length_encodeAll (fields : List Field) : fields.length ≤ (encodeAll fields).length := by
  induction fields with
  | nil => simp [encodeAll]
  | cons f fields ih =>
    simp only [encodeAll, List.flatMap_cons, encode, List.length_append, List.length_cons] at ih ⊢
    omega

theorem decodeWithin_encodeAll (fits : ∀ f ∈ fields, f.Fits) {n : ℕ} (h : fields.length ≤ n) :
    decodeWithin n (encodeAll fields) = some fields := by
  induction fields generalizing n with
  | nil => simp [encodeAll, decodeWithin]
  | cons f fields ih =>
    obtain ⟨m, rfl⟩ : ∃ m, n = m + 1 := ⟨n - 1, by simp at h; omega⟩
    have rest := ih (fun g hg => fits g (List.mem_cons_of_mem _ hg)) (n := m)
      (by simpa using h)
    have first := decodeField_encode (fits f (List.mem_cons_self ..)) (encodeAll fields)
    have split : encodeAll (f :: fields) = encode f ++ encodeAll fields := List.flatMap_cons
    rw [split]
    simp only [encode, List.cons_append, decodeWithin] at first ⊢
    rw [first]
    simp [rest]

/-- What was encoded is decoded to the fields it came from. -/
theorem decode_encodeAll (fits : ∀ f ∈ fields, f.Fits) :
    decode (encodeAll fields) = some fields :=
  decodeWithin_encodeAll fits (length_encodeAll fields)

theorem encodeAll_inj (fits : ∀ f ∈ fields, f.Fits) (fits' : ∀ f ∈ fields', f.Fits)
    (h : encodeAll fields = encodeAll fields') : fields = fields' := by
  have decoded := decode_encodeAll fits
  rw [h, decode_encodeAll fits'] at decoded
  exact (Option.some.inj decoded).symm

end LengthTypeValue
