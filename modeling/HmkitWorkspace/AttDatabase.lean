import Mathlib.Data.List.Basic
import Mathlib.Data.UInt

/-! # Attribute databases

The binary form of a table of attributes: a version byte, then each attribute with its size,
flags, handle, UUID and value, then a size of zero. Numbers are little endian and sixteen bits
wide; one flag tells a UUID of 128 bits from one of 16. -/
namespace AttDatabase

def lowByte (w : UInt16) : UInt8 := UInt8.ofNat (w.toNat % 256)

def highByte (w : UInt16) : UInt8 := UInt8.ofNat (w.toNat / 256)

def word (w : UInt16) : List UInt8 := [lowByte w, highByte w]

def ofBytes (low high : UInt8) : UInt16 := UInt16.ofNat (low.toNat + 256 * high.toNat)

def uuid128Flag : UInt16 := 0x0200

def uuidLength (flags : UInt16) : ℕ := if flags &&& uuid128Flag = 0 then 2 else 16

@[ext] structure Attribute where
  flags : UInt16
  handle : UInt16
  uuid : List UInt8
  value : List UInt8
  uuid_length : uuid.length = uuidLength flags
  fits : 6 + uuid.length + value.length < 65536
  deriving DecidableEq

/-- The size counts itself. -/
def Attribute.size (a : Attribute) : ℕ := 6 + a.uuid.length + a.value.length

def encode (a : Attribute) : List UInt8 :=
  word (UInt16.ofNat a.size) ++ word a.flags ++ word a.handle ++ a.uuid ++ a.value

def endMark : List UInt8 := [0, 0]

def encodeDatabase (attributes : List Attribute) : List UInt8 :=
  1 :: (attributes.flatMap encode ++ endMark)

/-- Takes one attribute off the front; a size that is too small or runs past the end is refused. -/
def decodeAttribute : List UInt8 → Option (Attribute × List UInt8)
  | s₀ :: s₁ :: f₀ :: f₁ :: h₀ :: h₁ :: rest =>
    let size := (ofBytes s₀ s₁).toNat
    let flags := ofBytes f₀ f₁
    if h : 6 + uuidLength flags ≤ size ∧ size - 6 ≤ rest.length then
      some (⟨flags, ofBytes h₀ h₁, rest.take (uuidLength flags),
        (rest.drop (uuidLength flags)).take (size - 6 - uuidLength flags),
        by rw [List.length_take]; omega,
        by
          have bound := (ofBytes s₀ s₁).toNat_lt
          rw [List.length_take, List.length_take, List.length_drop]
          omega⟩, rest.drop (size - 6))
    else none
  | _ => none

/-- At most so many attributes, up to the end mark and nothing behind it. -/
def decodeAttributes : ℕ → List UInt8 → Option (List Attribute)
  | 0, _ => none
  | n + 1, bytes =>
    if bytes = endMark then some []
    else
      match decodeAttribute bytes with
      | none => none
      | some (a, rest) => (decodeAttributes n rest).map fun attributes => a :: attributes

def decode : List UInt8 → Option (List Attribute)
  | [] => none
  | version :: bytes => if version = 1 then decodeAttributes bytes.length bytes else none

variable {a : Attribute} {attributes : List Attribute} {bytes rest : List UInt8} {n : ℕ}

/-! ## Numbers -/

theorem toNat_ofBytes (low high : UInt8) :
    (ofBytes low high).toNat = low.toNat + 256 * high.toNat := by
  have small := low.toNat_lt
  have small' := high.toNat_lt
  rw [ofBytes, UInt16.toNat_ofNat']
  omega

theorem ofBytes_word (w : UInt16) : ofBytes (lowByte w) (highByte w) = w := by
  have small := w.toNat_lt
  apply UInt16.toNat_inj.mp
  rw [toNat_ofBytes, lowByte, highByte, UInt8.toNat_ofNat', UInt8.toNat_ofNat']
  omega

theorem word_ofBytes (low high : UInt8) : word (ofBytes low high) = [low, high] := by
  have small := low.toNat_lt
  have small' := high.toNat_lt
  have first : (low.toNat + 256 * high.toNat) % 256 = low.toNat := by omega
  have second : (low.toNat + 256 * high.toNat) / 256 = high.toNat := by omega
  rw [word, lowByte, highByte, toNat_ofBytes, first, second, UInt8.ofNat_toNat,
    UInt8.ofNat_toNat]

theorem toNat_size (a : Attribute) : (UInt16.ofNat a.size).toNat = a.size := by
  rw [UInt16.toNat_ofNat']
  exact Nat.mod_eq_of_lt a.fits

/-! ## One attribute -/

theorem length_encode (a : Attribute) : (encode a).length = a.size := by
  simp [encode, word, Attribute.size]
  omega

theorem decodeAttribute_encode (a : Attribute) (rest : List UInt8) :
    decodeAttribute (encode a ++ rest) = some (a, rest) := by
  have size := toNat_size a
  have length := a.uuid_length
  have enough : a.size = 6 + a.uuid.length + a.value.length := rfl
  simp only [encode, word, List.cons_append, List.nil_append, List.append_assoc, decodeAttribute,
    ofBytes_word, size]
  have uuid : (a.uuid ++ (a.value ++ rest)).take (uuidLength a.flags) = a.uuid := by
    rw [← length, List.take_left]
  have value : (a.uuid ++ (a.value ++ rest)).drop (uuidLength a.flags) = a.value ++ rest := by
    rw [← length, List.drop_left]
  have behind : (a.uuid ++ (a.value ++ rest)).drop (a.size - 6) = rest := by
    have both : a.size - 6 = (a.uuid ++ a.value).length := by rw [List.length_append]; omega
    rw [both, ← List.append_assoc, List.drop_left]
  have valueSize : a.size - 6 - uuidLength a.flags = a.value.length := by omega
  rw [dif_pos ⟨by omega, by simp; omega⟩]
  refine congrArg some (Prod.ext (Attribute.ext rfl rfl uuid ?_) behind)
  change ((a.uuid ++ (a.value ++ rest)).drop (uuidLength a.flags)).take _ = a.value
  rw [value, valueSize, List.take_left]

/-- Nothing is accepted but encodings. -/
theorem encode_of_decodeAttribute (h : decodeAttribute bytes = some (a, rest)) :
    bytes = encode a ++ rest := by
  match bytes, h with
  | s₀ :: s₁ :: f₀ :: f₁ :: h₀ :: h₁ :: tail, h =>
    simp only [decodeAttribute] at h
    split at h
    · rename_i enough
      obtain ⟨rfl, rfl⟩ := Prod.mk.inj (Option.some.inj h)
      have size : UInt16.ofNat (6 + (tail.take (uuidLength (ofBytes f₀ f₁))).length +
          ((tail.drop (uuidLength (ofBytes f₀ f₁))).take ((ofBytes s₀ s₁).toNat - 6 -
            uuidLength (ofBytes f₀ f₁))).length) = ofBytes s₀ s₁ := by
        rw [List.length_take, List.length_take, List.length_drop]
        apply UInt16.toNat_inj.mp
        have bound := (ofBytes s₀ s₁).toNat_lt
        rw [UInt16.toNat_ofNat', Nat.mod_eq_of_lt (by omega)]
        omega
      have split : tail = tail.take (uuidLength (ofBytes f₀ f₁)) ++
          ((tail.drop (uuidLength (ofBytes f₀ f₁))).take ((ofBytes s₀ s₁).toNat - 6 -
            uuidLength (ofBytes f₀ f₁)) ++ tail.drop ((ofBytes s₀ s₁).toNat - 6)) := by
        have behind : (ofBytes s₀ s₁).toNat - 6 = uuidLength (ofBytes f₀ f₁) +
            ((ofBytes s₀ s₁).toNat - 6 - uuidLength (ofBytes f₀ f₁)) := by omega
        conv_rhs => rw [behind, ← List.drop_drop, Nat.add_sub_cancel_left, List.take_append_drop,
          List.take_append_drop]
      simp only [encode, Attribute.size, size, word_ofBytes, List.cons_append, List.nil_append,
        List.append_assoc]
      rw [← split]
    · cases h

/-! ## Databases -/

theorem encode_ne_endMark (a : Attribute) (rest : List UInt8) : encode a ++ rest ≠ endMark := by
  intro same
  have length := congrArg List.length same
  rw [List.length_append, length_encode, Attribute.size, endMark] at length
  simp at length
  omega

theorem decodeAttributes_encode (attributes : List Attribute) (h : attributes.length < n) :
    decodeAttributes n (attributes.flatMap encode ++ endMark) = some attributes := by
  induction attributes generalizing n with
  | nil =>
    cases n with
    | zero => cases h
    | succ n => simp [decodeAttributes]
  | cons a attributes ih =>
    cases n with
    | zero => cases h
    | succ n =>
      have rest := ih (n := n) (by simpa using h)
      rw [List.flatMap_cons, List.append_assoc, decodeAttributes,
        if_neg (encode_ne_endMark a _), decodeAttribute_encode]
      simp [rest]

theorem encode_of_decodeAttributes (h : decodeAttributes n bytes = some attributes) :
    bytes = attributes.flatMap encode ++ endMark := by
  induction n generalizing bytes attributes with
  | zero => cases h
  | succ n ih =>
    rw [decodeAttributes] at h
    split at h
    · rename_i last
      cases h
      exact last
    · split at h
      · cases h
      · rename_i a rest first
        obtain ⟨others, later, rfl⟩ := Option.map_eq_some_iff.mp h
        rw [List.flatMap_cons, List.append_assoc, ← ih later]
        exact encode_of_decodeAttribute first

theorem length_flatMap_encode (attributes : List Attribute) :
    attributes.length ≤ (attributes.flatMap encode).length := by
  induction attributes with
  | nil => simp
  | cons a attributes ih =>
    rw [List.flatMap_cons, List.length_append, length_encode, List.length_cons, Attribute.size]
    omega

/-- The bytes that are accepted are the encodings, and each is decoded to what it came from. -/
theorem decode_eq_some_iff :
    decode bytes = some attributes ↔ bytes = encodeDatabase attributes := by
  constructor
  · intro h
    cases bytes with
    | nil => cases h
    | cons version bytes =>
      rw [decode] at h
      split at h
      · rename_i first
        rw [first, encode_of_decodeAttributes h]
        rfl
      · cases h
  · rintro rfl
    rw [encodeDatabase, decode, if_pos rfl]
    apply decodeAttributes_encode
    have := length_flatMap_encode attributes
    rw [List.length_append, endMark]
    simp only [List.length_cons, List.length_nil]
    omega

end AttDatabase
