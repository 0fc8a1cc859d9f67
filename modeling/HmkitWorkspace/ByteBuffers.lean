import Mathlib.Data.List.Basic
import Mathlib.Data.UInt

/-! # Byte arrays of fixed length and chunked reads

Copying more bytes into an array than it holds is undefined. Reading past its end is
modelled by `beyond`, the bytes that happen to lie behind the array in memory. -/
namespace ByteBuffers

/-- A C array `uint8_t a[n]`. -/
@[ext]
structure Buffer (n : ℕ) where
  bytes : List UInt8
  length_eq : bytes.length = n
  deriving DecidableEq

instance (n : ℕ) : Zero (Buffer n) := ⟨⟨List.replicate n 0, List.length_replicate⟩⟩

variable {n : ℕ}

/-- `memcpy(a, src, length)` at the start of the array; `none` when it would write an index
at or above `n`. -/
def Buffer.memcpy (b : Buffer n) (src : List UInt8) : Option (Buffer n) :=
  if h : src.length ≤ n then
    some ⟨src ++ b.bytes.drop src.length, by simp [b.length_eq, h]⟩
  else none

/-- `memcpy(dst, &a[pos], length)` inside the array. -/
def Buffer.slice (b : Buffer n) (pos length : ℕ) (h : pos + length ≤ n) : Buffer length :=
  ⟨(b.bytes.drop pos).take length, by simp [b.length_eq]; omega⟩

/-- The byte at index `i`, in the array or behind it. -/
def Buffer.byteAt (b : Buffer n) (beyond : ℕ → UInt8) (i : ℕ) : UInt8 :=
  (b.bytes[i]?).getD (beyond i)

/-- `memcpy(dst, &a[offset], count)`. -/
def Buffer.copyOut (b : Buffer n) (beyond : ℕ → UInt8) (offset count : ℕ) : List UInt8 :=
  (List.range count).map fun k => b.byteAt beyond (offset + k)

theorem Buffer.memcpy_eq_none_iff {b : Buffer n} {src : List UInt8} :
    b.memcpy src = none ↔ n < src.length := by
  simp [Buffer.memcpy]

theorem Buffer.memcpy_isSome {b : Buffer n} {src : List UInt8} (h : src.length ≤ n) :
    ∃ c, b.memcpy src = some c := by
  simp [Buffer.memcpy, h]

theorem Buffer.memcpy_prefix {b c : Buffer n} {src : List UInt8} (h : b.memcpy src = some c) :
    src.length ≤ n ∧ c.bytes.take src.length = src := by
  unfold Buffer.memcpy at h
  split at h
  · rename_i hle
    cases h
    exact ⟨hle, by simp⟩
  · cases h

/-- A part of what was copied in is that part of the source. -/
theorem Buffer.slice_memcpy {b c : Buffer n} {src : List UInt8} (h : b.memcpy src = some c)
    {pos length : ℕ} (hs : pos + length ≤ src.length) :
    (c.slice pos length (hs.trans (Buffer.memcpy_prefix h).1)).bytes =
      (src.drop pos).take length := by
  have part : ((c.bytes.take src.length).drop pos).take length =
      (c.bytes.drop pos).take length := by
    rw [List.drop_take, List.take_take, Nat.min_eq_left (by omega)]
  rw [(Buffer.memcpy_prefix h).2] at part
  exact part.symm

@[simp] theorem Buffer.length_copyOut (b : Buffer n) (beyond : ℕ → UInt8) (offset count : ℕ) :
    (b.copyOut beyond offset count).length = count := by
  simp [Buffer.copyOut]

/-- A served byte inside the first `size` bytes is the stored byte at that position. -/
theorem Buffer.getElem?_copyOut {b : Buffer n} {beyond : ℕ → UInt8}
    {offset count size k : ℕ} (hk : k < count) (hs : offset + k < size) (hn : size ≤ n) :
    (b.copyOut beyond offset count)[k]? = (b.bytes.take size)[offset + k]? := by
  have hb : offset + k < b.bytes.length := by rw [b.length_eq]; omega
  simp [Buffer.copyOut, Buffer.byteAt, hk, List.getElem?_take_of_lt hs,
    List.getElem?_eq_getElem hb]

/-- A read that stays inside the first `size` bytes copies exactly that part of them. -/
theorem Buffer.copyOut_eq {b : Buffer n} {beyond : ℕ → UInt8} {offset count size : ℕ}
    (hs : offset + count ≤ size) (hn : size ≤ n) :
    b.copyOut beyond offset count = ((b.bytes.take size).drop offset).take count := by
  apply List.ext_getElem?
  intro k
  by_cases hk : k < count
  · rw [Buffer.getElem?_copyOut hk (by omega) hn, List.getElem?_take_of_lt hk,
      List.getElem?_drop]
  · have hlen : (b.copyOut beyond offset count).length ≤ k := by simpa using hk
    rw [List.getElem?_eq_none hlen, List.getElem?_eq_none (by simp; omega)]

/-- A read that stays inside the array has nothing to do with what lies behind it. -/
theorem Buffer.copyOut_inside {b : Buffer n} (beyond : ℕ → UInt8) {offset count : ℕ}
    (h : offset + count ≤ n) :
    b.copyOut beyond offset count = (b.bytes.drop offset).take count := by
  rw [Buffer.copyOut_eq h le_rfl, List.take_of_length_le b.length_eq.le]

/-- `memcpy(a, src, n)` from a byte string: the bytes behind a shorter one are read as well. -/
def Buffer.ofMemory (n : ℕ) (src : List UInt8) (beyond : ℕ → UInt8) : Buffer n :=
  ⟨(List.range n).map fun k => (src[k]?).getD (beyond k), by simp⟩

theorem Buffer.ofMemory_of_le {src : List UInt8} (h : n ≤ src.length) (beyond : ℕ → UInt8) :
    (Buffer.ofMemory n src beyond).bytes = src.take n := by
  apply List.ext_getElem?
  intro k
  by_cases hk : k < n
  · have hs : k < src.length := by omega
    simp [Buffer.ofMemory, hk, List.getElem?_take_of_lt hk, List.getElem?_eq_getElem hs]
  · have hlen : (Buffer.ofMemory n src beyond).bytes.length ≤ k := by
      rw [Buffer.length_eq]
      omega
    rw [List.getElem?_eq_none hlen, List.getElem?_eq_none (by simp; omega)]

/-- The copy is the string exactly when the string is as long as the array. -/
theorem Buffer.ofMemory_eq_iff {src : List UInt8} (beyond : ℕ → UInt8) :
    (Buffer.ofMemory n src beyond).bytes = src ↔ src.length = n := by
  constructor
  · intro h
    rw [← h, Buffer.length_eq]
  · intro h
    rw [Buffer.ofMemory_of_le h.ge, List.take_of_length_le h.le]

/-- A string of the right length is copied without what lies behind it. -/
theorem Buffer.ofMemory_eq {src : List UInt8} (h : src.length = n) (beyond beyond' : ℕ → UInt8) :
    Buffer.ofMemory n src beyond = Buffer.ofMemory n src beyond' := by
  apply Buffer.ext
  rw [(Buffer.ofMemory_eq_iff beyond).mpr h, (Buffer.ofMemory_eq_iff beyond').mpr h]

/-! ## Narrowed lengths -/

/-- A length that is kept modulo `m` names the whole string exactly below `m`. -/
theorem take_mod_eq_iff {m : ℕ} (hm : 0 < m) (l : List UInt8) :
    l.take (l.length % m) = l ↔ l.length < m := by
  rw [List.take_eq_self_iff]
  constructor
  · intro h
    exact lt_of_le_of_lt h (Nat.mod_lt _ hm)
  · intro h
    rw [Nat.mod_eq_of_lt h]

/-- What is appended a multiple of `m` bytes further is not named. -/
theorem take_mod_append {m : ℕ} (l l' : List UInt8) (h : l'.length = m) :
    (l ++ l').take ((l ++ l').length % m) = l.take (l.length % m) := by
  rw [List.length_append, h, Nat.add_mod_right,
    List.take_append_of_le_length (Nat.mod_le _ _)]

theorem length_padded (l : List UInt8) (m : ℕ) (b : UInt8) :
    (l ++ List.replicate m b).length = l.length + m := by
  rw [List.length_append, List.length_replicate]

/-- `memcpy(l + offset, src, length)` into an array that has room for it. -/
def overwrite (l : List UInt8) (offset : ℕ) (src : List UInt8) : List UInt8 :=
  l.take offset ++ src ++ l.drop (offset + src.length)

theorem length_overwrite {l src : List UInt8} {offset : ℕ}
    (h : offset + src.length ≤ l.length) : (overwrite l offset src).length = l.length := by
  simp [overwrite]
  omega

theorem overwrite_append (a c : List UInt8) {old new : List UInt8}
    (h : old.length = new.length) :
    overwrite (a ++ old ++ c) a.length new = a ++ new ++ c := by
  simp [overwrite, ← h]

/-- `memcpy(a + pos, src, sizeof(src))` inside the array. -/
def Buffer.patch {m : ℕ} (b : Buffer n) (pos : ℕ) (src : Buffer m) (h : pos + m ≤ n) : Buffer n :=
  ⟨overwrite b.bytes pos src.bytes, by
    rw [length_overwrite (by rw [src.length_eq, b.length_eq]; exact h), b.length_eq]⟩

end ByteBuffers
