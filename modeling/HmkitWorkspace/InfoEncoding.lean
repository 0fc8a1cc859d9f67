import HmkitWorkspace.InfoMtu
import HmkitWorkspace.DecimalDigits

/-! # The layout of the info value

The comment and the example at the read callback have the MTU in the last six of sixteen
bytes. The copy goes to byte nine, one earlier, and the three digits end at 999. -/
namespace InfoEncoding

open TransitionRuns ByteBuffers DecimalDigits HmkitCoreConnectivityHal ConnectionTableInvariant
  InfoMtu

variable {s : State} {handle : HciConHandle} {mtu g : UInt16} {ret : UInt32} {value : List UInt8}
  {n : ℕ}

/-- The MTU in use before it is narrowed: what the core answered, or what was negotiated. -/
def exactMtu (mtu : UInt16) (ret : UInt32) : ℕ := if ret = 0 then mtu.toNat else ret.toNat

/-- "MTU" and digits. -/
def decodeMtu : List UInt8 → Option ℕ
  | 0x4d :: 0x54 :: 0x55 :: digits => decodeDigits digits
  | _ => none

/-- Sixteen bytes: "PySdk", zero padding, and the MTU in the last six. -/
structure Documented (value : List UInt8) (mtu : ℕ) : Prop where
  length : value.length = 16
  name : value.take 10 = [0x50, 0x79, 0x53, 0x64, 0x6b, 0, 0, 0, 0, 0]
  decoded : decodeMtu (value.drop 10) = some mtu

/-- The callback writes these bytes whatever part of the value is asked for. -/
def Serves (s : State) (handle : HciConHandle) (value : List UInt8) : Prop :=
  ∀ offset size beyond,
    (attReadCallback s handle infoValueHandle offset true size beyond).ret = 16 ∧
      (attReadCallback s handle infoValueHandle offset true size beyond).written = value

def digits (g : UInt16) : List UInt8 :=
  [digit (g.toNat / 100), digit (g.toNat % 100 / 10), digit (g.toNat % 10)]

/-- What is served after an exchange. -/
def served (g : UInt16) : List UInt8 :=
  [0x50, 0x79, 0x53, 0x64, 0x6b, 0, 0, 0, 0, 0x4d, 0x54, 0x55] ++ digits g ++ [0]

/-! ## The digits -/

theorem convertMtuStr_bytes (g : UInt16) :
    (convertMtuStr g).bytes = [0x4d, 0x54, 0x55] ++ digits g := by
  by_cases big : g.toNat > 99
  · simp [convertMtuStr, big, digits]
  · have hundreds : g.toNat / 100 = 0 := by omega
    have rest : g.toNat % 100 = g.toNat := by omega
    simp [convertMtuStr, big, digits, hundreds, rest]

theorem decode_digits (small : g.toNat ≤ 999) : decodeDigits (digits g) = some g.toNat := by
  have first : g.toNat / 100 < 10 := by omega
  have second : g.toNat % 100 / 10 < 10 := by omega
  have third : g.toNat % 10 < 10 := by omega
  simp only [decodeDigits, digits, digit]
  rw [decodeFrom_digit first, decodeFrom_digit second, decodeFrom_digit third, decodeFrom]
  congr 1
  omega

theorem decodes_iff (mtu : UInt16) (ret : UInt32) :
    decodeDigits (digits (effectiveMtu mtu ret)) = some (exactMtu mtu ret) ↔
      exactMtu mtu ret ≤ 999 := by
  constructor
  · intro decoded
    have bound := decodeDigits_lt decoded
    simp only [digits, List.length_cons, List.length_nil] at bound
    omega
  · intro small
    have same : (effectiveMtu mtu ret).toNat = exactMtu mtu ret := by
      unfold effectiveMtu exactMtu at *
      split
      · rfl
      · rename_i nonzero
        rw [if_neg nonzero] at small
        rw [UInt32.toNat_toUInt16]
        omega
    rw [← same] at small ⊢
    exact decode_digits small

theorem digit_inj (a b : ℕ) : digit a = digit b ↔ a % 256 = b % 256 := by
  rw [digit, digit, ← UInt8.toNat_inj, UInt8.toNat_ofNat', UInt8.toNat_ofNat']
  omega

/-- The hundreds are kept modulo 256. -/
theorem digits_inj (g g' : UInt16) :
    digits g = digits g' ↔ g.toNat % 25600 = g'.toNat % 25600 := by
  simp only [digits, List.cons.injEq, and_true, digit_inj]
  omega

/-! ## The value -/

theorem documented_starts (h : Documented value n) : (value.drop 10).head? = some 0x4d := by
  have decoded := h.decoded
  unfold decodeMtu at decoded
  split at decoded
  · rename_i rest
    rw [rest]
    rfl
  · cases decoded

theorem served_not_documented (g : UInt16) (n : ℕ) : ¬ Documented (served g) n := by
  intro h
  have first := documented_starts h
  simp [served] at first

/-- After an exchange on a connection, what is read on it. -/
theorem served_after (found : (getBtConnectionUsingHandle s.btConnections handle).isSome)
    (mtu : UInt16) (ret : UInt32) :
    Serves (mtuExchangeComplete s handle mtu ret).1 handle (served (effectiveMtu mtu ret)) := by
  obtain ⟨i, hi⟩ := Option.isSome_iff_exists.mp found
  have exchanged : (mtuExchangeComplete s handle mtu ret).1.gMtuStr =
      convertMtuStr (effectiveMtu mtu ret) := by simp [mtuExchangeComplete, hi, effectiveMtu]
  have table := mtuExchangeComplete_btConnections s handle mtu ret
  intro offset size beyond
  refine ⟨by simp [attReadCallback], ?_⟩
  simp [attReadCallback, infoValue, table, hi, exchanged, convertMtuStr_bytes, overwrite,
    infoTemplate, served, digits]

/-- What is served never has the documented layout. One byte earlier the digits decode to the
effective MTU exactly when it has three of them, and two exchanges serve the same exactly when
the stored MTUs agree modulo 25600. -/
theorem info_encoding (found : (getBtConnectionUsingHandle s.btConnections handle).isSome)
    (mtu : UInt16) (ret : UInt32) :
    ∃ value, Serves (mtuExchangeComplete s handle mtu ret).1 handle value ∧
      ¬ Documented value (exactMtu mtu ret) ∧
      (decodeMtu ((value.drop 9).take 6) = some (exactMtu mtu ret) ↔
        exactMtu mtu ret ≤ 999) ∧
      ∀ s' handle', (getBtConnectionUsingHandle s'.btConnections handle').isSome →
        ∀ mtu' ret', (Serves (mtuExchangeComplete s' handle' mtu' ret').1 handle' value ↔
          (effectiveMtu mtu ret).toNat % 25600 = (effectiveMtu mtu' ret').toNat % 25600) := by
  refine ⟨_, served_after found mtu ret, served_not_documented _ _, ?_, ?_⟩
  · exact decodes_iff mtu ret
  · intro s' handle' found' mtu' ret'
    have after := served_after found' mtu' ret'
    rw [← digits_inj]
    constructor
    · intro same
      have eq := (same 0 0 0).2.symm.trans (after 0 0 0).2
      simpa [served] using eq
    · intro same
      rw [served, same]
      exact after

theorem info_encoding_of_100 :
    ∃ tr s value, run step initial [.hci (.leConnectionComplete 0 0x40 peerA)] = some (tr, s) ∧
      Serves (mtuExchangeComplete s 0x40 100 0).1 0x40 value ∧
      decodeMtu ((value.drop 9).take 6) = some 100 ∧ ¬ Documented value 100 := by
  obtain ⟨value, serves, undocumented, decodes, _⟩ := info_encoding
    (s := (hciPacketHandler initial (.leConnectionComplete 0 0x40 peerA)).1)
    (show (getBtConnectionUsingHandle _ 0x40).isSome by decide) 100 0
  exact ⟨_, _, value, rfl, serves, decodes.mpr (by decide), undocumented⟩

/-- For an MTU of 100 the last six bytes are "TU100" and a zero; for 1000 even the digits one
byte earlier are none. -/
theorem info_value_one_byte_early :
    ∃ tr s, Execution step (fun _ _ => True) initial tr s ∧
      infoValue s 0x40 = [0x50, 0x79, 0x53, 0x64, 0x6b, 0, 0, 0, 0, 0x4d, 0x54, 0x55, 0x31, 0x30,
        0x30, 0] ∧
      ¬ Documented (infoValue s 0x40) 100 ∧
      decodeMtu (((infoValue (mtuExchangeComplete s 0x40 1000 0).1 0x40).drop 9).take 6) =
        none := by
  refine ⟨_, _, execution_of_run [.hci (.leConnectionComplete 0 0x40 peerA),
    .mtuExchangeComplete 0x40 100 0] rfl fun _ _ => trivial, by decide, ?_, by decide⟩
  intro h
  exact absurd h.decoded (by decide)

end InfoEncoding
