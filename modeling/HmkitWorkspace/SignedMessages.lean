import HmkitWorkspace.PycExtension
import HmkitWorkspace.IdentityGetters

/-! # What a signature covers

The length of a message is narrowed to 16 and then to 8 bits on its way to OpenSSL: the first
`length % 256` bytes are signed. -/
namespace SignedMessages

open TransitionRuns ByteBuffers HmSdkConfig HmkitCorePersistenceHal HmkitCoreCryptoHal PycBindings
  PycExtension IdentityGetters KeyLookup

variable {σ : Type*} {p : Platform σ} {w : Recorded} {m m' : List UInt8} {signature : Signature}
  {tr : List (Transition Recorded (Event σ) Answer)}

/-- The call is rejected with nothing signed, or what is returned is the signature over all of
the message under the private key set last. -/
def Covers (p : Platform σ) (k : Credentials) (m : List UInt8) (signature : Signature)
    (r : SignatureResult) : Prop :=
  r.result = .null ∧ r.calls = [] ∨
    r.calls = [.signature m k.privateKey] ∧
      r.result = .bytesTuple (p.crypto.signature m k.privateKey signature).2.bytes

/-- What is handed to OpenSSL for a message. -/
def signedAs (p : Platform σ) (w : Recorded) (m : List UInt8) (signature : Signature) :
    List CryptoCall :=
  (hmPycGenerateSignature p w.state [.bytes m] signature).calls

theorem key_of_record (h : Execution (recordedStep p) (fun _ _ => True) Recorded.initial tr w) :
    w.state.hmCar.privateKey = w.record.privateKey :=
  congrArg Credentials.privateKey (holds_record h)

theorem signedAs_eq (h : Execution (recordedStep p) (fun _ _ => True) Recorded.initial tr w)
    (hm : m ≠ []) :
    signedAs p w m signature = [.signature (m.take (m.length % 256)) w.record.privateKey] := by
  rw [signedAs, generateSignature_eq hm, key_of_record h]

theorem covers_iff (h : Execution (recordedStep p) (fun _ _ => True) Recorded.initial tr w) :
    Covers p w.record m signature (hmPycGenerateSignature p w.state [.bytes m] signature) ↔
      m.length ≤ 255 := by
  have whole := take_mod_eq_iff (show 0 < 256 by decide) m
  by_cases hm : m = []
  · subst m
    exact iff_of_true (Or.inl ⟨rfl, rfl⟩) (Nat.zero_le 255)
  · rw [generateSignature_eq hm, key_of_record h, Covers]
    constructor
    · intro covers
      rcases covers with ⟨rejected, _⟩ | ⟨calls, _⟩
      · cases rejected
      · have same : m.take (m.length % 256) = m := by simpa using calls
        have := whole.mp same
        omega
    · intro short
      rw [whole.mpr (by omega)]
      exact Or.inr ⟨rfl, rfl⟩

/-- A signature covers its message, or is refused, exactly for messages of up to 255 bytes.
No two of these are signed as the same; each shares its signature with a longer one. -/
theorem signatures_cover_message
    (h : Execution (recordedStep p) (fun _ _ => True) Recorded.initial tr w) :
    (∀ m signature,
      Covers p w.record m signature (hmPycGenerateSignature p w.state [.bytes m] signature) ↔
        m.length ≤ 255) ∧
    (∀ m m' signature, m ≠ [] → m' ≠ [] → m.length ≤ 255 → m'.length ≤ 255 →
      signedAs p w m signature = signedAs p w m' signature → m = m') ∧
    ∀ m signature, m ≠ [] → ∃ m', m'.length = m.length + 256 ∧
      signedAs p w m' signature = signedAs p w m signature := by
  refine ⟨fun m signature => covers_iff h, ?_, ?_⟩
  · intro m m' signature hm hm' short short' same
    rw [signedAs_eq h hm, signedAs_eq h hm'] at same
    have taken : m.take (m.length % 256) = m'.take (m'.length % 256) := by simpa using same
    rwa [(take_mod_eq_iff (by decide) m).mpr (by omega),
      (take_mod_eq_iff (by decide) m').mpr (by omega)] at taken
  · intro m signature hm
    refine ⟨m ++ List.replicate 256 0, length_padded m 256 0, ?_⟩
    rw [signedAs_eq h (List.append_ne_nil_of_left_ne_nil hm _), signedAs_eq h hm,
      take_mod_append m _ List.length_replicate]

/-- A library that signs with the first bytes of the message and the key. -/
def signingPlatform : Platform Table :=
  { samplePlatform with
    crypto := { sampleCrypto with
      signature := fun m privateKey _ => (0, Buffer.ofMemory 64 (m ++ privateKey.bytes) 0) } }

def someKey : PrivateKey := ⟨List.replicate 32 9, List.length_replicate⟩

theorem signatures_cover_two_bytes :
    ∃ tr w, run (recordedStep signingPlatform) Recorded.initial [.setDevPrv someKey] =
        some (tr, w) ∧ w.record.privateKey = someKey ∧
      Covers signingPlatform w.record [1, 2] 0
        (hmPycGenerateSignature signingPlatform w.state [.bytes [1, 2]] 0) :=
  ⟨_, _, rfl, rfl, ((signatures_cover_message (execution_of_run [.setDevPrv someKey] rfl
    fun _ _ => trivial)).1 [1, 2] 0).mpr (by decide)⟩

/-- A message of 257 bytes is signed as its first byte. -/
theorem long_message_signed_as_one_byte :
    ∃ tr w, Execution (recordedStep signingPlatform) (fun _ _ => True) Recorded.initial tr w ∧
      signedAs signingPlatform w ([7] ++ List.replicate 256 7) 0 =
        signedAs signingPlatform w [7] 0 ∧
      signedAs signingPlatform w [7] 0 = [.signature [7] someKey] ∧
      ¬ Covers signingPlatform w.record ([7] ++ List.replicate 256 7) 0
        (hmPycGenerateSignature signingPlatform w.state
          [.bytes ([7] ++ List.replicate 256 7)] 0) := by
  have h : Execution (recordedStep signingPlatform) (fun _ _ => True) Recorded.initial _ _ :=
    execution_of_run [.setDevPrv someKey] rfl fun _ _ => trivial
  have short : [(7 : UInt8)] ≠ [] := List.cons_ne_nil 7 []
  refine ⟨_, _, h, ?_, by decide, ?_⟩
  · rw [signedAs_eq h (List.append_ne_nil_of_left_ne_nil short _), signedAs_eq h short,
      take_mod_append [7] _ List.length_replicate]
  · rw [covers_iff h, length_padded]
    decide

end SignedMessages
