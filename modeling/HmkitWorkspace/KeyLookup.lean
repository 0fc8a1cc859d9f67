import HmkitWorkspace.HmkitCoreCryptoHal

/-! # The key a look-up ends with

The persistence HAL drops the error of the SQLite layer, so the crypto HAL goes on with
whatever its uninitialised buffer holds when no certificate is stored. -/
namespace KeyLookup

open ByteBuffers HmSdkConfig HmkitCorePersistenceHal HmkitCoreCryptoHal

variable {σ : Type*} {p : Platform σ} {stored : σ → Serial → Option (List UInt8)}
  {keyOf : List UInt8 → PublicKey} {db : σ} {serial : Serial}

/-- The parser takes the public key of the certificate that was looked up, if there is one, from
the certificate's own bytes, wherever they are copied to. -/
def ParsesKey (p : Platform σ) (found : Option (List UInt8)) (keyOf : List UInt8 → PublicKey) :
    Prop :=
  ∀ c, found = some c → ∀ (cert cert' : Buffer 256) certificate,
    cert.memcpy c = some cert' → (p.certGetAsStruct cert' certificate).publicKey = keyOf c

/-- A validation that fails closed without a key and otherwise uses the key. -/
def validateUnder (p : Platform σ) (data : List UInt8) (signature : Signature) :
    Option PublicKey → UInt32 × List CryptoCall
  | none => (1, [])
  | some key => (p.crypto.verify data key signature, [.verify data key signature])

/-- A key agreement that fails closed without a key and otherwise uses the key. -/
def agreeUnder (p : Platform σ) (config : Config) (ecdh : SharedSecret) :
    Option PublicKey → EcdhResult
  | none => ⟨1, ecdh, config, []⟩
  | some key =>
    let (config, pubser) := getSerialPublicPrivate config
    let (ret, ecdh) := p.crypto.dh pubser.privateKey key ecdh
    ⟨ret, ecdh, config, [.dh pubser.privateKey key]⟩

theorem present_key (reads : p.sqlite.Reads stored)
    (parses : ParsesKey p (stored db serial) keyOf) {c : List UInt8}
    (h : stored db serial = some c) (l : Locals) :
    (getAccessCertificate p.sqlite db serial l.cert l.sizeTmp).ret = 0 ∧
      (p.certGetAsStruct (getAccessCertificate p.sqlite db serial l.cert l.sizeTmp).cert
        l.certificate).publicKey = keyOf c := by
  obtain ⟨cert', hm, hget⟩ := getAccessCertificate_present reads h l.cert l.sizeTmp
  rw [hget]
  exact ⟨rfl, parses c h _ _ _ hm⟩

theorem validate_present (reads : p.sqlite.Reads stored)
    (parses : ParsesKey p (stored db serial) keyOf) {c : List UInt8}
    (h : stored db serial = some c) (data : List UInt8) (signature : Signature) (l : Locals) :
    eccValidateSignature p db data signature serial l =
      validateUnder p data signature (some (keyOf c)) := by
  obtain ⟨ret, key⟩ := present_key reads parses h l
  simp [eccValidateSignature, validateUnder, ret, key]

theorem agree_present (reads : p.sqlite.Reads stored)
    (parses : ParsesKey p (stored db serial) keyOf) {c : List UInt8}
    (h : stored db serial = some c) (config : Config) (ecdh : SharedSecret) (l : Locals) :
    eccGetEcdh p db config serial ecdh l = agreeUnder p config ecdh (some (keyOf c)) := by
  obtain ⟨ret, key⟩ := present_key reads parses h l
  simp [eccGetEcdh, agreeUnder, ret, key]

/-- OpenSSL is called with a key read from the uninitialised buffer. -/
theorem validate_absent (reads : p.sqlite.Reads stored) (h : stored db serial = none)
    (data : List UInt8) (signature : Signature) (l : Locals) :
    eccValidateSignature p db data signature serial l =
      validateUnder p data signature (some (p.certGetAsStruct l.cert l.certificate).publicKey) := by
  simp [eccValidateSignature, validateUnder, getAccessCertificate_absent reads h]

theorem agree_absent (reads : p.sqlite.Reads stored) (h : stored db serial = none)
    (config : Config) (ecdh : SharedSecret) (l : Locals) :
    eccGetEcdh p db config serial ecdh l =
      agreeUnder p config ecdh (some (p.certGetAsStruct l.cert l.certificate).publicKey) := by
  simp [eccGetEcdh, agreeUnder, getAccessCertificate_absent reads h]

/-- Both look-ups do what the stored key, or its absence, calls for exactly when a certificate
is stored for the serial. -/
theorem key_lookup (db : σ) (reads : p.sqlite.Reads stored) (serial : Serial)
    (parses : ParsesKey p (stored db serial) keyOf) (config : Config)
    (data : List UInt8) (signature : Signature) (ecdh : SharedSecret) (l : Locals) :
    (eccValidateSignature p db data signature serial l =
      validateUnder p data signature ((stored db serial).map keyOf) ↔
        ∃ c, stored db serial = some c) ∧
    (eccGetEcdh p db config serial ecdh l =
      agreeUnder p config ecdh ((stored db serial).map keyOf) ↔
        ∃ c, stored db serial = some c) := by
  cases h : stored db serial with
  | some c =>
    have found : ∃ c', some c = some c' := ⟨c, rfl⟩
    exact ⟨iff_of_true (validate_present reads parses h data signature l) found,
      iff_of_true (agree_present reads parses h config ecdh l) found⟩
  | none =>
    constructor
    · rw [validate_absent reads h]
      simp [validateUnder]
    · rw [agree_absent reads h]
      simp [agreeUnder]

/-- A key for which a signature is at hand. -/
def intruderKey : PublicKey := ⟨List.replicate 64 7, List.length_replicate⟩

/-- The part of OpenSSL a run needs: `intruderKey` works, and zero bytes are no key. -/
def sampleCrypto : CryptoLibrary where
  dh _ publicKey ecdh := if publicKey = intruderKey then (0, 0) else (1, ecdh)
  signature _ _ signature := (1, signature)
  verify _ publicKey _ := if publicKey = intruderKey then 0 else 1

def samplePlatform : Platform Table where
  sqlite := tableSqlite
  crypto := sampleCrypto
  certGetAsStruct cert _ := ⟨cert.slice 16 9 (by decide), cert.slice 25 64 (by decide)⟩

def zeroCertificate : { c : List UInt8 // c.length ≤ 255 } := ⟨List.replicate 100 0, by simp⟩

theorem key_lookup_stored :
    eccValidateSignature samplePlatform (fun _ => some zeroCertificate) [1, 2] 0 0
      ⟨0, ⟨0, 0⟩, 0⟩ = (1, [.verify [1, 2] 0 0]) := by
  have parses : ParsesKey samplePlatform (Table.content (fun _ => some zeroCertificate) 0)
      fun _ => 0 := by
    rintro c ⟨⟩ cert cert' certificate hm
    refine Buffer.ext ((Buffer.slice_memcpy hm (by simp [zeroCertificate])).trans ?_)
    simp [zeroCertificate, OfNat.ofNat, Zero.zero]
  exact (key_lookup _ tableSqlite_isMap.toReads 0 parses ⟨0, ⟨0, 0, 0⟩, 0⟩ [1, 2] 0 0
    ⟨0, ⟨0, 0⟩, 0⟩).1.mpr ⟨_, rfl⟩

/-- A stack buffer in which the intruder's certificate was left. -/
def leftover : Locals := ⟨⟨List.replicate 256 7, List.length_replicate⟩, ⟨0, 0⟩, 0⟩

theorem leftover_key :
    (samplePlatform.certGetAsStruct leftover.cert leftover.certificate).publicKey =
      intruderKey := by
  apply Buffer.ext
  simp only [samplePlatform, leftover, intruderKey, Buffer.slice, List.drop_replicate,
    List.take_replicate]
  rfl

/-- Nothing is stored, and a signature is accepted and a secret derived under a key that the
uninitialised buffer happens to hold. -/
theorem leftover_key_accepted :
    Table.content (fun _ => none) 0 = none ∧
      eccValidateSignature samplePlatform (fun _ => none) [1, 2] 0 0 leftover =
        (0, [.verify [1, 2] intruderKey 0]) ∧
      eccGetEcdh samplePlatform (fun _ => none) ⟨0, ⟨0, 0, 0⟩, 0⟩ 0 0 leftover =
        ⟨0, 0, ⟨0, ⟨0, 0, 0⟩, 0⟩, [.dh 0 intruderKey]⟩ := by
  refine ⟨rfl, ?_, ?_⟩
  · rw [validate_absent tableSqlite_isMap.toReads rfl, leftover_key]
    decide
  · rw [agree_absent tableSqlite_isMap.toReads rfl, leftover_key]
    decide

end KeyLookup
