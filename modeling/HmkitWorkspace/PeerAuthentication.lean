import HmkitWorkspace.IndexedSystems
import HmkitWorkspace.Keyring

/-! # Devices that know each other's keys

Any number of devices run the module, each called in its own order. What one of them signs is
accepted, and the secrets that two of them derive are the same, when the one that is asked
holds a certificate with the key that belongs to the other's private key. -/
namespace PeerAuthentication

open TransitionRuns IndexedSystems ByteBuffers HmSdkConfig HmkitCorePersistenceHal
  HmkitCoreCryptoHal PycBindings HmPyc Keyring

variable {ι σ Obj : Type*} [DecidableEq ι]

/-- Signing and key agreement as the library documents them, for pairs of keys. -/
structure CryptoLaws (crypto : CryptoLibrary) (KeyPair : PrivateKey → PublicKey → Prop) :
    Prop where
  verifies : ∀ prv pub, KeyPair prv pub → ∀ m signature,
    crypto.verify m pub (crypto.signature m prv signature).2 = 0
  agrees : ∀ prv pub prv' pub', KeyPair prv pub → KeyPair prv' pub' → ∃ secret, ∀ ecdh,
    crypto.dh prv pub' ecdh = (0, secret) ∧ crypto.dh prv' pub ecdh = (0, secret)

abbrev Step (ι σ Obj : Type*) :=
  Transition (ι → Kept σ Obj) (ι × HmPyc.Event Obj) (HmPyc.Answer Obj)

/-- A step in which a device signs a message, for Python or for the core. -/
inductive Signed (t : Step ι σ Obj) (m : List UInt8) (sig : Signature) : Prop where
  | python (signature : Signature)
      (event : t.event.2 = .python (.generateSignature [.bytes m] signature))
      (sent : .result (.bytesTuple sig.bytes) ∈ t.outputs)
  | core (signature : Signature) (ret : UInt32) (calls : List CryptoCall)
      (event : t.event.2 = .hal (.eccAddSignature m signature))
      (sent : .identity (.signature ret sig calls) ∈ t.outputs)

def Step.keys (t : Step ι σ Obj) : Keys := (t.pre t.event.1).record

/-- The keys hold a certificate for the serial with the key of the other one's private key. -/
def Knows (keyOf : List UInt8 → PublicKey) (KeyPair : PrivateKey → PublicKey → Prop) (k : Keys)
    (serial : Serial) (other : Keys) : Prop :=
  ∃ c, k.certificates serial = some c ∧ KeyPair other.credentials.privateKey (keyOf c)

variable {p : Platform σ} {stored : σ → Serial → Option (List UInt8)}
  {keyOf : List UInt8 → PublicKey} {WellFormed : List UInt8 → Prop}
  {KeyPair : PrivateKey → PublicKey → Prop} {tr : List (Step ι σ Obj)} {s : ι → Kept σ Obj}
  {db : ι → σ} {t t' : Step ι σ Obj} {m : List UInt8} {sig : Signature} {serial serial' : Serial}

/-- The devices run interleaved, each called lawfully: with credentials of the exact sizes,
messages and certificates of up to 255 bytes, and only for certificates it holds. -/
abbrev Interleaved (p : Platform σ) (WellFormed : List UInt8 → Prop) (db : ι → σ)
    (tr : List (Step ι σ Obj)) (s : ι → Kept σ Obj) : Prop :=
  Execution (each ι (keptStep p)) (fun s x => (s x.1).record.Lawful WellFormed x.2)
    (fun i => .initial (db i)) tr s

theorem answers (laws : PlatformLaws p stored keyOf WellFormed)
    (h : Interleaved p WellFormed db tr s) (ht : t ∈ tr) :
    t.keys.Answer p keyOf t.event.2 t.outputs := by
  have own := Execution.history (G := fun (w : Kept σ Obj) e => w.record.Lawful WellFormed e) h
    t.event.1
  exact (keyring_refinement laws own).1 _ (alone_mem ht)

omit [DecidableEq ι] in
theorem signature_of (answer : t.keys.Answer p keyOf t.event.2 t.outputs)
    (signed : Signed t m sig) :
    ∃ signature, sig = (p.crypto.signature m t.keys.credentials.privateKey signature).2 := by
  cases signed with
  | python signature event sent =>
    rw [event, Keys.Answer] at answer
    split at answer
    · obtain ⟨_, ⟨⟩, out⟩ := answer
      refine ⟨signature, Buffer.ext ?_⟩
      simpa [out] using sent
    · rw [answer] at sent
      simp [refusal] at sent
  | core signature ret calls event sent =>
    rw [event] at answer
    obtain ⟨_, ⟨⟩, out⟩ := answer
    simp only [out, IdentityGetters.Credentials.answer, List.map_singleton, List.mem_singleton,
      HmPyc.Answer.identity.injEq, IdentityGetters.Answer.signature.injEq] at sent
    exact ⟨signature, sent.2.1⟩

/-- In any interleaving in which every call to every device is lawful: a signature made on one
device validates on every device that knows the signer's key under the serial it asks for, and
two devices that know each other's keys derive one secret. -/
theorem peer_authentication (laws : PlatformLaws p stored keyOf WellFormed)
    (crypto : CryptoLaws p.crypto KeyPair) (h : Interleaved p WellFormed db tr s) :
    (∀ t ∈ tr, ∀ m sig, Signed t m sig → ∀ t' ∈ tr, ∀ serial l,
      t'.event.2 = .hal (.eccValidateSignature m sig serial l) →
      Knows keyOf KeyPair t'.keys serial t.keys →
      ∃ calls, t'.outputs = [.identity (.verified 0 calls)]) ∧
    ∀ t ∈ tr, ∀ t' ∈ tr, ∀ serial ecdh l serial' ecdh' l',
      t.event.2 = .hal (.eccGetEcdh serial ecdh l) →
      t'.event.2 = .hal (.eccGetEcdh serial' ecdh' l') →
      Knows keyOf KeyPair t.keys serial t'.keys → Knows keyOf KeyPair t'.keys serial' t.keys →
      ∃ secret calls calls', t.outputs = [.identity (.ecdh 0 secret calls)] ∧
        t'.outputs = [.identity (.ecdh 0 secret calls')] := by
  constructor
  · intro t ht m sig signed t' ht' serial l event knows
    obtain ⟨signature, rfl⟩ := signature_of (answers laws h ht) signed
    have answer := answers laws h ht'
    rw [event] at answer
    obtain ⟨c, held, out⟩ := answer
    obtain ⟨c', held', pair⟩ := knows
    obtain rfl : c = c' := Option.some.inj (held.symm.trans held')
    rw [crypto.verifies _ _ pair] at out
    exact ⟨_, out⟩
  · intro t ht t' ht' serial ecdh l serial' ecdh' l' event event' knows knows'
    have answer := answers laws h ht
    have answer' := answers laws h ht'
    rw [event] at answer
    rw [event'] at answer'
    obtain ⟨c, held, out⟩ := answer
    obtain ⟨c', held', out'⟩ := answer'
    obtain ⟨d, known, pair⟩ := knows
    obtain ⟨d', known', pair'⟩ := knows'
    obtain rfl : c = d := Option.some.inj (held.symm.trans known)
    obtain rfl : c' = d' := Option.some.inj (held'.symm.trans known')
    obtain ⟨secret, derived⟩ := crypto.agrees _ _ _ _ pair' pair
    rw [(derived ecdh).1] at out
    rw [(derived ecdh').2] at out'
    exact ⟨secret, _, _, out, out'⟩

/-! ## Two devices -/

def filled (n : ℕ) (b : UInt8) : Buffer n := ⟨List.replicate n b, List.length_replicate⟩

def tag {n : ℕ} (key : Buffer n) : UInt8 := key.bytes.headD 0

/-- Keys belong together when they begin alike. -/
def tagCrypto : CryptoLibrary where
  dh prv pub _ := (0, filled 32 (tag prv + tag pub))
  signature m prv _ := (0, filled 64 (m.headD 0 + tag prv))
  verify m pub sig := if sig = filled 64 (m.headD 0 + tag pub) then 0 else 1

theorem tagCrypto_laws : CryptoLaws tagCrypto fun prv pub => tag prv = tag pub := by
  constructor
  · intro prv pub pair m signature
    simp [tagCrypto, pair]
  · intro prv pub prv' pub' pair pair'
    refine ⟨filled 32 (tag prv + tag prv'), ?_⟩
    intro ecdh
    simp [tagCrypto, pair, pair', UInt8.add_comm]

/-- The first device has a private key that begins with 3. -/
def credentials : HmPyc.Event ℕ :=
  .python (.setCerts [.bytes (List.replicate 153 0), .bytes (List.replicate 32 3),
    .bytes (List.replicate 64 0)] ⟨0, 0, 0⟩)

/-- The certificate for it carries a public key that begins with 3. -/
def certificate : HmPyc.Event ℕ :=
  .hal (.addAccessCertificate AccessCertificateStore.someSerial (List.replicate 89 3))

def sent : Signature :=
  (tagCrypto.signature [1] (Buffer.ofMemory 32 (List.replicate 32 3) 0) 0).2

def validation : HmPyc.Event ℕ :=
  .hal (.eccValidateSignature [1] sent AccessCertificateStore.someSerial ⟨0, ⟨0, 0⟩, 0⟩)

def calls : List (Bool × HmPyc.Event ℕ) :=
  [(false, credentials), (true, certificate), (false, .python (.generateSignature [.bytes [1]] 0)),
    (true, validation)]

section

-- the arguments of `set_certs` are walked through to see that none is empty
set_option maxRecDepth 4000

theorem peer_authentication_two_devices :
    ∃ tr s, run (each Bool (keptStep { KeyLookup.samplePlatform with crypto := tagCrypto }))
        (fun _ => .initial fun _ => none) calls = some (tr, s) ∧
      ∃ t ∈ tr, t.event = (true, validation) ∧
        ∃ calls, t.outputs = [.identity (.verified 0 calls)] := by
  have stored : (List.replicate 89 (3 : UInt8)).length = 89 := List.length_replicate
  have h : Interleaved { KeyLookup.samplePlatform with crypto := tagCrypto }
      (fun c => 89 ≤ c.length) (fun (_ : Bool) _ => none) _ _ := execution_of_run calls rfl (by
    rintro t (_ | ⟨_, _ | ⟨_, _ | ⟨_, _ | ⟨_, ⟨⟩⟩⟩⟩⟩)
    · exact fun _ => ⟨_, _, _, _, rfl,
        dif_pos ⟨List.length_replicate, List.length_replicate, List.length_replicate⟩⟩
    · exact stored.le.trans (by decide)
    · exact fun _ => ⟨[1], rfl, by decide⟩
    · exact ⟨_, by rfl, stored.ge⟩)
  have accepted := (peer_authentication (tablePlatform_laws tagCrypto) tagCrypto_laws h).1
  have signed := accepted _ (.tail _ (.tail _ (.head _))) [1] sent
    (.python 0 rfl (.tail _ (.head _)))
  have verified := signed _ (.tail _ (.tail _ (.tail _ (.head _)))) _ _ rfl ⟨_, by rfl, by rfl⟩
  exact ⟨_, _, rfl, _, .tail _ (.tail _ (.tail _ (.head _))), rfl, verified⟩

end

end PeerAuthentication
