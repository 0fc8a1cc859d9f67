import HmkitWorkspace.StateViews
import HmkitWorkspace.AuxiliaryVariables
import HmkitWorkspace.KeyLookup

/-! # The identity behind the getters

Serial and public key are kept twice, in the certificate and in `hm_car`, which also holds the
private key and is refreshed by the getter. What can be observed are the three credentials set
last. -/
namespace IdentityGetters

open TransitionRuns StateViews AuxiliaryVariables ByteBuffers HmSdkConfig HmkitCorePersistenceHal
  HmkitCoreCryptoHal KeyLookup

variable {σ : Type*}

/-- Setters, getters, and the calls that use a key. -/
inductive Event (σ : Type*) where
  | setDeviceCertificate (device : Buffer 153)
  | setDevPrv (prv : PrivateKey)
  | setIssuerPub (pub : PublicKey)
  | getSerial
  | getSerialPublicPrivate
  | getLocalPublicKey
  | getDeviceCertificate
  | getCaPublicKey
  | getOemCaPublicKey
  | eccGetEcdh (db : σ) (serial : Serial) (ecdh : SharedSecret) (l : Locals)
  | eccAddSignature (data : List UInt8) (signature : Signature)
  | eccValidateCaSignature (data : List UInt8) (signature : Signature)
  | eccValidateOemCaSignature (data : List UInt8) (signature : Signature)

def Event.sets : Event σ → Bool
  | .setDeviceCertificate _ => true
  | .setDevPrv _ => true
  | .setIssuerPub _ => true
  | _ => false

inductive Answer where
  | serial (serial : Serial)
  | hmCar (hmCar : HmCar)
  | publicKey (key : PublicKey)
  | certificate (cert : Buffer 153)
  | ecdh (ret : UInt32) (ecdh : SharedSecret) (calls : List CryptoCall)
  | signature (ret : UInt32) (signature : Signature) (calls : List CryptoCall)
  | verified (ret : UInt32) (calls : List CryptoCall)
  deriving DecidableEq

def step (p : Platform σ) : StepFunction Config (Event σ) Answer := fun c e =>
  match e with
  | .setDeviceCertificate device => some (setDeviceCertificate c device, [])
  | .setDevPrv prv => some (setDevPrv c prv, [])
  | .setIssuerPub pub => some (setIssuerPub c pub, [])
  | .getSerial => some (c, [.serial (getSerial c)])
  | .getSerialPublicPrivate =>
    let r := getSerialPublicPrivate c
    some (r.1, [.hmCar r.2])
  | .getLocalPublicKey =>
    let r := getLocalPublicKey c
    some (r.1, [.publicKey r.2])
  | .getDeviceCertificate =>
    some (c, [.certificate (HmkitCorePersistenceHal.getDeviceCertificate c)])
  | .getCaPublicKey => some (c, [.publicKey (getCaPublicKey c)])
  | .getOemCaPublicKey => some (c, [.publicKey (getOemCaPublicKey c)])
  | .eccGetEcdh db serial ecdh l =>
    let r := eccGetEcdh p db c serial ecdh l
    some (r.config, [.ecdh r.ret r.ecdh r.calls])
  | .eccAddSignature data signature =>
    let r := eccAddSignature p c data signature
    some (r.2.1, [.signature r.1.1 r.1.2 r.2.2])
  | .eccValidateCaSignature data signature =>
    let r := eccValidateCaSignature p c data signature
    some (c, [.verified r.1 r.2])
  | .eccValidateOemCaSignature data signature =>
    let r := eccValidateOemCaSignature p c data signature
    some (c, [.verified r.1 r.2])

/-! ## The credentials -/

structure Credentials where
  certificate : Buffer 153
  privateKey : PrivateKey
  issuerPub : PublicKey

theorem serial_inside : 16 + 9 ≤ 153 := by decide

def Credentials.serial (k : Credentials) : Serial := k.certificate.slice 16 9 serial_inside

def Credentials.localPublicKey (k : Credentials) : PublicKey :=
  k.certificate.slice 25 64 (by decide)

/-- A key agreement with the private key of the credentials. -/
def Credentials.agree (k : Credentials) (p : Platform σ) (db : σ) (serial : Serial)
    (ecdh : SharedSecret) (l : Locals) : Answer :=
  let r := getAccessCertificate p.sqlite db serial l.cert l.sizeTmp
  let key := (p.certGetAsStruct r.cert l.certificate).publicKey
  let shared := p.crypto.dh k.privateKey key ecdh
  if r.ret = 1 then .ecdh 1 ecdh [] else .ecdh shared.1 shared.2 [.dh k.privateKey key]

/-- What each call is to answer under the credentials. -/
def Credentials.answer (p : Platform σ) (k : Credentials) : Event σ → List Answer
  | .getSerial => [.serial k.serial]
  | .getSerialPublicPrivate => [.hmCar ⟨k.serial, k.localPublicKey, k.privateKey⟩]
  | .getLocalPublicKey => [.publicKey k.localPublicKey]
  | .getDeviceCertificate => [.certificate k.certificate]
  | .getCaPublicKey => [.publicKey k.issuerPub]
  | .getOemCaPublicKey => [.publicKey 0]
  | .eccGetEcdh db serial ecdh l => [k.agree p db serial ecdh l]
  | .eccAddSignature data signature =>
    let signed := p.crypto.signature data k.privateKey signature
    [.signature signed.1 signed.2 [.signature data k.privateKey]]
  | .eccValidateCaSignature data signature =>
    [.verified (p.crypto.verify data k.issuerPub signature)
      [.verify data k.issuerPub signature]]
  | .eccValidateOemCaSignature data signature =>
    [.verified (p.crypto.verify data 0 signature) [.verify data 0 signature]]
  | _ => []

/-- Only setters change credentials. -/
def Credentials.after (k : Credentials) : Event σ → Credentials
  | .setDeviceCertificate device => { k with certificate := device }
  | .setDevPrv prv => { k with privateKey := prv }
  | .setIssuerPub pub => { k with issuerPub := pub }
  | _ => k

def credentialStep (p : Platform σ) : StepFunction Credentials (Event σ) Answer :=
  fun k e => some (k.after e, k.answer p e)

/-- The credentials in the static data; what `hm_car` repeats of the certificate is not read. -/
def credentials (c : Config) : Credentials :=
  ⟨c.mLinkDeviceCertificate, c.hmCar.privateKey, c.mDeviceCertIssuerPub⟩

/-- Static storage before anything is set. -/
def initial : Config := ⟨0, ⟨0, 0, 0⟩, 0⟩

/-- The static data with the credentials set last beside it. -/
abbrev Recorded := Augmented Config Credentials

def recordedStep (p : Platform σ) : StepFunction Recorded (Event σ) Answer :=
  augment (step p) fun _ k e _ => k.after e

def Recorded.initial : Recorded := ⟨IdentityGetters.initial, ⟨0, 0, 0⟩⟩

variable {p : Platform σ} {c c' : Config} {e : Event σ} {out : List Answer} {w v : Recorded}
  {tr : List (Transition Recorded (Event σ) Answer)}

/-! ## One call -/

theorem agree_eq (p : Platform σ) (db : σ) (c : Config) (serial : Serial) (ecdh : SharedSecret)
    (l : Locals) :
    (step p c (.eccGetEcdh db serial ecdh l)).map (fun r => (credentials r.1, r.2)) =
      some (credentials c, [(credentials c).agree p db serial ecdh l]) := by
  simp only [step, eccGetEcdh, Credentials.agree]
  split
  · rfl
  · rfl

/-- What is answered, and what the credentials are afterwards, is a matter of the credentials
before. -/
theorem credentials_determine (p : Platform σ) :
    Determines credentials (step p) (credentialStep p) := by
  intro c e
  cases e with
  | eccGetEcdh db serial ecdh l => exact agree_eq p db c serial ecdh l
  | _ => rfl

theorem keeps_credentials (hs : step p c e = some (c', out)) (getter : e.sets = false) :
    credentials c' = credentials c := by
  have after := (credentials_determine p).emits hs
  obtain ⟨same, _⟩ := total_step after
  rw [← same]
  cases e with
  | setDeviceCertificate | setDevPrv | setIssuerPub => cases getter
  | _ => rfl

/-! ## Runs -/

/-- The static data holds the credentials that were set last. -/
theorem holds_record (h : Execution (recordedStep p) (fun _ _ => True) Recorded.initial tr w) :
    credentials w.state = w.record := by
  apply h.invariant (fun w => credentials w.state = w.record) rfl
  intro w e out v before _ hs
  obtain ⟨hstep, hrecord⟩ := augment_step hs
  obtain ⟨after, _⟩ := total_step ((credentials_determine p).emits hstep)
  rw [hrecord, ← before, ← after]

/-- Each call of a run answers by the credentials set last; setters of different items
commute; and whatever follows a getter is answered as if it had not been called. -/
theorem identity_getters
    (h : Execution (recordedStep p) (fun _ _ => True) Recorded.initial tr w) :
    (∀ t ∈ tr, t.outputs = t.pre.record.answer p t.event) ∧
    (∀ (c : Config) device prv pub,
      setDevPrv (setDeviceCertificate c device) prv =
        setDeviceCertificate (setDevPrv c prv) device ∧
      setIssuerPub (setDeviceCertificate c device) pub =
        setDeviceCertificate (setIssuerPub c pub) device ∧
      setIssuerPub (setDevPrv c prv) pub = setDevPrv (setIssuerPub c pub) prv) ∧
    ∀ c c' e out, step p c e = some (c', out) → e.sets = false →
      ∀ es, answers (step p) c' es = answers (step p) c es := by
  refine ⟨?_, ?_, ?_⟩
  · intro t ht
    obtain ⟨earlier, hx, _, hs⟩ := h.transition ht
    obtain ⟨_, answered⟩ := total_step ((credentials_determine p).emits (augment_step hs).1)
    rw [← answered, holds_record hx]
  · intro c device prv pub
    exact ⟨rfl, rfl, rfl⟩
  · intro c c' e out hs getter es
    exact (credentials_determine p).congr (keeps_credentials hs getter) es

def someDevice : Buffer 153 := ⟨List.replicate 153 7, List.length_replicate⟩

theorem identity_getters_signing :
    ∃ tr w, run (recordedStep samplePlatform) Recorded.initial [.setDevPrv 0, .getSerial,
        .setDeviceCertificate someDevice, .eccAddSignature [1] 0, .getLocalPublicKey] =
          some (tr, w) ∧
      outputsOf tr = [.serial 0, .signature 1 0 [.signature [1] 0], .publicKey intruderKey] ∧
      ∀ t ∈ tr, t.outputs = t.pre.record.answer samplePlatform t.event := by
  refine ⟨_, _, rfl, by decide, (identity_getters (execution_of_run [.setDevPrv 0, .getSerial,
    .setDeviceCertificate someDevice, .eccAddSignature [1] 0, .getLocalPublicKey] rfl
      fun _ _ => trivial)).1⟩

end IdentityGetters
