import HmkitWorkspace.AccessCertificateStore
import HmkitWorkspace.HmPyc

/-! # The keyring the module is meant to be

A device's own credentials and the access certificates of others, with what each call should
answer. Over whole runs the module answers so, as long as its arguments are not cut on the way
and a certificate is only asked for while one is there. -/
namespace Keyring

open TransitionRuns AuxiliaryVariables StateViews ByteBuffers HmSdkConfig HmkitCorePersistenceHal
  HmkitCoreCryptoHal PycBindings PycExtension IdentityGetters HmPyc

variable {σ Obj : Type*}

structure Keys where
  credentials : Credentials
  certificates : Serial → Option (List UInt8)

inductive Request where
  | install (credentials : Credentials)
  | store (serial : Serial) (certificate : List UInt8)
  | delete (serial : Serial)

def Keys.after (k : Keys) : Request → Keys
  | .install credentials => { k with credentials := credentials }
  | .store serial certificate =>
    { k with certificates := Function.update k.certificates serial (some certificate) }
  | .delete serial => { k with certificates := Function.update k.certificates serial none }

def Keys.empty : Keys := ⟨⟨0, 0, 0⟩, fun _ => none⟩

/-- Three byte strings of the right sizes. -/
def credentialsOf (cert prv pub : List UInt8) : Option Credentials :=
  if h : cert.length = 153 ∧ prv.length = 32 ∧ pub.length = 64 then
    some ⟨⟨cert, h.1⟩, ⟨prv, h.2.1⟩, ⟨pub, h.2.2⟩⟩
  else none

def serialArg (args : List PyObject) : Option Serial := (parseBytes args).bind serialAt

/-- What a call asks the keyring to do, if anything. -/
def request : HmPyc.Event Obj → Option Request
  | .python method =>
    match method with
    | .setCerts args _ =>
      (parseThreeBytes args).bind fun (cert, prv, pub) =>
        (credentialsOf cert prv pub).map .install
    | .storeCertificate args =>
      (parseTwoBytes args).bind fun (certf, serNum) =>
        if certf = [] then none else (serialAt serNum).map fun serial => .store serial certf
    | .deleteCertificate args _ => (serialArg args).map .delete
    | _ => none
  | .report _ => none
  | .hal call =>
    match call with
    | .addAccessCertificate serial cert => some (.store serial cert)
    | .removeAccessCertificate certificate => some (.delete certificate.serial)
    | .eraseAccessCertificate certificate _ => some (.delete certificate.serial)
    | _ => none

def Keys.call (k : Keys) (e : HmPyc.Event Obj) : Keys :=
  match request e with
  | none => k
  | some r => k.after r

/-- The calls into the HAL that are answered from the credentials alone. -/
def credentialCall (σ : Type*) : HalCall → Option (IdentityGetters.Event σ)
  | .getSerial => some .getSerial
  | .getLocalPublicKey => some .getLocalPublicKey
  | .getDeviceCertificate => some .getDeviceCertificate
  | .getCaPublicKey => some .getCaPublicKey
  | .getOemCaPublicKey => some .getOemCaPublicKey
  | .eccAddSignature data signature => some (.eccAddSignature data signature)
  | .eccValidateCaSignature data signature => some (.eccValidateCaSignature data signature)
  | .eccValidateOemCaSignature data signature => some (.eccValidateOemCaSignature data signature)
  | _ => none

section Answers

variable (p : Platform σ) (keyOf : List UInt8 → PublicKey)

/-- The answer to an accepted method. Of those that have nothing to do with the keyring, only
that they report success in the end. -/
def Keys.MethodAnswer (k : Keys) : Method Obj → List (HmPyc.Answer Obj) → Prop
  | .setCerts .., out => out = [.result (.long 0)]
  | .generateSignature args signature, out => ∃ m, parseBytes args = some m ∧
    out = [.openssl (.signature m k.credentials.privateKey), .result (.bytesTuple
      (p.crypto.signature m k.credentials.privateKey signature).2.bytes)]
  | .storeCertificate _, out => out = [.result (.long 0)]
  | .getCertificate args _ _, out => ∃ serial c, serialArg args = some serial ∧
    k.certificates serial = some c ∧ out = [.result (.bytesTuple c)]
  | .deleteCertificate .., out => out = [.result (.long 0)]
  | _, out => out.getLast? = some (.result (.long 0))

def Keys.HalAnswer (k : Keys) : HalCall → List (HmPyc.Answer Obj) → Prop
  | .addAccessCertificate .., out => out = [.ret 0]
  | .removeAccessCertificate _, out => out = [.ret 0]
  | .eraseAccessCertificate _ left, out => out = [.ret left]
  | .getAccessCertificate serial _ _, out => ∃ c r, k.certificates serial = some c ∧
    out = [.found r] ∧ r.ret = 0 ∧ r.cert.bytes.take r.size.toNat = c
  | .eccGetEcdh serial ecdh _, out => ∃ c, k.certificates serial = some c ∧
    let shared := p.crypto.dh k.credentials.privateKey (keyOf c) ecdh
    out = [.identity (.ecdh shared.1 shared.2 [.dh k.credentials.privateKey (keyOf c)])]
  | .eccValidateSignature data signature serial _, out => ∃ c, k.certificates serial = some c ∧
    out = [.identity (.verified (p.crypto.verify data (keyOf c) signature)
      [.verify data (keyOf c) signature])]
  | call, out => ∃ e, credentialCall σ call = some e ∧
    out = (k.credentials.answer p e).map .identity

def Keys.Answer (k : Keys) : HmPyc.Event Obj → List (HmPyc.Answer Obj) → Prop
  | .python method, out =>
    if accepted method then k.MethodAnswer p method out else out = refusal method
  | .report _, out => ∃ calls : List (PycCallbacks.Call Obj), out = calls.map .runtime
  | .hal call, out => k.HalAnswer p keyOf call out

end Answers

section Lawful

variable (WellFormed : List UInt8 → Prop)

/-- No argument is cut, no serial read past its end, and a certificate that is asked for is
there. A delete is lawful with any serial. -/
def Keys.LawfulMethod (k : Keys) : Method Obj → Prop
  | .setCerts args _ => ∃ cert prv pub credentials, parseThreeBytes args = some (cert, prv, pub) ∧
    credentialsOf cert prv pub = some credentials
  | .generateSignature args _ => ∃ m, parseBytes args = some m ∧ m.length ≤ 255
  | .storeCertificate args => ∃ certf serNum serial, parseTwoBytes args = some (certf, serNum) ∧
    certf.length ≤ 255 ∧ serialAt serNum = some serial
  | .getCertificate args _ _ => ∃ serial c, serialArg args = some serial ∧
    k.certificates serial = some c
  | _ => True

/-- A key is only read from a well-formed certificate. -/
def Keys.LawfulHal (k : Keys) : HalCall → Prop
  | .addAccessCertificate _ cert => cert.length ≤ 255
  | .getAccessCertificate serial _ _ => ∃ c, k.certificates serial = some c
  | .eccGetEcdh serial _ _ => ∃ c, k.certificates serial = some c ∧ WellFormed c
  | .eccValidateSignature _ _ serial _ => ∃ c, k.certificates serial = some c ∧ WellFormed c
  | _ => True

def Keys.Lawful (k : Keys) : HmPyc.Event Obj → Prop
  | .python method => accepted method = true → k.LawfulMethod method
  | .report _ => True
  | .hal call => k.LawfulHal WellFormed call

end Lawful

/-- The module holds what the keyring holds; it may hold certificates that were deleted. -/
structure Keys.Holds (stored : σ → Serial → Option (List UInt8)) (k : Keys)
    (s : HmPyc.State σ Obj) : Prop where
  credentials : IdentityGetters.credentials s.config = k.credentials
  certificates : ∀ serial c, k.certificates serial = some c → stored s.db serial = some c

/-- The SQLite layer is a map, and the parser of the core takes the public key of a well-formed
certificate from the certificate's own bytes. -/
structure PlatformLaws (p : Platform σ) (stored : σ → Serial → Option (List UInt8))
    (keyOf : List UInt8 → PublicKey) (WellFormed : List UInt8 → Prop) : Prop where
  isMap : p.sqlite.IsMap stored
  parses : ∀ c, WellFormed c → ∀ (cert cert' : Buffer 256) certificate,
    cert.memcpy c = some cert' → (p.certGetAsStruct cert' certificate).publicKey = keyOf c

/-- The module with the keyring it is meant to be beside it. -/
abbrev Kept (σ Obj : Type*) := Augmented (HmPyc.State σ Obj) Keys

def keptStep (p : Platform σ) : StepFunction (Kept σ Obj) (HmPyc.Event Obj) (HmPyc.Answer Obj) :=
  augment (HmPyc.step p) fun _ k e _ => k.call e

def Kept.initial (db : σ) : Kept σ Obj := ⟨HmPyc.initial db, Keys.empty⟩

variable {p : Platform σ} {keyOf : List UInt8 → PublicKey} {WellFormed : List UInt8 → Prop}
  {stored : σ → Serial → Option (List UInt8)} {k : Keys} {s u : HmPyc.State σ Obj}
  {m : Method Obj} {e : HmPyc.Event Obj} {out : List (HmPyc.Answer Obj)} {serial : Serial}
  {c cert prv pub : List UInt8}

/-! ## Holding -/

theorem credentialsOf_eq {credentials : Credentials}
    (h : credentialsOf cert prv pub = some credentials) (behind : Behind) :
    credentials = ⟨Buffer.ofMemory 153 cert behind.devCert, Buffer.ofMemory 32 prv behind.prv,
      Buffer.ofMemory 64 pub behind.issrPub⟩ := by
  unfold credentialsOf at h
  split at h
  · rename_i sizes
    cases h
    congr <;> symm
    · exact (Buffer.ofMemory_eq_iff _).mpr sizes.1
    · exact (Buffer.ofMemory_eq_iff _).mpr sizes.2.1
    · exact (Buffer.ofMemory_eq_iff _).mpr sizes.2.2
  · cases h

/-- A stored certificate is there afterwards, and none of the others goes. -/
theorem Keys.Holds.store (holds : k.Holds stored s) (isMap : p.sqlite.IsMap stored)
    (short : c.length ≤ 255) (serial : Serial) :
    (k.after (.store serial c)).Holds stored
      { s with db := (p.sqlite.addAccessCert s.db serial c).1 } := by
  refine ⟨holds.credentials, ?_⟩
  intro other c' h
  rw [isMap.add _ _ _ short]
  by_cases same : other = serial
  · subst same
    simpa [Keys.after] using h
  · simp only [Keys.after, Function.update_of_ne same] at h ⊢
    exact holds.certificates other c' h

/-- A certificate that the keyring forgets may stay in the database. -/
theorem Keys.Holds.delete (holds : k.Holds stored s) (serial : Serial) :
    (k.after (.delete serial)).Holds stored s := by
  refine ⟨holds.credentials, ?_⟩
  intro other c' h
  by_cases same : other = serial
  · subst same
    simp [Keys.after] at h
  · simp only [Keys.after, Function.update_of_ne same] at h
    exact holds.certificates other c' h

theorem Keys.Holds.privateKey (holds : k.Holds stored s) :
    s.config.hmCar.privateKey = k.credentials.privateKey :=
  congrArg Credentials.privateKey holds.credentials

/-- A getter may refresh the copy in `hm_car`. -/
theorem Keys.Holds.refresh (holds : k.Holds stored s) :
    k.Holds stored { s with config := (getSerialPublicPrivate s.config).1 } :=
  ⟨holds.credentials, holds.certificates⟩

/-! ## One call -/

/-- A method that the keyring answers, with the module holding afterwards what the keyring does. -/
def Keys.Serves (p : Platform σ) (stored : σ → Serial → Option (List UInt8)) (k : Keys)
    (s : HmPyc.State σ Obj) (m : Method Obj) : Prop :=
  ∃ u out, HmPyc.step p s (.python m) = some (u, out) ∧ (k.call (.python m)).Holds stored u ∧
    k.MethodAnswer p m out

theorem setCerts_served {args : List PyObject} {behind : Behind} (holds : k.Holds stored s)
    (usable : accepted (.setCerts args behind : Method Obj) = true)
    (lawful : k.LawfulMethod (.setCerts args behind : Method Obj)) :
    k.Serves p stored s (.setCerts args behind) := by
  obtain ⟨cert, prv, pub, credentials, parsed, sizes⟩ := lawful
  have nonempty : cert ≠ [] ∧ prv ≠ [] ∧ pub ≠ [] := by simpa [accepted, parsed] using usable
  have asked : request (.python (.setCerts args behind) : HmPyc.Event Obj) =
      some (.install credentials) := by simp [request, parsed, sizes]
  obtain rfl := parseThreeBytes_eq parsed
  refine ⟨_, _, rfl, ⟨?_, ?_⟩, ?_⟩
  · rw [setCerts_accepted behind nonempty.1 nonempty.2.1 nonempty.2.2, Keys.call, asked]
    exact (credentialsOf_eq sizes behind).symm
  · rw [Keys.call, asked]
    exact holds.certificates
  · rw [setCerts_accepted behind nonempty.1 nonempty.2.1 nonempty.2.2]
    rfl

theorem generateSignature_served {args : List PyObject} {signature : Signature}
    (holds : k.Holds stored s)
    (usable : accepted (.generateSignature args signature : Method Obj) = true)
    (lawful : k.LawfulMethod (.generateSignature args signature : Method Obj)) :
    k.Serves p stored s (.generateSignature args signature) := by
  obtain ⟨msg, parsed, short⟩ := lawful
  have nonempty : msg ≠ [] := by simpa [accepted, parsed] using usable
  have whole := (take_mod_eq_iff (show 0 < 256 by decide) msg).mpr (by omega)
  have signed : hmPycGenerateSignature p s.config args signature = _ :=
    generateSignature_accepted parsed nonempty
  rw [whole, holds.privateKey] at signed
  refine ⟨_, _, rfl, ?_, msg, parsed, ?_⟩
  · rw [signed]
    exact holds.refresh
  · rw [signed]
    rfl

theorem storeCertificate_served {args : List PyObject} (isMap : p.sqlite.IsMap stored)
    (holds : k.Holds stored s) (usable : accepted (.storeCertificate args : Method Obj) = true)
    (lawful : k.LawfulMethod (.storeCertificate args : Method Obj)) :
    k.Serves p stored s (.storeCertificate args) := by
  obtain ⟨certf, serNum, serial, parsed, short, hserial⟩ := lawful
  have nonempty : certf ≠ [] ∧ serNum ≠ [] := by simpa [accepted, parsed] using usable
  have whole := (take_mod_eq_iff (show 0 < 256 by decide) certf).mpr (by omega)
  have asked : request (.python (.storeCertificate args) : HmPyc.Event Obj) =
      some (.store serial certf) := by simp [request, parsed, nonempty.1, hserial]
  have added : hmPycStoreAccessCertificate p.sqlite s.db args = _ :=
    hmPycStore_accepted parsed nonempty.1 nonempty.2
  rw [whole, hserial] at added
  refine ⟨_, _, by rw [HmPyc.step, methodStep, added]; rfl, ?_, rfl⟩
  rw [Keys.call, asked]
  exact holds.store isMap short serial

theorem getCertificate_served {args : List PyObject} {accessCert : Buffer 256} {sizeTmp : UInt8}
    (isMap : p.sqlite.IsMap stored) (holds : k.Holds stored s)
    (usable : accepted (.getCertificate args accessCert sizeTmp : Method Obj) = true)
    (lawful : k.LawfulMethod (.getCertificate args accessCert sizeTmp : Method Obj)) :
    k.Serves p stored s (.getCertificate args accessCert sizeTmp) := by
  obtain ⟨serial, c, hserial, held⟩ := lawful
  obtain ⟨serNum, parsed, found⟩ := Option.bind_eq_some_iff.mp hserial
  have nonempty : serNum ≠ [] := by simpa [accepted, parsed] using usable
  have bytes := AccessCertificateStore.getAccessCertificate_bytes isMap.toReads s.db serial
    accessCert sizeTmp
  rw [holds.certificates serial c held, Option.getD_some] at bytes
  have read : hmPycGetAccessCertificate p.sqlite s.db args accessCert sizeTmp =
      some (.bytesTuple c) := by
    simp [hmPycGetAccessCertificate, parsed, nonempty, found, pyGetAccesscertificate, bytes]
  refine ⟨_, _, by rw [HmPyc.step, methodStep, read]; rfl, ?_, serial, c, hserial, held, rfl⟩
  exact ⟨holds.credentials, holds.certificates⟩

/-- The keyring forgets the certificate, the database does not. -/
theorem deleteCertificate_served {args : List PyObject} {left : HmkitCoreCertificate}
    (holds : k.Holds stored s)
    (usable : accepted (.deleteCertificate args left : Method Obj) = true) :
    k.Serves p stored s (.deleteCertificate args left) := by
  obtain ⟨serNum, parsed, nonempty⟩ := nonempty_accepted usable
  have deleted : hmPycDeleteAccessCertificate s.db args left = (s.db, .long 0) :=
    hmPycDelete_accepted parsed nonempty left
  refine ⟨s, [.result (.long 0)], by rw [HmPyc.step, methodStep, deleted], ?_, rfl⟩
  cases asked : serialArg args with
  | none => simpa [Keys.call, request, asked] using holds
  | some serial => simpa [Keys.call, request, asked] using holds.delete serial

theorem method_step (isMap : p.sqlite.IsMap stored) (holds : k.Holds stored s)
    (usable : accepted m = true) (lawful : k.LawfulMethod m) : k.Serves p stored s m := by
  cases m with
  | setCerts args behind => exact setCerts_served holds usable lawful
  | generateSignature args signature => exact generateSignature_served holds usable lawful
  | storeCertificate args => exact storeCertificate_served isMap holds usable lawful
  | getCertificate args accessCert sizeTmp =>
    exact getCertificate_served isMap holds usable lawful
  | deleteCertificate args left => exact deleteCertificate_served holds usable
  | sendcommand args =>
    obtain ⟨msg, parsed, nonempty⟩ := nonempty_accepted usable
    have sent : hmPycSendcommand s.callbacks args = _ := sendcommand_accepted parsed nonempty
    refine ⟨_, _, rfl, ⟨holds.credentials, holds.certificates⟩, ?_⟩
    rw [sent]
    exact List.getLast?_concat
  | registerCb callback =>
    obtain ⟨a, keyword, rfl, callable, named⟩ := callable_accepted usable
    refine ⟨_, _, rfl, ⟨holds.credentials, holds.certificates⟩, ?_⟩
    simp [Keys.MethodAnswer, PycCallbacks.hmPycRegisterCb, callable, named, registered]
  | setBleDeviceName args =>
    obtain ⟨name, parsed, size⟩ := name_accepted usable
    refine ⟨_, _, rfl, ⟨holds.credentials, holds.certificates⟩, ?_⟩
    simp [Keys.MethodAnswer, hmPycSetBleDeviceName, parsed, size]
  | bleAdvertisementStart | bleAdvertisementStop =>
    exact ⟨_, _, rfl, ⟨holds.credentials, holds.certificates⟩, List.getLast?_concat⟩

theorem hal_step (laws : PlatformLaws p stored keyOf WellFormed) (holds : k.Holds stored s)
    {call : HalCall} (lawful : k.LawfulHal WellFormed call) :
    ∃ u out, HmPyc.step p s (.hal call : HmPyc.Event Obj) = some (u, out) ∧
      (k.call (.hal call : HmPyc.Event Obj)).Holds stored u ∧ k.HalAnswer p keyOf call out := by
  refine ⟨_, _, rfl, ?_⟩
  have parses : ∀ {serial c}, k.certificates serial = some c → WellFormed c →
      KeyLookup.ParsesKey p (stored s.db serial) keyOf := by
    intro serial c held wellFormed c' found
    obtain rfl : c = c' := Option.some.inj ((holds.certificates serial c held).symm.trans found)
    exact laws.parses c wellFormed
  cases call with
  | addAccessCertificate serial cert => exact ⟨holds.store laws.isMap lawful serial, rfl⟩
  | removeAccessCertificate certificate => exact ⟨holds.delete certificate.serial, rfl⟩
  | eraseAccessCertificate certificate left => exact ⟨holds.delete certificate.serial, rfl⟩
  | getAccessCertificate serial cert sizeTmp =>
    obtain ⟨c, held⟩ := lawful
    refine ⟨holds, c, _, held, rfl, rfl, ?_⟩
    have bytes := AccessCertificateStore.getAccessCertificate_bytes laws.isMap.toReads s.db serial
      cert sizeTmp
    rwa [holds.certificates serial c held, Option.getD_some] at bytes
  | eccGetEcdh serial ecdh l =>
    obtain ⟨c, held, wellFormed⟩ := lawful
    have agreed : eccGetEcdh p s.db s.config serial ecdh l = _ :=
      KeyLookup.agree_present laws.isMap.toReads (parses held wellFormed)
        (holds.certificates serial c held) s.config ecdh l
    simp only [agreed]
    refine ⟨holds.refresh, c, held, ?_⟩
    rw [← holds.privateKey]
    rfl
  | eccValidateSignature data signature serial l =>
    obtain ⟨c, held, wellFormed⟩ := lawful
    have validated : eccValidateSignature p s.db data signature serial l = _ :=
      KeyLookup.validate_present laws.isMap.toReads (parses held wellFormed)
        (holds.certificates serial c held) data signature l
    simp only [validated]
    exact ⟨holds, c, held, rfl⟩
  | getLocalPublicKey =>
    refine ⟨holds.refresh, _, rfl, ?_⟩
    simp only [← holds.credentials]
    rfl
  | eccAddSignature data signature =>
    refine ⟨holds.refresh, _, rfl, ?_⟩
    simp only [← holds.credentials]
    rfl
  | _ =>
    refine ⟨holds, _, rfl, ?_⟩
    simp only [← holds.credentials]
    rfl

theorem refused_call (refused : accepted m = false) :
    k.call (.python m : HmPyc.Event Obj) = k := by
  have nothing : request (.python m : HmPyc.Event Obj) = none := by
    cases m with
    | setCerts args behind =>
      rcases parsed_refused refused with unparsed | ⟨⟨cert, prv, pub⟩, parsed, unusable⟩
      · simp [request, unparsed]
      · have sizes : ¬ (cert.length = 153 ∧ prv.length = 32 ∧ pub.length = 64) := by
          intro sizes
          have empty : ¬ (cert ≠ [] ∧ prv ≠ [] ∧ pub ≠ []) := by simpa using unusable
          exact empty ⟨List.ne_nil_of_length_pos (by omega), List.ne_nil_of_length_pos (by omega),
            List.ne_nil_of_length_pos (by omega)⟩
        simp [request, parsed, credentialsOf, sizes]
    | storeCertificate args =>
      rcases parsed_refused refused with unparsed | ⟨⟨certf, serNum⟩, parsed, unusable⟩
      · simp [request, unparsed]
      · by_cases empty : certf = []
        · simp [request, parsed, empty]
        · have none_left : serNum = [] := by simpa [empty] using unusable
          simp [request, parsed, empty, none_left, serialAt]
    | deleteCertificate args left =>
      rcases parsed_refused refused with unparsed | ⟨serNum, parsed, unusable⟩
      · simp [request, serialArg, unparsed]
      · have none_left : serNum = [] := by simpa using unusable
        simp [request, serialArg, parsed, none_left, serialAt]
    | _ => rfl
  rw [Keys.call, nothing]

theorem call_step (laws : PlatformLaws p stored keyOf WellFormed) (holds : k.Holds stored s)
    (lawful : k.Lawful WellFormed e) :
    ∃ u out, HmPyc.step p s e = some (u, out) ∧ (k.call e).Holds stored u ∧
      k.Answer p keyOf e out := by
  cases e with
  | python method =>
    cases usable : accepted method with
    | true =>
      obtain ⟨u, out, hs, after, answer⟩ := method_step laws.isMap holds usable (lawful usable)
      exact ⟨u, out, hs, after, by simpa [Keys.Answer, usable] using answer⟩
    | false =>
      refine ⟨s, refusal method, refused_step usable p s, ?_, by simp [Keys.Answer, usable]⟩
      rwa [refused_call usable]
  | report report =>
    obtain ⟨r, hr⟩ : ∃ r, PycCallbacks.step s.callbacks report.val = some r := by
      cases report.val <;> exact ⟨_, rfl⟩
    exact ⟨{ s with callbacks := r.1 }, r.2.map .runtime, by rw [HmPyc.step, hr]; rfl,
      ⟨holds.credentials, holds.certificates⟩, r.2, rfl⟩
  | hal call => exact hal_step laws holds lawful

/-! ## Runs -/

/-- Over a run of lawful calls, from both threads and in any order, the module holds what the
keyring holds: each call was answered as the keyring answers, and the next one will be. -/
theorem keyring_refinement (laws : PlatformLaws p stored keyOf WellFormed) {db : σ}
    {tr : List (Transition (Kept σ Obj) (HmPyc.Event Obj) (HmPyc.Answer Obj))} {w : Kept σ Obj}
    (h : Execution (keptStep p) (fun w e => w.record.Lawful WellFormed e) (.initial db) tr w) :
    (∀ t ∈ tr, t.pre.record.Answer p keyOf t.event t.outputs) ∧
    ∀ e, w.record.Lawful WellFormed e → ∃ v out, keptStep p w e = some (v, out) ∧
      v.record = w.record.call e ∧ w.record.Answer p keyOf e out := by
  have held : ∀ {tr w}, Execution (keptStep p) (fun w e => w.record.Lawful WellFormed e)
      (Kept.initial db : Kept σ Obj) tr w → w.record.Holds stored w.state := by
    intro tr w h
    apply h.invariant (fun w => w.record.Holds stored w.state) ⟨rfl, by rintro _ _ ⟨⟩⟩
    intro w e out v holds lawful hs
    obtain ⟨hstep, record⟩ := augment_step hs
    obtain ⟨_, _, hu, after, _⟩ := call_step laws holds lawful
    obtain ⟨rfl, _⟩ := total_step (hu.symm.trans hstep)
    rwa [record]
  constructor
  · intro t ht
    obtain ⟨earlier, hx, lawful, hs⟩ := h.transition ht
    obtain ⟨_, _, hu, _, answer⟩ := call_step laws (held hx) lawful
    obtain ⟨_, rfl⟩ := total_step (hu.symm.trans (augment_step hs).1)
    exact answer
  · intro e lawful
    obtain ⟨u, out, hu, _, answer⟩ := call_step laws (held h) lawful
    exact ⟨⟨u, w.record.call e⟩, out, by simp [keptStep, augment, hu], rfl, answer⟩

/-! ## An instance -/

/-- An access certificate carries its key behind the serial of its device. -/
def certificateKey (c : List UInt8) : PublicKey := Buffer.ofMemory 64 (c.drop 25) fun _ => 0

theorem tablePlatform_laws (crypto : CryptoLibrary) :
    PlatformLaws { KeyLookup.samplePlatform with crypto := crypto } Table.content certificateKey
      (fun c => 89 ≤ c.length) := by
  refine ⟨tableSqlite_isMap, ?_⟩
  intro c long cert cert' certificate hm
  apply Buffer.ext
  have inside : 64 ≤ (c.drop 25).length := by
    rw [List.length_drop]
    omega
  rw [certificateKey, Buffer.ofMemory_of_le inside]
  exact Buffer.slice_memcpy hm long

theorem keyring_refinement_two_calls :
    ∃ tr w, run (keptStep KeyLookup.samplePlatform) (Kept.initial (fun _ => none) : Kept Table ℕ)
        [.hal (.addAccessCertificate AccessCertificateStore.someSerial [7, 8]),
          .python (.getCertificate [.bytes AccessCertificateStore.someSerial.bytes] 0 0)] =
        some (tr, w) ∧
      ∀ t ∈ tr, t.pre.record.Answer KeyLookup.samplePlatform certificateKey t.event t.outputs := by
  have laws := tablePlatform_laws KeyLookup.sampleCrypto
  have h : Execution (keptStep KeyLookup.samplePlatform)
    (fun w e => w.record.Lawful (fun c => 89 ≤ c.length) e)
    (Kept.initial (fun _ => none) : Kept Table ℕ) _ _ := execution_of_run
      [.hal (.addAccessCertificate AccessCertificateStore.someSerial [7, 8]),
        .python (.getCertificate [.bytes AccessCertificateStore.someSerial.bytes] 0 0)] rfl (by
    rintro t (_ | ⟨_, _ | ⟨_, ⟨⟩⟩⟩)
    · exact (by decide : [7, 8].length ≤ 255)
    · exact fun _ => ⟨AccessCertificateStore.someSerial, [7, 8], rfl, by rfl⟩)
  exact ⟨_, _, rfl, (keyring_refinement laws h).1⟩

end Keyring
