import HmkitWorkspace.StateViews
import HmkitWorkspace.IdentityGetters
import HmkitWorkspace.PycExtension
import HmkitWorkspace.BleAdvertisement

/-! # The module `hm_pyc`

The functions that `EmbMethods` lists, except the two that start and leave the C thread, the
reports of the core to Python and its calls into the crypto and persistence HAL, over all the
static data behind them. -/
namespace HmPyc

open TransitionRuns StateViews ByteBuffers HmSdkConfig HmkitCorePersistenceHal HmkitCoreCryptoHal
  PycBindings PycExtension BleAdvertisement IdentityGetters

variable {σ Obj : Type*}

/-- The data of `hm_sdk_config.c`, `hmkit_core_connectivity_hal.c` and `pyc_bindings.c`, and
the database. -/
structure State (σ Obj : Type*) where
  db : σ
  config : Config
  advData : AdvData
  callbacks : PycCallbacks.State Obj

/-- A function called from Python, with what its uninitialised locals hold. -/
inductive Method (Obj : Type*) where
  | sendcommand (args : List PyObject)
  | setCerts (args : List PyObject) (behind : Behind)
  | registerCb (args : Option (PycCallbacks.CbArgument Obj))
  | generateSignature (args : List PyObject) (signature : Signature)
  | storeCertificate (args : List PyObject)
  | getCertificate (args : List PyObject) (accessCert : Buffer 256) (sizeTmp : UInt8)
  | deleteCertificate (args : List PyObject) (left : HmkitCoreCertificate)
  | bleAdvertisementStart
  | bleAdvertisementStop
  | setBleDeviceName (args : List PyObject)

/-- The five events that the core reports to Python, with callbacks that do not raise. After one
that does, the C thread keeps the GIL and the slot has lost its reference: no method can answer. -/
abbrev Report (Obj : Type*) := { e : PycCallbacks.Event Obj //
  (PycCallbacks.dispatched e).any fun (_, _, outcome) => outcome ≠ .raised }

/-- A function of the HAL called from the core. -/
inductive HalCall where
  | getSerial
  | getLocalPublicKey
  | getDeviceCertificate
  | getCaPublicKey
  | getOemCaPublicKey
  | addAccessCertificate (serial : Serial) (cert : List UInt8)
  | getAccessCertificate (serial : Serial) (cert : Buffer 256) (sizeTmp : UInt8)
  | removeAccessCertificate (certificate : HmkitCoreCertificate)
  | eraseAccessCertificate (certificate : HmkitCoreCertificate) (left : UInt32)
  | eccGetEcdh (serial : Serial) (ecdh : SharedSecret) (l : Locals)
  | eccAddSignature (data : List UInt8) (signature : Signature)
  | eccValidateSignature (data : List UInt8) (signature : Signature) (serial : Serial) (l : Locals)
  | eccValidateCaSignature (data : List UInt8) (signature : Signature)
  | eccValidateOemCaSignature (data : List UInt8) (signature : Signature)

inductive Event (Obj : Type*) where
  | python (method : Method Obj)
  | report (report : Report Obj)
  | hal (call : HalCall)

/-- What a call gives back, and the calls it makes on the way. -/
inductive Answer (Obj : Type*) where
  | result (value : PyResult)
  | runtime (call : PycCallbacks.Call Obj)
  | radio (call : BleAdvertisement.Call)
  | identity (answer : IdentityGetters.Answer)
  | found (certificate : GetResult)
  | ret (value : UInt32)
  | openssl (call : CryptoCall)

/-! ## From Python -/

/-- `hm_pyc_set_ble_device_name`. A name of another length than eight gives NULL, arguments
that do not parse give -1. -/
def hmPycSetBleDeviceName (advData : AdvData) (args : List PyObject) : AdvData × PyResult :=
  match parseBytes args with
  | none => (advData, .long (-1))
  | some str =>
    if h : str.length = 8 then (setBleName advData ⟨str, h⟩, .long 0) else (advData, .null)

/-- The two results of `hm_pyc_register_cb` among those of all functions. -/
def registered : PycCallbacks.PyResult → PyResult
  | .long value => .long value
  | .null => .null

def methodStep (p : Platform σ) (s : State σ Obj) :
    Method Obj → Option (State σ Obj × List (Answer Obj))
  | .sendcommand args =>
    let r := hmPycSendcommand s.callbacks args
    some (s, r.1.map .runtime ++ [.result r.2])
  | .setCerts args behind =>
    let r := hmPycSetCerts s.config args behind
    some ({ s with config := r.1 }, [.result r.2])
  | .registerCb args =>
    let r := PycCallbacks.hmPycRegisterCb s.callbacks args
    some ({ s with callbacks := r.1 }, r.2.1.map .runtime ++ [.result (registered r.2.2)])
  | .generateSignature args signature =>
    let r := hmPycGenerateSignature p s.config args signature
    some ({ s with config := r.config }, r.calls.map .openssl ++ [.result r.result])
  | .storeCertificate args =>
    (hmPycStoreAccessCertificate p.sqlite s.db args).map fun r =>
      ({ s with db := r.1 }, [.result r.2])
  | .getCertificate args accessCert sizeTmp =>
    (hmPycGetAccessCertificate p.sqlite s.db args accessCert sizeTmp).map fun r =>
      (s, [.result r])
  | .deleteCertificate args left =>
    let r := hmPycDeleteAccessCertificate s.db args left
    some ({ s with db := r.1 }, [.result r.2])
  | .bleAdvertisementStart =>
    let r := pyBleAdvertisementStart ⟨s.advData, s.config⟩
    some ({ s with advData := r.1.advData }, r.2.map .radio ++ [.result (.long 0)])
  | .bleAdvertisementStop =>
    some (s, (pyBleAdvertisementStop ⟨s.advData, s.config⟩).2.map .radio ++ [.result (.long 0)])
  | .setBleDeviceName args =>
    let r := hmPycSetBleDeviceName s.advData args
    some ({ s with advData := r.1 }, [.result r.2])

/-! ## From the core -/

def halStep (p : Platform σ) (s : State σ Obj) : HalCall → State σ Obj × List (Answer Obj)
  | .getSerial => (s, [.identity (.serial (getSerial s.config))])
  | .getLocalPublicKey =>
    let r := getLocalPublicKey s.config
    ({ s with config := r.1 }, [.identity (.publicKey r.2)])
  | .getDeviceCertificate =>
    (s, [.identity (.certificate (HmkitCorePersistenceHal.getDeviceCertificate s.config))])
  | .getCaPublicKey => (s, [.identity (.publicKey (getCaPublicKey s.config))])
  | .getOemCaPublicKey => (s, [.identity (.publicKey (getOemCaPublicKey s.config))])
  | .addAccessCertificate serial cert =>
    let r := addAccessCertificate p.sqlite s.db serial cert
    ({ s with db := r.1 }, [.ret r.2])
  | .getAccessCertificate serial cert sizeTmp =>
    (s, [.found (getAccessCertificate p.sqlite s.db serial cert sizeTmp)])
  | .removeAccessCertificate certificate =>
    let r := removeAccessCertificate s.db certificate
    ({ s with db := r.1 }, [.ret r.2])
  | .eraseAccessCertificate certificate left =>
    let r := eraseAccessCertificate s.db certificate left
    ({ s with db := r.1 }, [.ret r.2])
  | .eccGetEcdh serial ecdh l =>
    let r := eccGetEcdh p s.db s.config serial ecdh l
    ({ s with config := r.config }, [.identity (.ecdh r.ret r.ecdh r.calls)])
  | .eccAddSignature data signature =>
    let r := eccAddSignature p s.config data signature
    ({ s with config := r.2.1 }, [.identity (.signature r.1.1 r.1.2 r.2.2)])
  | .eccValidateSignature data signature serial l =>
    let r := eccValidateSignature p s.db data signature serial l
    (s, [.identity (.verified r.1 r.2)])
  | .eccValidateCaSignature data signature =>
    let r := eccValidateCaSignature p s.config data signature
    (s, [.identity (.verified r.1 r.2)])
  | .eccValidateOemCaSignature data signature =>
    let r := eccValidateOemCaSignature p s.config data signature
    (s, [.identity (.verified r.1 r.2)])

/-- A store and a get may read behind a serial that is too short; nothing else is undefined. -/
def step (p : Platform σ) : StepFunction (State σ Obj) (Event Obj) (Answer Obj) := fun s e =>
  match e with
  | .python method => methodStep p s method
  | .report report =>
    (PycCallbacks.step s.callbacks report.val).map fun r =>
      ({ s with callbacks := r.1 }, r.2.map .runtime)
  | .hal call => some (halStep p s call)

/-- Static storage before the first call. -/
def initial (db : σ) : State σ Obj :=
  ⟨db, IdentityGetters.initial, initialAdvData, PycCallbacks.initial⟩

/-! ## Refused calls -/

/-- The arguments parse, and none of them is refused for its size or kind. -/
def accepted : Method Obj → Bool
  | .sendcommand args => (parseBytes args).any fun m => m ≠ []
  | .setCerts args _ =>
    (parseThreeBytes args).any fun (cert, prv, pub) => cert ≠ [] ∧ prv ≠ [] ∧ pub ≠ []
  | .registerCb args => args.any fun a => a.callable && (PycCallbacks.cbKeyword a.name).isSome
  | .generateSignature args _ => (parseBytes args).any fun m => m ≠ []
  | .storeCertificate args =>
    (parseTwoBytes args).any fun (certf, serNum) => certf ≠ [] ∧ serNum ≠ []
  | .getCertificate args _ _ => (parseBytes args).any fun serNum => serNum ≠ []
  | .deleteCertificate args _ => (parseBytes args).any fun serNum => serNum ≠ []
  | .bleAdvertisementStart => true
  | .bleAdvertisementStop => true
  | .setBleDeviceName args => (parseBytes args).any fun name => name.length = 8

/-- NULL, or the number -1. -/
def Failure (r : PyResult) : Prop := r = .null ∨ r = .long (-1)

/-- What a refused call emits; a callable under an unknown name has been referenced by then. -/
def refusal : Method Obj → List (Answer Obj)
  | .sendcommand _ => [.result (.long (-1))]
  | .setCerts .. => [.result (.long (-1))]
  | .registerCb args =>
    (match args with
      | some a => if a.callable then [.runtime (.xincref a.object)] else []
      | none => []) ++ [.result .null]
  | .storeCertificate _ => [.result (.long (-1))]
  | .setBleDeviceName args => [.result (if parseBytes args = none then .long (-1) else .null)]
  | _ => [.result .null]

variable {p : Platform σ} {s u : State σ Obj} {m : Method Obj} {args : List PyObject}
  {out : List (Answer Obj)}

theorem parseThreeBytes_eq {a b c : List UInt8} (h : parseThreeBytes args = some (a, b, c)) :
    args = [.bytes a, .bytes b, .bytes c] := by
  unfold parseThreeBytes at h
  split at h
  · cases h
    rfl
  · cases h

theorem parsed_refused {α : Type*} {parsed : Option α} {usable : α → Bool}
    (h : parsed.any usable = false) : parsed = none ∨ ∃ a, parsed = some a ∧ usable a = false := by
  cases parsed with
  | none => exact Or.inl rfl
  | some a => exact Or.inr ⟨a, rfl, h⟩

theorem empty_refused (h : ((parseBytes args).any fun b => b ≠ []) = false) :
    ∀ b, parseBytes args = some b → b = [] := by
  intro b parsed
  simpa [parsed] using h

theorem refused_step (h : accepted m = false) (p : Platform σ) (s : State σ Obj) :
    step p s (.python m) = some (s, refusal m) := by
  cases m with
  | bleAdvertisementStart | bleAdvertisementStop => cases h
  | registerCb args =>
    rcases parsed_refused h with rfl | ⟨a, rfl, unusable⟩
    · rfl
    · cases callable : a.callable with
      | false => simp [step, methodStep, PycCallbacks.hmPycRegisterCb, callable, refusal,
          registered]
      | true =>
        have unknown : PycCallbacks.cbKeyword a.name = none := by simpa [callable] using unusable
        simp [step, methodStep, PycCallbacks.hmPycRegisterCb, callable, unknown, refusal,
          registered]
  | setBleDeviceName args =>
    rcases parsed_refused h with unparsed | ⟨name, parsed, size⟩
    · simp [step, methodStep, hmPycSetBleDeviceName, unparsed, refusal]
    · have wrong : name.length ≠ 8 := by simpa using size
      simp [step, methodStep, hmPycSetBleDeviceName, parsed, wrong, refusal]
  | setCerts args behind =>
    rcases parsed_refused h with unparsed | ⟨⟨cert, prv, pub⟩, parsed, unusable⟩
    · simp [step, methodStep, hmPycSetCerts, unparsed, refusal]
    · obtain rfl := parseThreeBytes_eq parsed
      have empty : cert = [] ∨ prv = [] ∨ pub = [] := by
        by_contra usable
        simp_all
      simp [step, methodStep, setCerts_rejected behind empty, refusal]
  | sendcommand args =>
    simp [step, methodStep, sendcommand_rejected (empty_refused h), refusal]
  | generateSignature args signature =>
    simp [step, methodStep, generateSignature_rejected (empty_refused h), refusal]
  | storeCertificate args =>
    have rejected : ∀ certf serNum, parseTwoBytes args = some (certf, serNum) →
        certf = [] ∨ serNum = [] := by
      intro certf serNum hp
      by_contra both
      have usable : certf ≠ [] ∧ serNum ≠ [] := by tauto
      simp [accepted, hp, usable.1, usable.2] at h
    simp [step, methodStep, hmPycStore_rejected rejected, refusal]
  | getCertificate args accessCert sizeTmp =>
    rcases parsed_refused h with unparsed | ⟨serNum, parsed, empty⟩
    · simp [step, methodStep, hmPycGetAccessCertificate, unparsed, refusal]
    · have none_left : serNum = [] := by simpa using empty
      simp [step, methodStep, hmPycGetAccessCertificate, parsed, none_left, refusal]
  | deleteCertificate args left =>
    simp [step, methodStep, hmPycDelete_rejected (empty_refused h), refusal]

theorem parsed_accepted {α : Type*} {parsed : Option α} {usable : α → Bool}
    (h : parsed.any usable = true) : ∃ a, parsed = some a ∧ usable a = true := by
  cases parsed with
  | none => cases h
  | some a => exact ⟨a, rfl, h⟩

theorem nonempty_accepted (h : ((parseBytes args).any fun b => b ≠ []) = true) :
    ∃ b, parseBytes args = some b ∧ b ≠ [] := by
  obtain ⟨b, parsed, usable⟩ := parsed_accepted h
  exact ⟨b, parsed, by simpa using usable⟩

theorem credentials_accepted {behind : Behind}
    (h : accepted (.setCerts args behind : Method Obj) = true) :
    ∃ cert prv pub, args = [.bytes cert, .bytes prv, .bytes pub] ∧
      cert ≠ [] ∧ prv ≠ [] ∧ pub ≠ [] := by
  obtain ⟨⟨cert, prv, pub⟩, parsed, usable⟩ := parsed_accepted h
  exact ⟨cert, prv, pub, parseThreeBytes_eq parsed, by simpa using usable⟩

theorem certificate_accepted (h : accepted (.storeCertificate args : Method Obj) = true) :
    ∃ certf serNum, parseTwoBytes args = some (certf, serNum) ∧ certf ≠ [] ∧ serNum ≠ [] := by
  obtain ⟨⟨certf, serNum⟩, parsed, usable⟩ := parsed_accepted h
  exact ⟨certf, serNum, parsed, by simpa using usable⟩

theorem callable_accepted {callback : Option (PycCallbacks.CbArgument Obj)}
    (h : accepted (.registerCb callback) = true) :
    ∃ a keyword, callback = some a ∧ a.callable = true ∧
      PycCallbacks.cbKeyword a.name = some keyword := by
  obtain ⟨a, given, usable⟩ := parsed_accepted h
  obtain ⟨callable, known⟩ : a.callable = true ∧
    (PycCallbacks.cbKeyword a.name).isSome = true := by simpa using usable
  obtain ⟨keyword, named⟩ := Option.isSome_iff_exists.mp known
  exact ⟨a, keyword, given, callable, named⟩

theorem name_accepted (h : accepted (.setBleDeviceName args : Method Obj) = true) :
    ∃ name, parseBytes args = some name ∧ name.length = 8 := by
  obtain ⟨name, parsed, usable⟩ := parsed_accepted h
  exact ⟨name, parsed, by simpa using usable⟩

theorem refusal_fails (m : Method Obj) : ∃ r, .result r ∈ refusal m ∧ Failure r := by
  cases m with
  | setBleDeviceName args =>
    refine ⟨_, List.mem_singleton_self _, ?_⟩
    split
    · exact Or.inr rfl
    · exact Or.inl rfl
  | sendcommand | setCerts | storeCertificate =>
    exact ⟨.long (-1), List.mem_singleton_self _, Or.inr rfl⟩
  | registerCb args =>
    exact ⟨.null, List.mem_append_right _ (List.mem_singleton_self _), Or.inl rfl⟩
  | _ => exact ⟨.null, List.mem_singleton_self _, Or.inl rfl⟩

theorem long_succeeds : ¬ Failure (.long 0) := by simp [Failure]

theorem bytes_succeed (value : List UInt8) : ¬ Failure (.bytesTuple value) := by simp [Failure]

theorem result_eq {r r' : PyResult} (h : (.result r : Answer Obj) ∈ [.result r']) : r = r' := by
  simpa using h

/-- Once the arguments are accepted no call fails any more. -/
theorem accepted_result (h : accepted m = true) (hs : step p s (.python m) = some (u, out))
    {r : PyResult} (hr : .result r ∈ out) : ¬ Failure r := by
  cases m with
  | sendcommand args =>
    obtain ⟨msg, parsed, nonempty⟩ := nonempty_accepted h
    obtain ⟨_, rfl⟩ := total_step hs
    obtain rfl : r = .long 0 := by simpa [sendcommand_accepted parsed nonempty] using hr
    exact long_succeeds
  | setCerts args behind =>
    obtain ⟨cert, prv, pub, rfl, nonempty⟩ := credentials_accepted h
    obtain ⟨_, rfl⟩ := total_step hs
    obtain rfl : r = .long 0 := by
      simpa [setCerts_accepted behind nonempty.1 nonempty.2.1 nonempty.2.2] using hr
    exact long_succeeds
  | registerCb args =>
    obtain ⟨a, keyword, rfl, callable, named⟩ := callable_accepted h
    obtain ⟨_, rfl⟩ := total_step hs
    obtain rfl : r = .long 0 := by
      simpa [PycCallbacks.hmPycRegisterCb, callable, named, registered] using hr
    exact long_succeeds
  | generateSignature args signature =>
    obtain ⟨msg, parsed, nonempty⟩ := nonempty_accepted h
    obtain ⟨_, rfl⟩ := total_step hs
    obtain ⟨signed, rfl⟩ : ∃ signed, r = .bytesTuple signed :=
      ⟨_, by simpa [generateSignature_accepted parsed nonempty] using hr⟩
    exact bytes_succeed signed
  | storeCertificate args =>
    obtain ⟨certf, serNum, parsed, nonempty⟩ := certificate_accepted h
    simp only [step, methodStep, hmPycStore_accepted parsed nonempty.1 nonempty.2,
      Option.map_map, Option.map_eq_some_iff] at hs
    obtain ⟨serial, _, stored⟩ := hs
    cases stored
    obtain rfl := result_eq hr
    exact long_succeeds
  | getCertificate args accessCert sizeTmp =>
    obtain ⟨serNum, parsed, nonempty⟩ := nonempty_accepted h
    simp [step, methodStep, hmPycGetAccessCertificate, parsed, nonempty,
      pyGetAccesscertificate] at hs
    obtain ⟨serial, _, _, rfl⟩ := hs
    obtain rfl := result_eq hr
    exact bytes_succeed _
  | deleteCertificate args left =>
    obtain ⟨serNum, parsed, nonempty⟩ := nonempty_accepted h
    obtain ⟨_, rfl⟩ := total_step hs
    obtain rfl : r = .long 0 := by simpa [hmPycDelete_accepted parsed nonempty] using hr
    exact long_succeeds
  | bleAdvertisementStart =>
    obtain ⟨_, rfl⟩ := total_step hs
    obtain rfl : r = .long 0 := by simpa using hr
    exact long_succeeds
  | bleAdvertisementStop =>
    obtain ⟨_, rfl⟩ := total_step hs
    obtain rfl : r = .long 0 := by simpa using hr
    exact long_succeeds
  | setBleDeviceName args =>
    obtain ⟨name, parsed, size⟩ := name_accepted h
    obtain ⟨_, rfl⟩ := total_step hs
    obtain rfl : r = .long 0 := by simpa [hmPycSetBleDeviceName, parsed, size] using hr
    exact long_succeeds

end HmPyc
