import HmkitWorkspace.PycBindings
import HmkitWorkspace.PycCallbacks
import HmkitWorkspace.HmkitCoreCryptoHal

/-! # Signing, credentials and commands from Python

The wrappers of `pyc_extension_module.c` around `py_generate_signature`, the three credential
setters and `py_sendcommand`. A length given to a narrower parameter is cut by the call. -/
namespace PycExtension

open ByteBuffers HmSdkConfig HmkitCorePersistenceHal HmkitCoreCryptoHal PycBindings

variable {σ Obj : Type*}

/-- `PyArg_ParseTuple(args, "SSS", ..)` -/
def parseThreeBytes : List PyObject → Option (List UInt8 × List UInt8 × List UInt8)
  | [.bytes b, .bytes b', .bytes b''] => some (b, b', b'')
  | _ => none

/-! ## Signatures -/

structure SignatureResult where
  result : PyResult
  config : Config
  calls : List CryptoCall
  deriving DecidableEq

/-- `py_generate_signature`. `signature` is uninitialised, the result of the HAL is not looked
at, and the length is narrowed once more to the `uint8_t` of the HAL. -/
def pyGenerateSignature (p : Platform σ) (config : Config) (buffer : List UInt8) (length : UInt16)
    (signature : Signature) : SignatureResult :=
  let r := eccAddSignature p config (buffer.take length.toUInt8.toNat) signature
  ⟨.bytesTuple r.1.2.bytes, r.2.1, r.2.2⟩

/-- `hm_pyc_generate_signature` -/
def hmPycGenerateSignature (p : Platform σ) (config : Config) (args : List PyObject)
    (signature : Signature) : SignatureResult :=
  match parseBytes args with
  | none => ⟨.null, config, []⟩
  | some str =>
    if str.length = 0 then ⟨.null, config, []⟩
    else pyGenerateSignature p config str (UInt16.ofNat str.length) signature

/-! ## Credentials -/

/-- `pyBytes_toString`; `none` when it returns -1. -/
def pyBytesToString (array : List UInt8) : Option (List UInt8) :=
  if array.length = 0 then none else some array

/-- What lies in memory behind the three arguments. -/
structure Behind where
  devCert : ℕ → UInt8
  prv : ℕ → UInt8
  issrPub : ℕ → UInt8

def pySetIssuerPub (c : Config) (pub : List UInt8) (beyond : ℕ → UInt8) : Config :=
  setIssuerPub c (Buffer.ofMemory 64 pub beyond)

def pySetDevPrv (c : Config) (prv : List UInt8) (beyond : ℕ → UInt8) : Config :=
  setDevPrv c (Buffer.ofMemory 32 prv beyond)

def pySetDevCert (c : Config) (cert : List UInt8) (beyond : ℕ → UInt8) : Config :=
  setDeviceCertificate c (Buffer.ofMemory 153 cert beyond)

/-- `hm_pyc_set_certs`. The lengths are asked for and only printed in debug builds. -/
def hmPycSetCerts (c : Config) (args : List PyObject) (behind : Behind) : Config × PyResult :=
  match parseThreeBytes args with
  | none => (c, .long (-1))
  | some (devCert, prv, issrPub) =>
    match pyBytesToString devCert with
    | none => (c, .long (-1))
    | some strDevCert =>
      match pyBytesToString prv with
      | none => (c, .long (-1))
      | some strPrv =>
        match pyBytesToString issrPub with
        | none => (c, .long (-1))
        | some strIssrPub =>
          let c := pySetDevPrv c strPrv behind.prv
          let c := pySetDevCert c strDevCert behind.devCert
          (pySetIssuerPub c strIssrPub behind.issrPub, .long 0)

/-! ## Commands -/

/-- `hm_pyc_sendcommand`. The length goes through an `int` to the 32 bits that the core takes;
the result of `py_sendcommand` is not looked at. -/
def hmPycSendcommand (s : PycCallbacks.State Obj) (args : List PyObject) :
    List (PycCallbacks.Call Obj) × PyResult :=
  match parseBytes args with
  | none => ([], .long (-1))
  | some str =>
    if str.length = 0 then ([], .long (-1))
    else
      let r := PycCallbacks.pySendcommand s (str.take (UInt32.ofNat str.length).toNat)
      (r.1, .long 0)

/-! ## What the wrappers do -/

variable {p : Platform σ} {config : Config} {m : List UInt8} {signature : Signature}
  {args : List PyObject} {s : PycCallbacks.State Obj}

/-- The key is the one in the static data, the message is cut to its length modulo 256. -/
theorem generateSignature_accepted (hp : parseBytes args = some m) (hm : m ≠ []) :
    hmPycGenerateSignature p config args signature =
      ⟨.bytesTuple (p.crypto.signature (m.take (m.length % 256)) config.hmCar.privateKey
          signature).2.bytes,
        (getSerialPublicPrivate config).1,
        [.signature (m.take (m.length % 256)) config.hmCar.privateKey]⟩ := by
  simp [hmPycGenerateSignature, hp, hm, pyGenerateSignature, eccAddSignature,
    getSerialPublicPrivate]

theorem generateSignature_rejected (h : ∀ m, parseBytes args = some m → m = []) :
    hmPycGenerateSignature p config args signature = ⟨.null, config, []⟩ := by
  unfold hmPycGenerateSignature
  cases hp : parseBytes args with
  | none => rfl
  | some m => simp [h m hp]

theorem generateSignature_eq (hm : m ≠ []) :
    hmPycGenerateSignature p config [.bytes m] signature =
      ⟨.bytesTuple (p.crypto.signature (m.take (m.length % 256)) config.hmCar.privateKey
          signature).2.bytes,
        (getSerialPublicPrivate config).1,
        [.signature (m.take (m.length % 256)) config.hmCar.privateKey]⟩ :=
  generateSignature_accepted rfl hm

theorem sendcommand_accepted (hp : parseBytes args = some m) (hm : m ≠ []) :
    hmPycSendcommand s args =
      ((PycCallbacks.pySendcommand s (m.take (m.length % 2 ^ 32))).1, .long 0) := by
  simp [hmPycSendcommand, hp, hm]

theorem sendcommand_rejected (h : ∀ m, parseBytes args = some m → m = []) :
    hmPycSendcommand s args = ([], .long (-1)) := by
  unfold hmPycSendcommand
  cases hp : parseBytes args with
  | none => rfl
  | some m => simp [h m hp]

theorem setCerts_accepted {c : Config} {devCert prv issrPub : List UInt8} (behind : Behind)
    (h : devCert ≠ []) (h' : prv ≠ []) (h'' : issrPub ≠ []) :
    hmPycSetCerts c [.bytes devCert, .bytes prv, .bytes issrPub] behind =
      (⟨Buffer.ofMemory 64 issrPub behind.issrPub,
        { c.hmCar with privateKey := Buffer.ofMemory 32 prv behind.prv },
        Buffer.ofMemory 153 devCert behind.devCert⟩, .long 0) := by
  simp [hmPycSetCerts, parseThreeBytes, pyBytesToString, h, h', h'', pySetDevPrv, pySetDevCert,
    pySetIssuerPub, setDevPrv, setDeviceCertificate, setIssuerPub]

/-- Nothing is installed before all three are checked. -/
theorem setCerts_rejected {c : Config} {devCert prv issrPub : List UInt8} (behind : Behind)
    (h : devCert = [] ∨ prv = [] ∨ issrPub = []) :
    hmPycSetCerts c [.bytes devCert, .bytes prv, .bytes issrPub] behind = (c, .long (-1)) := by
  by_cases first : devCert = []
  · simp [hmPycSetCerts, parseThreeBytes, pyBytesToString, first]
  · by_cases second : prv = []
    · simp [hmPycSetCerts, parseThreeBytes, pyBytesToString, first, second]
    · have third : issrPub = [] := by simpa [first, second] using h
      simp [hmPycSetCerts, parseThreeBytes, pyBytesToString, first, second, third]

end PycExtension
