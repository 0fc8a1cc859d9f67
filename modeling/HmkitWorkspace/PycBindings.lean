import HmkitWorkspace.HmkitCorePersistenceHal

/-! # The Python extension

Access certificates as `pyc_extension_module.c` and `pyc_bindings.c` pass them between Python
and the persistence HAL. -/
namespace PycBindings

open ByteBuffers HmSdkConfig HmkitCorePersistenceHal

variable {σ : Type*}

inductive PyObject where
  | bytes (value : List UInt8)
  | other

/-- What a wrapper returns: a number, a tuple of one bytes object, or NULL. -/
inductive PyResult where
  | long (value : ℤ)
  | bytesTuple (value : List UInt8)
  | null
  deriving DecidableEq

/-- `PyArg_ParseTuple(args, "S", ..)` -/
def parseBytes : List PyObject → Option (List UInt8)
  | [.bytes b] => some b
  | _ => none

/-- `PyArg_ParseTuple(args, "SS", ..)` -/
def parseTwoBytes : List PyObject → Option (List UInt8 × List UInt8)
  | [.bytes b, .bytes b'] => some (b, b')
  | _ => none

/-- The nine bytes behind a serial pointer. The bytes of an object end in a NUL of their own, so
eight are enough; a shorter object is read past its end. -/
def serialAt (b : List UInt8) : Option Serial :=
  if h : 8 ≤ b.length then some ⟨(b ++ [0]).take 9, by simp; omega⟩ else none

/-- `py_store_accesscertificate`; the results below are not looked at. -/
def pyStoreAccesscertificate (sqlite : Sqlite σ) (db : σ) (certf : List UInt8) (len : UInt8)
    (serNum : Serial) : σ :=
  (addAccessCertificate sqlite db serNum (certf.take len.toNat)).1

/-- `py_get_accesscertificate`; `access_cert` is uninitialised. -/
def pyGetAccesscertificate (sqlite : Sqlite σ) (db : σ) (serNum : Serial)
    (accessCert : Buffer 256) (sizeTmp : UInt8) : PyResult :=
  let r := getAccessCertificate sqlite db serNum accessCert sizeTmp
  .bytesTuple (r.cert.bytes.take r.size.toNat)

/-- `py_delete_accesscertificate` passes the serial where the context id belongs, so the
certificate argument is whatever the register held. -/
def pyDeleteAccesscertificate (db : σ) (left : HmkitCoreCertificate) : σ :=
  (removeAccessCertificate db left).1

/-- `hm_pyc_store_access_certificate`; the length is narrowed to `uint8_t` by the call. -/
def hmPycStoreAccessCertificate (sqlite : Sqlite σ) (db : σ) (args : List PyObject) :
    Option (σ × PyResult) :=
  match parseTwoBytes args with
  | none => some (db, .long (-1))
  | some (certf, serNum) =>
    if certf.length = 0 then some (db, .long (-1))
    else if serNum.length = 0 then some (db, .long (-1))
    else (serialAt serNum).map fun serNum =>
      (pyStoreAccesscertificate sqlite db certf (UInt8.ofNat certf.length) serNum, .long 0)

/-- `hm_pyc_get_access_certificate` -/
def hmPycGetAccessCertificate (sqlite : Sqlite σ) (db : σ) (args : List PyObject)
    (accessCert : Buffer 256) (sizeTmp : UInt8) : Option PyResult :=
  match parseBytes args with
  | none => some .null
  | some serNum =>
    if serNum.length = 0 then some .null
    else (serialAt serNum).map fun serNum =>
      pyGetAccesscertificate sqlite db serNum accessCert sizeTmp

/-- `hm_pyc_delete_access_certificate`; nothing on the way down reads the serial. -/
def hmPycDeleteAccessCertificate (db : σ) (args : List PyObject) (left : HmkitCoreCertificate) :
    σ × PyResult :=
  match parseBytes args with
  | none => (db, .null)
  | some serNum =>
    if serNum.length = 0 then (db, .null)
    else (pyDeleteAccesscertificate db left, .long 0)

theorem serialAt_bytes (serial : Serial) : serialAt serial.bytes = some serial := by
  have whole : (serial.bytes ++ [0]).take 9 = serial.bytes := List.take_left' serial.length_eq
  simp [serialAt, serial.length_eq, whole]

variable {sqlite : Sqlite σ} {db : σ} {serial : Serial}

/-- A certificate is cut to its length modulo 256 and reported as stored. -/
theorem hmPycStore_accepted {args : List PyObject} {certf serNum : List UInt8}
    (hp : parseTwoBytes args = some (certf, serNum)) (hne : certf ≠ []) (hn : serNum ≠ []) :
    hmPycStoreAccessCertificate sqlite db args = (serialAt serNum).map fun serial =>
      ((sqlite.addAccessCert db serial (certf.take (certf.length % 256))).1, .long 0) := by
  simp [hmPycStoreAccessCertificate, hp, hne, hn, pyStoreAccesscertificate, addAccessCertificate]

theorem hmPycStore_rejected {args : List PyObject}
    (h : ∀ certf serNum, parseTwoBytes args = some (certf, serNum) → certf = [] ∨ serNum = []) :
    hmPycStoreAccessCertificate sqlite db args = some (db, .long (-1)) := by
  unfold hmPycStoreAccessCertificate
  cases hp : parseTwoBytes args with
  | none => rfl
  | some pair =>
    rcases h pair.1 pair.2 hp with empty | empty <;> simp [empty]

theorem hmPycStore_cut {certf : List UInt8} (hne : certf ≠ []) :
    hmPycStoreAccessCertificate sqlite db [.bytes certf, .bytes serial.bytes] =
      some ((sqlite.addAccessCert db serial (certf.take (certf.length % 256))).1, .long 0) := by
  have hn : serial.bytes ≠ [] := List.ne_nil_of_length_pos (by rw [serial.length_eq]; decide)
  rw [hmPycStore_accepted rfl hne hn, serialAt_bytes, Option.map_some]

theorem hmPycGet_eq (accessCert : Buffer 256) (sizeTmp : UInt8) :
    hmPycGetAccessCertificate sqlite db [.bytes serial.bytes] accessCert sizeTmp =
      some (pyGetAccesscertificate sqlite db serial accessCert sizeTmp) := by
  simp [hmPycGetAccessCertificate, parseBytes, serial.length_eq, serialAt_bytes]

/-- A delete that is accepted reports success and deletes nothing. -/
theorem hmPycDelete_accepted {args : List PyObject} {serNum : List UInt8}
    (hp : parseBytes args = some serNum) (hn : serNum ≠ []) (left : HmkitCoreCertificate) :
    hmPycDeleteAccessCertificate db args left = (db, .long 0) := by
  simp [hmPycDeleteAccessCertificate, hp, hn, pyDeleteAccesscertificate, removeAccessCertificate]

theorem hmPycDelete_rejected {args : List PyObject}
    (h : ∀ serNum, parseBytes args = some serNum → serNum = []) (left : HmkitCoreCertificate) :
    hmPycDeleteAccessCertificate db args left = (db, .null) := by
  unfold hmPycDeleteAccessCertificate
  cases hp : parseBytes args with
  | none => rfl
  | some serNum => simp [h serNum hp]

theorem hmPycDelete_eq (left : HmkitCoreCertificate) :
    hmPycDeleteAccessCertificate db [.bytes serial.bytes] left = (db, .long 0) :=
  hmPycDelete_accepted rfl (List.ne_nil_of_length_pos (by rw [serial.length_eq]; decide)) left

end PycBindings
