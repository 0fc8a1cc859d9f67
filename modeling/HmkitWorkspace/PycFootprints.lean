import HmkitWorkspace.Footprints
import HmkitWorkspace.HmPyc

/-! # What the calls into `hm_pyc` read and write

Python and the core call in from two threads. A call is refused for its arguments alone, and a
refused call touches nothing. The copy of the certificate in `hm_car`, and the identifiers in
the advertisement, are written again before each use: no component stands for them. -/
namespace PycFootprints

open TransitionRuns Footprints ByteBuffers HmSdkConfig HmkitCorePersistenceHal HmkitCoreCryptoHal
  PycBindings PycExtension BleAdvertisement HmPyc

variable {σ Obj : Type}

inductive Component where
  | database
  | certificate
  | privateKey
  | issuerPub
  | frame
  | connection
  | slot (keyword : PycCallbacks.CbKeyword)

def Component.Value (σ Obj : Type) : Component → Type
  | .database => σ
  | .certificate => Buffer 153
  | .privateKey => PrivateKey
  | .issuerPub => PublicKey
  | .frame => List UInt8 × List UInt8
  | .connection => Bool × Serial
  | .slot _ => Option Obj

/-- The bytes of an advertisement that no start writes, the name among them. -/
def frame (advData : AdvData) : List UInt8 × List UInt8 :=
  (advData.bytes.take 12, advData.bytes.drop 27)

def components : Components (HmPyc.State σ Obj) Component where
  Value := Component.Value σ Obj
  get
    | .database, s => s.db
    | .certificate, s => s.config.mLinkDeviceCertificate
    | .privateKey, s => s.config.hmCar.privateKey
    | .issuerPub, s => s.config.mDeviceCertIssuerPub
    | .frame, s => frame s.advData
    | .connection, s => (s.callbacks.isConnected, s.callbacks.connectedSerial)
    | .slot keyword, s => s.callbacks.registry keyword

def methodFootprint : Method Obj → Footprint Component
  | .sendcommand _ => ⟨{.connection}, ∅⟩
  | .setCerts .. => ⟨∅, {.certificate, .privateKey, .issuerPub}⟩
  | .registerCb args =>
    ⟨∅, {x | ∃ a keyword, args = some a ∧ PycCallbacks.cbKeyword a.name = some keyword ∧
      x = .slot keyword}⟩
  | .generateSignature .. => ⟨{.privateKey}, ∅⟩
  | .storeCertificate _ => ⟨∅, {.database}⟩
  | .getCertificate .. => ⟨{.database}, ∅⟩
  | .deleteCertificate .. => ⟨∅, ∅⟩
  | .bleAdvertisementStart => ⟨{.certificate, .frame}, ∅⟩
  | .bleAdvertisementStop => ⟨∅, ∅⟩
  | .setBleDeviceName _ => ⟨∅, {.frame}⟩

/-- Only proximity events change the connected device. -/
def reportFootprint (e : PycCallbacks.Event Obj) : Footprint Component where
  reads := {x | ∃ keyword args outcome,
    PycCallbacks.dispatched e = some (keyword, args, outcome) ∧ x = .slot keyword}
  writes :=
    match e with
    | .enteredProximity .. => {.connection}
    | .exitedProximity .. => {.connection}
    | _ => ∅

def halFootprint : HalCall → Footprint Component
  | .getSerial => ⟨{.certificate}, ∅⟩
  | .getLocalPublicKey => ⟨{.certificate}, ∅⟩
  | .getDeviceCertificate => ⟨{.certificate}, ∅⟩
  | .getCaPublicKey => ⟨{.issuerPub}, ∅⟩
  | .getOemCaPublicKey => ⟨∅, ∅⟩
  | .addAccessCertificate .. => ⟨∅, {.database}⟩
  | .getAccessCertificate .. => ⟨{.database}, ∅⟩
  | .removeAccessCertificate _ => ⟨∅, ∅⟩
  | .eraseAccessCertificate .. => ⟨∅, ∅⟩
  | .eccGetEcdh .. => ⟨{.database, .privateKey}, ∅⟩
  | .eccAddSignature .. => ⟨{.privateKey}, ∅⟩
  | .eccValidateSignature .. => ⟨{.database}, ∅⟩
  | .eccValidateCaSignature .. => ⟨{.issuerPub}, ∅⟩
  | .eccValidateOemCaSignature .. => ⟨∅, ∅⟩

def footprint : HmPyc.Event Obj → Footprint Component
  | .python method => if accepted method then methodFootprint method else ⟨∅, ∅⟩
  | .report report => reportFootprint report.val
  | .hal call => halFootprint call

variable {p : Platform σ} {s s' u : HmPyc.State σ Obj} {m : Method Obj} {e : HmPyc.Event Obj}
  {out : List (HmPyc.Answer Obj)} {K : Set Component}

/-! ## Components -/

theorem database_eq (agree : Agree components K s s') (h : .database ∈ K) : s.db = s'.db :=
  agree .database h

theorem certificate_eq (agree : Agree components K s s') (h : .certificate ∈ K) :
    s.config.mLinkDeviceCertificate = s'.config.mLinkDeviceCertificate :=
  agree .certificate h

theorem privateKey_eq (agree : Agree components K s s') (h : .privateKey ∈ K) :
    s.config.hmCar.privateKey = s'.config.hmCar.privateKey :=
  agree .privateKey h

theorem issuerPub_eq (agree : Agree components K s s') (h : .issuerPub ∈ K) :
    s.config.mDeviceCertIssuerPub = s'.config.mDeviceCertIssuerPub :=
  agree .issuerPub h

/-! ## The advertisement -/

theorem advertisementStart_bytes (advData : AdvData) (issuerId : Buffer 4) (id : Buffer 12) :
    (advertisementStart advData issuerId id).1.bytes =
      (frame advData).1 ++ issuerId.bytes.take 3 ++ id.bytes ++ (frame advData).2 := by
  have hl := advData.length_eq
  have hi := issuerId.length_eq
  have ha := id.length_eq
  have short : (advData.bytes.take 12).drop 27 = [] := List.drop_eq_nil_of_le (by simp)
  have short' : issuerId.bytes.drop 15 = [] := List.drop_eq_nil_of_le (by omega)
  simp only [advertisementStart, Buffer.patch, overwrite, frame]
  simp [List.take_append, List.drop_append, hl, hi, ha, short, short']

theorem frame_start (advData : AdvData) (issuerId : Buffer 4) (id : Buffer 12) :
    frame (advertisementStart advData issuerId id).1 = frame advData := by
  have hl := advData.length_eq
  have hi := issuerId.length_eq
  have ha := id.length_eq
  have short : (advData.bytes.take 12).drop 27 = [] := List.drop_eq_nil_of_le (by simp)
  have short' : (issuerId.bytes.take 3).drop 15 = [] := List.drop_eq_nil_of_le (by simp)
  rw [frame, advertisementStart_bytes]
  simp [frame, List.drop_append, hl, hi, ha, short, short']

theorem frame_setBleName {a b : AdvData} (same : frame a = frame b) (name : Buffer 8) :
    frame (setBleName a name) = frame (setBleName b name) := by
  have ha := a.length_eq
  have hb := b.length_eq
  have hn := name.length_eq
  simp only [frame, setBleName, Buffer.patch, overwrite, Prod.mk.injEq] at same ⊢
  obtain ⟨first, last⟩ := same
  have front : a.bytes.take 2 = b.bytes.take 2 := by
    simpa [List.take_take] using congrArg (List.take 2) first
  have back : (a.bytes.drop 10).take 2 = (b.bytes.drop 10).take 2 := by
    simpa [List.drop_take] using congrArg (List.drop 10) first
  simp [List.take_append, List.drop_append, hb, hn, List.take_take, front, back, last]

/-! ## Methods -/

theorem sendcommand_same (agree : Agree components {.connection} s s') (args : List PyObject) :
    hmPycSendcommand s.callbacks args = hmPycSendcommand s'.callbacks args := by
  have connection : (s.callbacks.isConnected, s.callbacks.connectedSerial) =
      (s'.callbacks.isConnected, s'.callbacks.connectedSerial) := agree .connection rfl
  rw [Prod.mk.injEq] at connection
  simp only [hmPycSendcommand, PycCallbacks.pySendcommand, PycCallbacks.cPyGetConnectedSerial,
    connection.1, connection.2]

/-- What a start sends is made of the certificate and of the bytes it does not write. -/
theorem advertises_same (agree : Agree components {.certificate, .frame} s s') :
    (pyBleAdvertisementStart ⟨s.advData, s.config⟩).2 =
      (pyBleAdvertisementStart ⟨s'.advData, s'.config⟩).2 := by
  have certificate := certificate_eq agree (Or.inl rfl)
  have kept : frame s.advData = frame s'.advData := agree .frame (Or.inr rfl)
  simp only [pyBleAdvertisementStart, HmkitCorePersistenceHal.getDeviceCertificate,
    HmSdkConfig.getDeviceCertificate, certificate]
  have data : ∀ issuerId id, (advertisementStart s.advData issuerId id).1 =
      (advertisementStart s'.advData issuerId id).1 := by
    intro issuerId id
    apply Buffer.ext
    rw [advertisementStart_bytes, advertisementStart_bytes, kept]
  simp only [advertisementStart] at data ⊢
  rw [data]

theorem refused_footprint (h : accepted m = false) :
    HasFootprint components (HmPyc.step p) (.python m) ⟨∅, ∅⟩ :=
  .of_query id (fun _ => refusal m) (refused_step h p) (fun _ _ _ => rfl) fun _ _ _ => rfl

theorem setCerts_footprint {args : List PyObject} {behind : Behind}
    (h : accepted (.setCerts args behind : Method Obj) = true) :
    HasFootprint components (HmPyc.step p) (.python (.setCerts args behind : Method Obj))
      (methodFootprint (.setCerts args behind : Method Obj)) := by
  obtain ⟨cert, prv, pub, rfl, nonempty⟩ := credentials_accepted h
  have installed := fun s : HmPyc.State σ Obj => setCerts_accepted (c := s.config) behind
    nonempty.1 nonempty.2.1 nonempty.2.2
  refine .of_total _ _ (fun s => rfl) ?_ ?_ ?_
  · intro s i hi
    cases i with
    | certificate | privateKey | issuerPub => exact absurd (by simp [methodFootprint]) hi
    | _ => rfl
  · intro s s' _
    rw [installed, installed]
  · intro s s' _ i hi _
    rw [installed, installed]
    rcases hi with rfl | rfl | rfl <;> rfl

theorem registerCb_footprint {args : Option (PycCallbacks.CbArgument Obj)}
    (h : accepted (.registerCb args : Method Obj) = true) :
    HasFootprint components (HmPyc.step p) (.python (.registerCb args : Method Obj))
      (methodFootprint (.registerCb args : Method Obj)) := by
  obtain ⟨a, keyword, rfl, callable, named⟩ := callable_accepted h
  refine .of_total (fun s =>
      { s with callbacks := PycCallbacks.pyHmRegisterCb s.callbacks a.object keyword })
    (fun _ => [.runtime (.xincref a.object), .result (.long 0)]) ?_ ?_ ?_ ?_
  · intro s
    simp [HmPyc.step, methodStep, PycCallbacks.hmPycRegisterCb, PycCallbacks.pyHmRegisterCb,
      callable, named, registered]
  · intro s i hi
    cases i with
    | slot k =>
      have other : k ≠ keyword := fun same => hi ⟨a, keyword, rfl, named, by rw [same]⟩
      exact Function.update_of_ne other ..
    | _ => rfl
  · exact fun _ _ _ => rfl
  · rintro s s' _ i ⟨_, k, ⟨⟩, hk, rfl⟩ _
    obtain rfl : keyword = k := Option.some.inj (named.symm.trans hk)
    have assigned : ∀ v : HmPyc.State σ Obj,
        (PycCallbacks.pyHmRegisterCb v.callbacks a.object keyword).registry keyword =
          some a.object := fun v => Function.update_self ..
    exact (assigned s).trans (assigned s').symm

theorem generateSignature_footprint {args : List PyObject} {signature : Signature}
    (h : accepted (.generateSignature args signature : Method Obj) = true) :
    HasFootprint components (HmPyc.step p)
      (.python (.generateSignature args signature : Method Obj))
      (methodFootprint (.generateSignature args signature : Method Obj)) := by
  obtain ⟨msg, parsed, nonempty⟩ := nonempty_accepted h
  have signs : ∀ s : HmPyc.State σ Obj, hmPycGenerateSignature p s.config args signature = _ :=
    fun s => generateSignature_accepted parsed nonempty
  refine .of_query _ _ (fun s => rfl) ?_ ?_
  · intro s i _
    rw [signs]
    cases i <;> rfl
  · intro s s' agree
    rw [signs, signs, privateKey_eq agree rfl]

theorem storeCertificate_footprint {args : List PyObject}
    (h : accepted (.storeCertificate args : Method Obj) = true) :
    HasFootprint components (HmPyc.step p) (.python (.storeCertificate args : Method Obj))
      (methodFootprint (.storeCertificate args : Method Obj)) := by
  obtain ⟨certf, serNum, parsed, nonempty⟩ := certificate_accepted h
  have stores : ∀ s : HmPyc.State σ Obj, hmPycStoreAccessCertificate p.sqlite s.db args = _ :=
    fun s => hmPycStore_accepted parsed nonempty.1 nonempty.2
  cases hserial : serialAt serNum with
  | none => exact .of_undefined fun s => by simp [HmPyc.step, methodStep, stores s, hserial]
  | some serial =>
    refine .of_total (fun s => { s with db := (p.sqlite.addAccessCert s.db serial
      (certf.take (certf.length % 256))).1 }) (fun _ => [.result (.long 0)]) ?_ ?_ ?_ ?_
    · intro s
      simp [HmPyc.step, methodStep, stores s, hserial]
    · intro s i hi
      cases i with
      | database => exact absurd rfl hi
      | _ => rfl
    · exact fun _ _ _ => rfl
    · rintro s s' _ i rfl same
      have db : s.db = s'.db := same
      simp only [components, db]
      rfl

theorem getCertificate_footprint {args : List PyObject} {accessCert : Buffer 256} {sizeTmp : UInt8}
    (h : accepted (.getCertificate args accessCert sizeTmp : Method Obj) = true) :
    HasFootprint components (HmPyc.step p)
      (.python (.getCertificate args accessCert sizeTmp : Method Obj))
      (methodFootprint (.getCertificate args accessCert sizeTmp : Method Obj)) := by
  obtain ⟨serNum, parsed, nonempty⟩ := nonempty_accepted h
  cases hserial : serialAt serNum with
  | none =>
    exact .of_undefined fun s => by
      simp [HmPyc.step, methodStep, hmPycGetAccessCertificate, parsed, nonempty, hserial]
  | some serial =>
    refine .of_query id (fun s => [.result (pyGetAccesscertificate p.sqlite s.db serial
      accessCert sizeTmp)]) ?_ (fun _ _ _ => rfl) ?_
    · intro s
      simp [HmPyc.step, methodStep, hmPycGetAccessCertificate, parsed, nonempty, hserial]
    · intro s s' agree
      rw [database_eq agree rfl]

theorem deleteCertificate_footprint {args : List PyObject} {left : HmkitCoreCertificate}
    (h : accepted (.deleteCertificate args left : Method Obj) = true) :
    HasFootprint components (HmPyc.step p) (.python (.deleteCertificate args left : Method Obj))
      (methodFootprint (.deleteCertificate args left : Method Obj)) := by
  obtain ⟨serNum, parsed, nonempty⟩ := nonempty_accepted h
  refine .of_query id (fun _ => [.result (.long 0)]) ?_ (fun _ _ _ => rfl) fun _ _ _ => rfl
  intro s
  simp [HmPyc.step, methodStep, hmPycDelete_accepted parsed nonempty]

theorem setBleDeviceName_footprint {args : List PyObject}
    (h : accepted (.setBleDeviceName args : Method Obj) = true) :
    HasFootprint components (HmPyc.step p) (.python (.setBleDeviceName args : Method Obj))
      (methodFootprint (.setBleDeviceName args : Method Obj)) := by
  obtain ⟨name, parsed, size⟩ := name_accepted h
  refine .of_total (fun s => { s with advData := setBleName s.advData ⟨name, size⟩ })
    (fun _ => [.result (.long 0)]) ?_ ?_ (fun _ _ _ => rfl) ?_
  · intro s
    simp [HmPyc.step, methodStep, hmPycSetBleDeviceName, parsed, size]
  · intro s i hi
    cases i with
    | frame => exact absurd rfl hi
    | _ => rfl
  · rintro s s' _ i rfl same
    exact frame_setBleName same _

theorem method_footprint (h : accepted m = true) :
    HasFootprint components (HmPyc.step p) (.python m) (methodFootprint m) := by
  cases m with
  | sendcommand args =>
    refine .of_query id _ (fun s => rfl) (fun _ _ _ => rfl) ?_
    intro s s' agree
    rw [sendcommand_same agree]
  | setCerts args behind => exact setCerts_footprint h
  | registerCb args => exact registerCb_footprint h
  | generateSignature args signature => exact generateSignature_footprint h
  | storeCertificate args => exact storeCertificate_footprint h
  | getCertificate args accessCert sizeTmp => exact getCertificate_footprint h
  | deleteCertificate args left => exact deleteCertificate_footprint h
  | bleAdvertisementStart =>
    refine .of_query _ _ (fun s => rfl) ?_ ?_
    · intro s i _
      cases i with
      | frame => exact frame_start ..
      | _ => rfl
    · intro s s' agree
      rw [advertises_same agree]
  | bleAdvertisementStop =>
    exact .of_query id _ (fun s => rfl) (fun _ _ _ => rfl) fun _ _ _ => rfl
  | setBleDeviceName args => exact setBleDeviceName_footprint h

/-! ## Reports and HAL calls -/

theorem dispatch_same {keyword : PycCallbacks.CbKeyword} (agree : Agree components K s s')
    (h : .slot keyword ∈ K) (args : PycCallbacks.Args) (outcome : PycCallbacks.Outcome) :
    PycCallbacks.dispatch s.callbacks keyword args outcome =
      PycCallbacks.dispatch s'.callbacks keyword args outcome := by
  have slot : s.callbacks.registry keyword = s'.callbacks.registry keyword := agree (.slot _) h
  rw [PycCallbacks.dispatch, PycCallbacks.dispatch, slot]

theorem report_footprint (r : Report Obj) :
    HasFootprint components (HmPyc.step p) (.report r) (reportFootprint r.val) := by
  obtain ⟨e, reported⟩ := r
  cases e with
  | registerCb | unregisterCb | sendcommand => cases reported
  | enteredProximity device outcome =>
    refine .of_total _ _ (fun s => rfl) ?_ ?_ ?_
    · intro s i hi
      cases i with
      | connection => exact absurd rfl hi
      | slot keyword =>
        simp only [components, PycCallbacks.pyHmApiCallbackEnteredProximity]
        split <;> rfl
      | _ => rfl
    · intro s s' agree
      simp only [PycCallbacks.pyHmApiCallbackEnteredProximity]
      rw [dispatch_same agree ⟨_, _, _, rfl, rfl⟩]
    · rintro s s' _ i rfl same
      simp only [components, PycCallbacks.pyHmApiCallbackEnteredProximity]
      split
      · rfl
      · exact same
  | exitedProximity device outcome =>
    refine .of_total _ _ (fun s => rfl) ?_ ?_ ?_
    · intro s i hi
      cases i with
      | connection => exact absurd rfl hi
      | _ => rfl
    · intro s s' agree
      simp only [PycCallbacks.pyHmApiCallbackExitedProximity]
      rw [dispatch_same agree ⟨_, _, _, rfl, rfl⟩]
    · rintro s s' _ i rfl same
      have serial : s.callbacks.connectedSerial = s'.callbacks.connectedSerial :=
        congrArg Prod.snd same
      simp only [components, PycCallbacks.pyHmApiCallbackExitedProximity, serial]
      rfl
  | _ =>
    refine .of_query id _ (fun s => rfl) (fun _ _ _ => rfl) ?_
    intro s s' agree
    exact congrArg (List.map Answer.runtime) (dispatch_same agree ⟨_, _, _, rfl, rfl⟩ _ _)

theorem hal_footprint (call : HalCall) :
    HasFootprint components (HmPyc.step p) (.hal call : HmPyc.Event Obj) (halFootprint call) := by
  cases call with
  | addAccessCertificate serial cert =>
    refine .of_total _ _ (fun s => rfl) ?_ ?_ ?_
    · intro s i hi
      cases i with
      | database => exact absurd rfl hi
      | _ => rfl
    · exact fun _ _ _ => rfl
    · rintro s s' _ i rfl same
      have db : s.db = s'.db := same
      simp only [components, addAccessCertificate, db]
      rfl
  | eccGetEcdh serial ecdh l =>
    refine .of_query _ _ (fun s => rfl) ?_ ?_
    · intro s i _
      simp only [eccGetEcdh]
      split <;> cases i <;> rfl
    · intro s s' agree
      simp only [eccGetEcdh, getSerialPublicPrivate, database_eq agree (Or.inl rfl),
        privateKey_eq agree (Or.inr rfl)]
      split <;> rfl
  | getSerial | getDeviceCertificate =>
    refine .of_query _ _ (fun s => rfl) (fun _ _ _ => rfl) ?_
    intro s s' agree
    simp only [getSerial, HmkitCorePersistenceHal.getDeviceCertificate,
      HmSdkConfig.getDeviceCertificate, certificate_eq agree rfl]
  | getLocalPublicKey =>
    refine .of_query _ _ (fun s => rfl) ?_ ?_
    · intro s i _
      cases i <;> rfl
    · intro s s' agree
      simp only [getLocalPublicKey, getSerialPublicPrivate, certificate_eq agree rfl]
  | eccAddSignature data signature =>
    refine .of_query _ _ (fun s => rfl) ?_ ?_
    · intro s i _
      cases i <;> rfl
    · intro s s' agree
      simp only [eccAddSignature, getSerialPublicPrivate, privateKey_eq agree rfl]
  | getCaPublicKey | eccValidateCaSignature =>
    refine .of_query _ _ (fun s => rfl) (fun _ _ _ => rfl) ?_
    intro s s' agree
    simp only [eccValidateCaSignature, getCaPublicKey, getDeviceCertIssuerPub,
      issuerPub_eq agree rfl]
  | getAccessCertificate | eccValidateSignature =>
    refine .of_query _ _ (fun s => rfl) (fun _ _ _ => rfl) ?_
    intro s s' agree
    simp only [eccValidateSignature, database_eq agree rfl]
  | _ => exact .of_query _ _ (fun s => rfl) (fun _ _ _ => rfl) fun _ _ _ => rfl

theorem hasFootprint (e : HmPyc.Event Obj) :
    HasFootprint components (HmPyc.step p) e (footprint e) := by
  cases e with
  | python method =>
    cases usable : accepted method with
    | true => simpa [footprint, usable] using method_footprint usable
    | false => simpa [footprint, usable] using refused_footprint usable
  | report report => exact report_footprint report
  | hal call => exact hal_footprint call

end PycFootprints
