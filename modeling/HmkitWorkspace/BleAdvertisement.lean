import HmkitWorkspace.AuxiliaryVariables
import HmkitWorkspace.HmkitCorePersistenceHal
import HmkitWorkspace.LengthTypeValue

/-! # Advertisements

The static `adv_data` of `hmkit_core_connectivity_hal.c`, the two functions that patch it and
the bindings that call them. The app id is copied one byte too low: it overwrites the last
byte of the issuer, and the last byte of the UUID is never written. -/
namespace BleAdvertisement

open TransitionRuns AuxiliaryVariables ByteBuffers HmSdkConfig LengthTypeValue

abbrev AdvData := Buffer 28

/-- `adv_data`: the name "PARKINGZ" and a service UUID that begins with "test". -/
def initialAdvData : AdvData :=
  ⟨[0x09, 0x09, 0x50, 0x41, 0x52, 0x4b, 0x49, 0x4e, 0x47, 0x5a, 0x11, 0x07, 0x74, 0x65, 0x73, 0x74,
    0, 0, 0, 0, 0, 0, 0, 0, 0, 0, 0, 0], rfl⟩

structure State where
  advData : AdvData
  config : Config

inductive Call where
  | gapAdvertisementsSetParams (intMin intMax : UInt16) (type directType : UInt8)
      (directAddress : Buffer 6) (channelMap filterPolicy : UInt8)
  | gapAdvertisementsSetData (data : AdvData)
  | gapAdvertisementsEnable (enabled : Bool)

/-- `hmkit_core_connectivity_hal_set_ble_name` -/
def setBleName (advData : AdvData) (devicename : Buffer 8) : AdvData :=
  advData.patch 2 devicename (by decide)

/-- `hmkit_core_connectivity_hal_advertisement_start` -/
def advertisementStart (advData : AdvData) (issuerId : Buffer 4) (appId : Buffer 12) :
    AdvData × List Call :=
  let advData := (advData.patch 12 issuerId (by decide)).patch 15 appId (by decide)
  (advData, [.gapAdvertisementsSetParams 0x0030 0x0030 0 0 0 0x07 0x00,
    .gapAdvertisementsSetData advData, .gapAdvertisementsEnable true])

/-- `hmkit_core_connectivity_hal_advertisement_stop` -/
def advertisementStop : List Call := [.gapAdvertisementsEnable false]

def issuer (cert : Buffer 153) : Buffer 4 := cert.slice 0 4 (by decide)

def appId (cert : Buffer 153) : Buffer 12 := cert.slice 4 12 (by decide)

/-- The arguments `cert` and `cert + 4` are read as an issuer and an app id. -/
def pyBleAdvertisementStart (s : State) : State × List Call :=
  let cert := HmkitCorePersistenceHal.getDeviceCertificate s.config
  let r := advertisementStart s.advData (issuer cert) (appId cert)
  ({ s with advData := r.1 }, r.2)

def pySetBleDeviceName (s : State) (name : Buffer 8) : State :=
  { s with advData := setBleName s.advData name }

def pyBleAdvertisementStop (s : State) : State × List Call := (s, advertisementStop)

inductive Event where
  | setBleDeviceName (name : Buffer 8)
  | setDeviceCertificate (device : Buffer 153)
  | bleAdvertisementStart
  | bleAdvertisementStop

def step (s : State) : Event → Option (State × List Call)
  | .setBleDeviceName name => some (pySetBleDeviceName s name, [])
  | .setDeviceCertificate device =>
    some ({ s with config := HmSdkConfig.setDeviceCertificate s.config device }, [])
  | .bleAdvertisementStart => some (pyBleAdvertisementStart s)
  | .bleAdvertisementStop => some (pyBleAdvertisementStop s)

/-! ## What an advertisement should say -/

/-- The name and the certificate set last. -/
structure Settings where
  name : Buffer 8
  certificate : Buffer 153

def settingsAfter (l : Settings) : Event → Settings
  | .setBleDeviceName name => { l with name := name }
  | .setDeviceCertificate device => { l with certificate := device }
  | _ => l

abbrev Advertiser := Augmented State Settings

def advertiserStep : StepFunction Advertiser Event Call :=
  augment step fun _ l e _ => settingsAfter l e

def defaultName : Buffer 8 := ⟨[0x50, 0x41, 0x52, 0x4b, 0x49, 0x4e, 0x47, 0x5a], rfl⟩

/-- Any credentials may be there at the start. -/
def Advertiser.initial (config : Config) : Advertiser :=
  ⟨⟨initialAdvData, config⟩, defaultName, config.mLinkDeviceCertificate⟩

/-- A complete local name and a list of one 128-bit service UUID. -/
def fields (name : Buffer 8) (uuid : List UInt8) : List Field :=
  [⟨0x09, name.bytes⟩, ⟨0x07, uuid⟩]

def Advertises (l : Settings) (data : AdvData) : Prop :=
  decode data.bytes =
    some (fields l.name ((issuer l.certificate).bytes ++ (appId l.certificate).bytes))

/-- The UUID that is sent: three bytes of the issuer, the app id, and a zero. -/
def sentUuid (cert : Buffer 153) : List UInt8 :=
  (cert.slice 0 3 (by decide)).bytes ++ (appId cert).bytes ++ [0]

/-- The last byte of the issuer and the whole app id. -/
def issuerTail (cert : Buffer 153) : Buffer 13 := cert.slice 3 13 (by decide)

variable {w v w' : Advertiser} {e : Event} {out : List Call} {config config' : Config}
  {name name' : Buffer 8} {cert cert' : Buffer 153} {data data' : AdvData}
  {tr tr' : List (Transition Advertiser Event Call)}

/-! ## The encoding -/

theorem length_sentUuid (cert : Buffer 153) : (sentUuid cert).length = 16 := by
  simp [sentUuid, Buffer.length_eq]

theorem fields_fit {uuid : List UInt8} (h : uuid.length = 16) :
    ∀ f ∈ fields name uuid, f.Fits := by
  intro f hf
  simp only [fields, List.mem_cons, List.not_mem_nil, or_false] at hf
  rcases hf with rfl | rfl
  · simp [Field.Fits, name.length_eq]
  · simp [Field.Fits, h]

theorem encodeAll_fields {uuid : List UInt8} (h : uuid.length = 16) :
    encodeAll (fields name uuid) = [0x09, 0x09] ++ name.bytes ++ [0x11, 0x07] ++ uuid := by
  simp [encodeAll, fields, encode, Field.lengthByte, name.length_eq, h]

theorem appended_zero_iff (x : UInt8) (l : List UInt8) :
    x :: l = l ++ [0] ↔ x :: l = List.replicate (l.length + 1) 0 := by
  induction l generalizing x with
  | nil => simp
  | cons y l ih =>
    have rest := ih y
    simp only [List.cons_append, List.cons.injEq, List.length_cons, List.replicate_succ]
      at rest ⊢
    rw [rest]
    constructor
    · intro h
      obtain ⟨rfl, rfl, hl⟩ := h
      exact ⟨rfl, rfl, hl⟩
    · intro h
      obtain ⟨rfl, rfl, hl⟩ := h
      exact ⟨rfl, rfl, hl⟩

theorem sentUuid_eq_iff (cert : Buffer 153) :
    sentUuid cert = (issuer cert).bytes ++ (appId cert).bytes ↔ issuerTail cert = 0 := by
  obtain ⟨x, rest, hx⟩ : ∃ x rest, cert.bytes.drop 3 = x :: rest :=
    List.exists_cons_of_length_pos (by simp [cert.length_eq])
  have h4 : cert.bytes.drop 4 = rest := by
    have := congrArg (List.drop 1) hx
    simpa using this
  have hlen : (rest.take 12).length = 12 := by
    rw [← h4]
    simp [cert.length_eq]
  have hissuer : (issuer cert).bytes = cert.bytes.take 3 ++ [x] := by
    have : cert.bytes.take 4 = cert.bytes.take 3 ++ (cert.bytes.drop 3).take 1 := by
      rw [← List.take_add]
    simpa [issuer, Buffer.slice, hx] using this
  have htail : (issuerTail cert).bytes = x :: rest.take 12 := by
    simp [issuerTail, Buffer.slice, hx]
  have happ : (appId cert).bytes = rest.take 12 := by
    simp [appId, Buffer.slice, h4]
  rw [sentUuid, hissuer, happ]
  simp only [Buffer.slice, List.drop_zero, List.append_assoc, List.append_cancel_left_eq,
    List.singleton_append]
  rw [eq_comm, appended_zero_iff, ← htail, hlen]
  constructor
  · intro h
    exact Buffer.ext h
  · intro h
    exact congrArg Buffer.bytes h

/-! ## One event -/

/-- The buffer holds the name, the two headers, and a UUID that ends in zero. -/
def Tiled (advData : AdvData) (name : Buffer 8) (uuid : List UInt8) : Prop :=
  uuid.length = 15 ∧ advData.bytes = [0x09, 0x09] ++ name.bytes ++ [0x11, 0x07] ++ uuid ++ [0]

theorem setBleName_tiled {advData : AdvData} {uuid : List UInt8} (h : Tiled advData name uuid)
    (devicename : Buffer 8) : Tiled (setBleName advData devicename) devicename uuid := by
  refine ⟨h.1, ?_⟩
  have patched := overwrite_append [0x09, 0x09] ([0x11, 0x07] ++ uuid ++ [0])
    (name.length_eq.trans devicename.length_eq.symm)
  simp only [setBleName, Buffer.patch, h.2, List.append_assoc] at patched ⊢
  exact patched

/-- The issuer goes to bytes 12 to 15, the app id over its last byte up to byte 26. -/
theorem advertisementStart_tiled {advData : AdvData} {uuid : List UInt8}
    (h : Tiled advData name uuid) (issuerId : Buffer 4) (appId : Buffer 12) :
    Tiled (advertisementStart advData issuerId appId).1 name
      (issuerId.bytes.take 3 ++ appId.bytes) := by
  obtain ⟨length, bytes⟩ := h
  refine ⟨by simp [issuerId.length_eq, appId.length_eq], ?_⟩
  have first := overwrite_append ([0x09, 0x09] ++ name.bytes ++ [0x11, 0x07])
    (uuid.drop 4 ++ [0])
    (show (uuid.take 4).length = issuerId.bytes.length by simp [length, issuerId.length_eq])
  have second := overwrite_append
    ([0x09, 0x09] ++ name.bytes ++ [0x11, 0x07] ++ issuerId.bytes.take 3) [0]
    (show (issuerId.bytes.drop 3 ++ uuid.drop 4).length = appId.bytes.length by
      simp [length, issuerId.length_eq, appId.length_eq])
  have hold : uuid.take 4 ++ (uuid.drop 4 ++ [0]) = uuid ++ [0] := by
    rw [← List.append_assoc, List.take_append_drop]
  have hissuer : ∀ rest, issuerId.bytes.take 3 ++ (issuerId.bytes.drop 3 ++ rest) =
      issuerId.bytes ++ rest := by
    intro rest
    rw [← List.append_assoc, List.take_append_drop]
  have at12 : ([0x09, 0x09] ++ name.bytes ++ [0x11, 0x07]).length = 12 := by
    simp [name.length_eq]
  have at15 :
      ([0x09, 0x09] ++ name.bytes ++ [0x11, 0x07] ++ issuerId.bytes.take 3).length = 15 := by
    simp [name.length_eq, issuerId.length_eq]
  rw [at12] at first
  rw [at15] at second
  simp only [advertisementStart, Buffer.patch, bytes, List.append_assoc, hold, hissuer]
    at first second ⊢
  rw [first, second]

theorem Tiled.bytes_eq {advData : AdvData} {uuid : List UInt8} (h : Tiled advData name uuid) :
    advData.bytes = encodeAll (fields name (uuid ++ [0])) := by
  rw [encodeAll_fields (by simp [h.1]), h.2]
  simp

structure Follows (w : Advertiser) : Prop where
  certificate : w.state.config.mLinkDeviceCertificate = w.record.certificate
  tiled : ∃ uuid, Tiled w.state.advData w.record.name uuid

theorem start_tiled (h : Follows w) :
    Tiled (pyBleAdvertisementStart w.state).1.advData w.record.name
      ((w.record.certificate.slice 0 3 (by decide)).bytes ++
        (appId w.record.certificate).bytes) := by
  obtain ⟨uuid, tiled⟩ := h.tiled
  have started := advertisementStart_tiled tiled (issuer w.record.certificate)
    (appId w.record.certificate)
  have same : HmkitCorePersistenceHal.getDeviceCertificate w.state.config =
      w.record.certificate := h.certificate
  have head : (issuer w.record.certificate).bytes.take 3 =
      (w.record.certificate.slice 0 3 (by decide)).bytes := by
    simp [issuer, Buffer.slice, List.take_take]
  rw [head] at started
  simpa only [pyBleAdvertisementStart, same] using started

theorem follows_step (h : Follows w) (hs : advertiserStep w e = some (v, out)) : Follows v := by
  obtain ⟨hstep, record⟩ := augment_step hs
  cases e with
  | setBleDeviceName name =>
    obtain ⟨hu, _⟩ := total_step hstep
    obtain ⟨uuid, tiled⟩ := h.tiled
    refine ⟨?_, uuid, ?_⟩
    · rw [← hu, record]; exact h.certificate
    · rw [← hu, record]; exact setBleName_tiled tiled name
  | setDeviceCertificate device =>
    obtain ⟨hu, _⟩ := total_step hstep
    refine ⟨?_, ?_⟩
    · rw [← hu, record]; rfl
    · rw [← hu, record]; exact h.tiled
  | bleAdvertisementStart =>
    obtain ⟨hu, _⟩ := total_step hstep
    refine ⟨?_, ?_⟩
    · rw [← hu, record]; exact h.certificate
    · rw [← hu, record]; exact ⟨_, start_tiled h⟩
  | bleAdvertisementStop =>
    obtain ⟨hu, _⟩ := total_step hstep
    refine ⟨?_, ?_⟩
    · rw [← hu, record]; exact h.certificate
    · rw [← hu, record]; exact h.tiled

theorem initial_follows (config : Config) : Follows (Advertiser.initial config) :=
  ⟨rfl, [0x74, 0x65, 0x73, 0x74, 0, 0, 0, 0, 0, 0, 0, 0, 0, 0, 0], rfl, rfl⟩

theorem sent_cases (h : Follows w) (hs : advertiserStep w e = some (v, out))
    (hd : .gapAdvertisementsSetData data ∈ out) :
    data.bytes = encodeAll (fields w.record.name (sentUuid w.record.certificate)) := by
  have hstep := (augment_step hs).1
  cases e with
  | bleAdvertisementStart =>
    obtain ⟨_, rfl⟩ := total_step hstep
    have sent : data = (pyBleAdvertisementStart w.state).1.advData := by
      simpa [pyBleAdvertisementStart, advertisementStart] using hd
    rw [sent, (start_tiled h).bytes_eq]
    rfl
  | setBleDeviceName name =>
    obtain ⟨_, rfl⟩ := total_step hstep
    simp at hd
  | setDeviceCertificate device =>
    obtain ⟨_, rfl⟩ := total_step hstep
    simp at hd
  | bleAdvertisementStop =>
    obtain ⟨_, rfl⟩ := total_step hstep
    simp [pyBleAdvertisementStop, advertisementStop] at hd

/-! ## Runs -/

/-- The step passes these bytes to `gap_advertisements_set_data`. -/
def Sends (t : Transition Advertiser Event Call) (data : AdvData) : Prop :=
  .gapAdvertisementsSetData data ∈ t.outputs

/-- The certificates agree on all bytes of issuer and app id but the last one of the issuer. -/
def SameButIssuerEnd (cert cert' : Buffer 153) : Prop :=
  cert.slice 0 3 (by decide) = cert'.slice 0 3 (by decide) ∧ appId cert = appId cert'

theorem sends_bytes (h : Execution advertiserStep (fun _ _ => True) (.initial config) tr w)
    {t : Transition Advertiser Event Call} (ht : t ∈ tr) (hd : Sends t data) :
    data.bytes = encodeAll (fields t.pre.record.name (sentUuid t.pre.record.certificate)) := by
  obtain ⟨_, earlier, _, hs⟩ := h.transition ht
  have follows := earlier.invariant Follows (initial_follows config)
    fun before _ hs => follows_step before hs
  exact sent_cases follows hs hd

theorem sentUuid_inj : sentUuid cert = sentUuid cert' ↔ SameButIssuerEnd cert cert' := by
  unfold SameButIssuerEnd sentUuid
  constructor
  · intro h
    have body := List.append_cancel_right h
    obtain ⟨hissuer, happ⟩ := List.append_inj body (by rw [Buffer.length_eq, Buffer.length_eq])
    exact ⟨Buffer.ext hissuer, Buffer.ext happ⟩
  · intro h
    rw [h.1, h.2]

/-- Every advertisement parses as a name and a UUID, and the name is the latest; the UUID is
issuer and app id exactly when the end of the issuer and the app id are zero; and two
payloads are equal exactly when nothing but the end of the issuer differs. -/
theorem ble_advertisement (h : Execution advertiserStep (fun _ _ => True) (.initial config) tr w)
    (h' : Execution advertiserStep (fun _ _ => True) (.initial config') tr' w') :
    (∀ t ∈ tr, ∀ data, Sends t data →
      (∃ uuid, uuid.length = 16 ∧ decode data.bytes = some (fields t.pre.record.name uuid)) ∧
      (Advertises t.pre.record data ↔ issuerTail t.pre.record.certificate = 0)) ∧
    ∀ t ∈ tr, ∀ t' ∈ tr', ∀ data data', Sends t data → Sends t' data' →
      (data = data' ↔ t.pre.record.name = t'.pre.record.name ∧
        SameButIssuerEnd t.pre.record.certificate t'.pre.record.certificate) := by
  constructor
  · intro t ht data hd
    have decoded : decode data.bytes =
        some (fields t.pre.record.name (sentUuid t.pre.record.certificate)) := by
      rw [sends_bytes h ht hd]
      exact decode_encodeAll (fields_fit (length_sentUuid _))
    refine ⟨⟨_, length_sentUuid _, decoded⟩, ?_⟩
    rw [Advertises, decoded, ← sentUuid_eq_iff]
    simp [fields]
  · intro t ht t' ht' data data' hd hd'
    have bytes := sends_bytes h ht hd
    have bytes' := sends_bytes h' ht' hd'
    rw [← sentUuid_inj]
    constructor
    · intro same
      rw [← same, bytes] at bytes'
      have equal := encodeAll_inj (fields_fit (length_sentUuid _))
        (fields_fit (length_sentUuid _)) bytes'
      simp only [fields, List.cons.injEq, Field.mk.injEq, true_and, and_true] at equal
      exact ⟨Buffer.ext equal.1, equal.2⟩
    · intro same
      apply Buffer.ext
      rw [bytes, bytes', same.1, same.2]

/-- Credentials before anything is set. -/
def noConfig : Config := ⟨0, ⟨0, 0, 0⟩, 0⟩

def someCert (first : UInt8) : Buffer 153 :=
  ⟨[1, 2, 3, first] ++ List.replicate 149 0, by simp⟩

theorem ble_advertisement_zero_tail :
    ∃ t₀ t₁ t w data, run advertiserStep (.initial noConfig) [.setDeviceCertificate (someCert 0),
        .setBleDeviceName ⟨[0x61, 0x62, 0x63, 0x64, 0x65, 0x66, 0x67, 0x68], rfl⟩,
        .bleAdvertisementStart] = some ([t₀, t₁, t], w) ∧ Sends t data ∧
      Advertises t.pre.record data ∧
      data.bytes.drop 12 = [1, 2, 3, 0, 0, 0, 0, 0, 0, 0, 0, 0, 0, 0, 0, 0] := by
  have sends : ∀ (a c : Call) data, Call.gapAdvertisementsSetData data ∈
      [a, .gapAdvertisementsSetData data, c] := by simp
  have last : ∀ t₀ t₁ t : Transition Advertiser Event Call, t ∈ [t₀, t₁, t] := by simp
  have nothing : Execution advertiserStep (fun _ _ => True) (.initial noConfig) []
    (Advertiser.initial noConfig) := .init
  have both := ble_advertisement (execution_of_run (s := Advertiser.initial noConfig)
    [.setDeviceCertificate (someCert 0),
      .setBleDeviceName ⟨[0x61, 0x62, 0x63, 0x64, 0x65, 0x66, 0x67, 0x68], rfl⟩,
      .bleAdvertisementStart] rfl fun _ _ => trivial) nothing
  exact ⟨_, _, _, _, _, rfl, sends _ _ _,
    (both.1 _ (last _ _ _) _ (sends _ _ _)).2.mpr (by decide), by decide⟩

/-- A certificate whose fourth byte is not zero: the UUID lacks it, and a certificate with
another fourth byte has the same advertisement. -/
theorem issuer_end_overwritten :
    ∃ t₀ t t₁ t' w data,
      Execution advertiserStep (fun _ _ => True) (.initial noConfig) [t₀, t, t₁, t'] w ∧
      Sends t data ∧ Sends t' data ∧ issuer t.pre.record.certificate = ⟨[1, 2, 3, 4], rfl⟩ ∧
      issuer t'.pre.record.certificate = ⟨[1, 2, 3, 5], rfl⟩ ∧
      data.bytes.drop 12 = [1, 2, 3, 0, 0, 0, 0, 0, 0, 0, 0, 0, 0, 0, 0, 0] ∧
      ¬ Advertises t.pre.record data := by
  have sends : ∀ (a c : Call) data, Call.gapAdvertisementsSetData data ∈
      [a, .gapAdvertisementsSetData data, c] := by simp
  refine ⟨_, _, _, _, _, _, execution_of_run [.setDeviceCertificate (someCert 4),
    .bleAdvertisementStart, .setDeviceCertificate (someCert 5), .bleAdvertisementStart] rfl
      fun _ _ => trivial, sends _ _ _, sends _ _ _, by decide, by decide, by decide, ?_⟩
  unfold Advertises
  decide

end BleAdvertisement
