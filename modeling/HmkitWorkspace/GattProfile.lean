import HmkitWorkspace.AttDatabase
import HmkitWorkspace.HalFootprints

/-! # The profile and its handlers

The attribute database of `hm_service_gatt.h`, the service of `hm_service.gatt` it was made
from, and what the handlers do with its attributes: nothing that the profile does not permit. -/
namespace GattProfile

open TransitionRuns AttDatabase HmkitCoreConnectivityHal ConnectionTableInvariant ReadBuffers
  HalFootprints

/-! ## The service -/

/-- The properties of a CHARACTERISTIC line besides DYNAMIC. -/
structure Properties where
  read : Bool
  writeWithoutResponse : Bool
  notify : Bool

structure Line where
  /-- The last byte of the first group of the UUID. -/
  number : UInt8
  properties : Properties

def hmService : List Line := [
  ⟨0x02, ⟨true, false, true⟩⟩,
  ⟨0x03, ⟨false, true, false⟩⟩,
  ⟨0x04, ⟨true, false, true⟩⟩,
  ⟨0x05, ⟨true, false, false⟩⟩,
  ⟨0x06, ⟨true, false, true⟩⟩,
  ⟨0x07, ⟨false, true, false⟩⟩]

/-- 713d01xx-503e-4c75-ba94-3148f18d941e -/
def uuid128 (number : UInt8) : List UInt8 :=
  [0x1e, 0x94, 0x8d, 0xf1, 0x48, 0x31, 0x94, 0xba, 0x75, 0x4c, 0x3e, 0x50, number, 0x01, 0x3d, 0x71]

def readProperty : UInt8 := 0x02
def writeWithoutResponseProperty : UInt8 := 0x04
def notifyProperty : UInt8 := 0x10

def primaryServiceUuid : List UInt8 := word 0x2800
def characteristicUuid : List UInt8 := word 0x2803
def clientConfigurationUuid : List UInt8 := word 0x2902

def Properties.byte (p : Properties) : UInt8 :=
  (if p.read then readProperty else 0) + (if p.writeWithoutResponse then
    writeWithoutResponseProperty else 0) + if p.notify then notifyProperty else 0

/-- DYNAMIC, a UUID of 128 bits, and who may read or write. -/
def Properties.valueFlags (p : Properties) : UInt16 :=
  0x0300 + (if p.read then 0x0002 else 0) + if p.writeWithoutResponse then 0x0004 else 0

theorem uuidLength_valueFlags (p : Properties) : uuidLength p.valueFlags = 16 := by
  rcases p with ⟨read, write, notify⟩
  cases read <;> cases write <;> cases notify <;> decide

/-! ## Its attributes -/

def primaryService (handle : UInt16) : Attribute :=
  ⟨0x0002, handle, primaryServiceUuid, uuid128 0x00, rfl, by decide⟩

def declaration (handle : UInt16) (line : Line) : Attribute :=
  ⟨0x0002, handle, characteristicUuid,
    [line.properties.byte] ++ word (handle + 1) ++ uuid128 line.number, rfl, by
      simp [characteristicUuid, word, uuid128]⟩

def valueAttribute (handle : UInt16) (line : Line) : Attribute :=
  ⟨line.properties.valueFlags, handle, uuid128 line.number, [],
    (uuidLength_valueFlags line.properties).symm, by simp [uuid128]⟩

def clientConfiguration (handle : UInt16) : Attribute :=
  ⟨0x010e, handle, clientConfigurationUuid, [0, 0], rfl, by decide⟩

/-- The attributes of some characteristics, from a handle on. -/
def attributesFrom (handle : UInt16) : List Line → List Attribute
  | [] => []
  | line :: lines =>
    if line.properties.notify then
      declaration handle line :: valueAttribute (handle + 1) line ::
        clientConfiguration (handle + 2) :: attributesFrom (handle + 3) lines
    else
      declaration handle line :: valueAttribute (handle + 1) line ::
        attributesFrom (handle + 2) lines

def hmProfile : List Attribute := primaryService 1 :: attributesFrom 2 hmService

def hmProfileData : List UInt8 := [
  1,
  0x18, 0x00, 0x02, 0x00, 0x01, 0x00, 0x00, 0x28, 0x1e, 0x94, 0x8d, 0xf1, 0x48, 0x31, 0x94, 0xba,
    0x75, 0x4c, 0x3e, 0x50, 0x00, 0x01, 0x3d, 0x71,
  0x1b, 0x00, 0x02, 0x00, 0x02, 0x00, 0x03, 0x28, 0x12, 0x03, 0x00, 0x1e, 0x94, 0x8d, 0xf1, 0x48,
    0x31, 0x94, 0xba, 0x75, 0x4c, 0x3e, 0x50, 0x02, 0x01, 0x3d, 0x71,
  0x16, 0x00, 0x02, 0x03, 0x03, 0x00, 0x1e, 0x94, 0x8d, 0xf1, 0x48, 0x31, 0x94, 0xba, 0x75, 0x4c,
    0x3e, 0x50, 0x02, 0x01, 0x3d, 0x71,
  0x0a, 0x00, 0x0e, 0x01, 0x04, 0x00, 0x02, 0x29, 0x00, 0x00,
  0x1b, 0x00, 0x02, 0x00, 0x05, 0x00, 0x03, 0x28, 0x04, 0x06, 0x00, 0x1e, 0x94, 0x8d, 0xf1, 0x48,
    0x31, 0x94, 0xba, 0x75, 0x4c, 0x3e, 0x50, 0x03, 0x01, 0x3d, 0x71,
  0x16, 0x00, 0x04, 0x03, 0x06, 0x00, 0x1e, 0x94, 0x8d, 0xf1, 0x48, 0x31, 0x94, 0xba, 0x75, 0x4c,
    0x3e, 0x50, 0x03, 0x01, 0x3d, 0x71,
  0x1b, 0x00, 0x02, 0x00, 0x07, 0x00, 0x03, 0x28, 0x12, 0x08, 0x00, 0x1e, 0x94, 0x8d, 0xf1, 0x48,
    0x31, 0x94, 0xba, 0x75, 0x4c, 0x3e, 0x50, 0x04, 0x01, 0x3d, 0x71,
  0x16, 0x00, 0x02, 0x03, 0x08, 0x00, 0x1e, 0x94, 0x8d, 0xf1, 0x48, 0x31, 0x94, 0xba, 0x75, 0x4c,
    0x3e, 0x50, 0x04, 0x01, 0x3d, 0x71,
  0x0a, 0x00, 0x0e, 0x01, 0x09, 0x00, 0x02, 0x29, 0x00, 0x00,
  0x1b, 0x00, 0x02, 0x00, 0x0a, 0x00, 0x03, 0x28, 0x02, 0x0b, 0x00, 0x1e, 0x94, 0x8d, 0xf1, 0x48,
    0x31, 0x94, 0xba, 0x75, 0x4c, 0x3e, 0x50, 0x05, 0x01, 0x3d, 0x71,
  0x16, 0x00, 0x02, 0x03, 0x0b, 0x00, 0x1e, 0x94, 0x8d, 0xf1, 0x48, 0x31, 0x94, 0xba, 0x75, 0x4c,
    0x3e, 0x50, 0x05, 0x01, 0x3d, 0x71,
  0x1b, 0x00, 0x02, 0x00, 0x0c, 0x00, 0x03, 0x28, 0x12, 0x0d, 0x00, 0x1e, 0x94, 0x8d, 0xf1, 0x48,
    0x31, 0x94, 0xba, 0x75, 0x4c, 0x3e, 0x50, 0x06, 0x01, 0x3d, 0x71,
  0x16, 0x00, 0x02, 0x03, 0x0d, 0x00, 0x1e, 0x94, 0x8d, 0xf1, 0x48, 0x31, 0x94, 0xba, 0x75, 0x4c,
    0x3e, 0x50, 0x06, 0x01, 0x3d, 0x71,
  0x0a, 0x00, 0x0e, 0x01, 0x0e, 0x00, 0x02, 0x29, 0x00, 0x00,
  0x1b, 0x00, 0x02, 0x00, 0x0f, 0x00, 0x03, 0x28, 0x04, 0x10, 0x00, 0x1e, 0x94, 0x8d, 0xf1, 0x48,
    0x31, 0x94, 0xba, 0x75, 0x4c, 0x3e, 0x50, 0x07, 0x01, 0x3d, 0x71,
  0x16, 0x00, 0x04, 0x03, 0x10, 0x00, 0x1e, 0x94, 0x8d, 0xf1, 0x48, 0x31, 0x94, 0xba, 0x75, 0x4c,
    0x3e, 0x50, 0x07, 0x01, 0x3d, 0x71,
  0x00, 0x00]

section
set_option maxRecDepth 4000

theorem hmProfileData_eq : hmProfileData = encodeDatabase hmProfile := by
  decide

end

theorem decode_hmProfileData : decode hmProfileData = some hmProfile :=
  decode_eq_some_iff.mpr hmProfileData_eq

/-- The handles of the values that are declared with a property. -/
def valueHandles (attributes : List Attribute) (property : UInt8) : List UInt16 :=
  attributes.filterMap fun a =>
    if a.uuid = characteristicUuid then
      match a.value with
      | properties :: low :: high :: _ =>
        if properties &&& property = 0 then none else some (ofBytes low high)
      | _ => none
    else none

theorem notifying : valueHandles hmProfile notifyProperty = [0x0003, 0x0008, 0x000d] := by decide

theorem readable : valueHandles hmProfile readProperty = [0x0003, 0x0008, 0x000b, 0x000d] := by
  decide

theorem writable : valueHandles hmProfile writeWithoutResponseProperty = [0x0006, 0x0010] := by
  decide

/-! ## What the handlers permit -/

/-- The step emits just this and changes nothing. -/
def Inert (t : Transition State Event Observation) (answer : List Observation) : Prop :=
  t.outputs = answer ∧ t.post = t.pre

/-- The characteristic that a writable value is handed on as. -/
def writtenAs (attHandle : UInt16) : Characteristic :=
  if attHandle = linkWriteValueHandle then .linkWrite else .sensingWrite

/-- What comes of a write to a writable value: a connection that is known has it handed to the
core, once and unchanged. -/
def handedOn (s : State) (handle : HciConHandle) (attHandle : UInt16) (data : List UInt8) :
    List Observation :=
  match getBtConnectionUsingHandle s.btConnections handle with
  | some i => [.call (.linkIncomingData data (s.btConnections i).mac (writtenAs attHandle))]
  | none => []

/-- A step does with the attributes only what they are declared for. -/
structure Permitted (attributes : List Attribute) (t : Transition State Event Observation) :
    Prop where
  notified : ∀ handle attHandle value ret, .call (.notify handle attHandle value ret) ∈ t.outputs →
    attHandle ∈ valueHandles attributes notifyProperty
  read : ∀ handle attHandle offset valid bufferSize beyond,
    t.event = .attRead handle attHandle offset valid bufferSize beyond →
    attHandle ∉ valueHandles attributes readProperty → Inert t [.read attHandle 0 []]
  written : ∀ handle attHandle data, t.event = .attWrite handle attHandle data →
    Inert t (if attHandle ∈ valueHandles attributes writeWithoutResponseProperty then
      handedOn t.pre handle attHandle data else [])

variable {s u : State} {e : Event} {out : List Observation}
  {tr : List (Transition State Event Observation)} {attHandle : UInt16}

theorem call_of_observe (hs : observe s e = some (u, out)) {call : Call}
    (hc : .call call ∈ out) : CallStep s e call := by
  simp only [observe, Option.map_eq_some_iff, Prod.mk.injEq] at hs
  obtain ⟨⟨v, calls⟩, hs, rfl, rfl⟩ := hs
  rcases List.mem_append.mp hc with reads | hc
  · cases e with
    | attRead => simp [readsOf] at reads
    | _ => cases reads
  · obtain ⟨c, hc, same⟩ := List.mem_map.mp hc
    cases same
    exact step_call hs hc

/-- Reading an attribute that has no handler gives nothing. -/
theorem read_unhandled {handle : HciConHandle} {offset bufferSize : ℕ} {valid : Bool}
    {beyond : ℕ → UInt8} (unhandled : attHandle ∉ [0x0003, 0x000b, 0x000d])
    (hs : observe s (.attRead handle attHandle offset valid bufferSize beyond) = some (u, out)) :
    Inert ⟨s, .attRead handle attHandle offset valid bufferSize beyond, out, u⟩
      [.read attHandle 0 []] := by
  obtain ⟨link, info, sensing⟩ : attHandle ≠ Channel.link.valueHandle ∧
      attHandle ≠ infoValueHandle ∧ attHandle ≠ Channel.sensing.valueHandle := by
    simpa [Channel.valueHandle, infoValueHandle] using unhandled
  have nothing : attReadCallback s handle attHandle offset valid bufferSize beyond =
      ⟨s, [], 0, []⟩ := by
    rw [attReadCallback, if_neg info]
    split
    · rfl
    · simp [sensing, link]
  simp only [observe, step, readsOf, nothing] at hs
  obtain ⟨rfl, rfl⟩ := total_step hs
  exact ⟨rfl, rfl⟩

theorem write_handled {handle : HciConHandle} {data : List UInt8}
    (handled : attHandle ∈ [0x0006, 0x0010])
    (hs : observe s (.attWrite handle attHandle data) = some (u, out)) :
    Inert ⟨s, .attWrite handle attHandle data, out, u⟩ (handedOn s handle attHandle data) := by
  simp only [observe, step, readsOf, attWriteCallback] at hs
  obtain ⟨rfl, rfl⟩ := total_step hs
  refine ⟨?_, rfl⟩
  cases found : getBtConnectionUsingHandle s.btConnections handle with
  | none => simp [handedOn, found]
  | some i =>
    rcases List.mem_cons.mp handled with rfl | handled
    · simp [handedOn, found, writtenAs, linkWriteValueHandle, sensingWriteValueHandle]
    · obtain rfl := List.mem_singleton.mp handled
      simp [handedOn, found, writtenAs, linkWriteValueHandle, sensingWriteValueHandle]

theorem write_unhandled {handle : HciConHandle} {data : List UInt8}
    (unhandled : attHandle ∉ [0x0006, 0x0010])
    (hs : observe s (.attWrite handle attHandle data) = some (u, out)) :
    Inert ⟨s, .attWrite handle attHandle data, out, u⟩ [] := by
  obtain ⟨link, sensing⟩ : attHandle ≠ linkWriteValueHandle ∧
      attHandle ≠ sensingWriteValueHandle := by
    simpa [linkWriteValueHandle, sensingWriteValueHandle] using unhandled
  have nothing : attWriteCallback s handle attHandle data = [] := by
    rw [attWriteCallback]
    split
    · rfl
    · simp [link, sensing]
  simp only [observe, step, readsOf, nothing] at hs
  obtain ⟨rfl, rfl⟩ := total_step hs
  exact ⟨rfl, rfl⟩

theorem notify_handle (hs : observe s e = some (u, out)) {handle : HciConHandle}
    {value : List UInt8} {ret : ℤ} (hc : .call (.notify handle attHandle value ret) ∈ out) :
    ∃ ch : Channel, attHandle = ch.valueHandle := by
  cases call_of_observe hs hc with
  | notified _ ch => exact ⟨ch, rfl⟩

theorem permitted_step (hs : observe s e = some (u, out)) : Permitted hmProfile ⟨s, e, out, u⟩ := by
  refine ⟨?_, ?_, ?_⟩
  · intro handle attHandle value ret hc
    obtain ⟨ch, rfl⟩ := notify_handle hs hc
    rw [notifying]
    cases ch <;> decide
  · rintro handle attHandle offset valid bufferSize beyond rfl undeclared
    rw [readable] at undeclared
    apply read_unhandled _ hs
    have declared : ([0x0003, 0x000b, 0x000d] : List UInt16) ⊆
        [0x0003, 0x0008, 0x000b, 0x000d] := by decide
    exact fun handled => undeclared (declared handled)
  · rintro handle attHandle data rfl
    rw [writable]
    split
    · rename_i declared
      exact write_handled declared hs
    · rename_i undeclared
      exact write_unhandled undeclared hs

/-- The bytes of `hm_profile_data`, and no others, decode to the profile of the service, and over
every run the handlers keep to it: notifications only on values declared for it, nothing to read
in values not declared for it, each write to a writable value from a known connection handed to
the core once and unchanged, every other write ignored. The value of 0104 is declared like that
of 0102 and never served. -/
theorem profile_respected (h : Execution observe (fun _ _ => True) initial tr s) :
    decode hmProfileData = some hmProfile ∧
    (∀ bytes, decode bytes = some hmProfile → bytes = hmProfileData) ∧
    (∀ t ∈ tr, Permitted hmProfile t) ∧
    ∃ alive ∈ hmProfile, alive.uuid = uuid128 0x04 ∧
      alive.handle ∈ valueHandles hmProfile notifyProperty ∧
      alive.handle ∈ valueHandles hmProfile readProperty ∧
      ∀ t ∈ tr, (∀ handle value ret, .call (.notify handle alive.handle value ret) ∉ t.outputs) ∧
        ∀ handle offset valid bufferSize beyond,
          t.event = .attRead handle alive.handle offset valid bufferSize beyond →
          Inert t [.read alive.handle 0 []] := by
  refine ⟨decode_hmProfileData, ?_, ?_, valueAttribute 8 ⟨0x04, ⟨true, false, true⟩⟩,
    by decide, rfl, by decide, by decide, ?_⟩
  · intro bytes decoded
    rw [decode_eq_some_iff.mp decoded, hmProfileData_eq]
  · rintro ⟨pre, e, out, post⟩ ht
    obtain ⟨_, _, _, hs⟩ := h.transition ht
    exact permitted_step hs
  · rintro ⟨pre, e, out, post⟩ ht
    obtain ⟨_, _, _, hs⟩ := h.transition ht
    constructor
    · intro handle value ret hc
      obtain ⟨ch, same⟩ := notify_handle hs hc
      cases ch <;> exact absurd same (by decide)
    · rintro handle offset valid bufferSize beyond rfl
      exact read_unhandled (by decide) hs

/-- A write from a connection that is known, one from a connection that is not, and a read of the
value that is never served. -/
theorem profile_respected_one_peer :
    ∃ tr s, run observe initial
        [.hci (.leConnectionComplete 0 0x40 peerA), .attWrite 0x40 0x0006 [7],
          .attWrite 0x41 0x0006 [8], .attRead 0x40 0x0008 0 true 10 fun _ => 0] = some (tr, s) ∧
      ∀ t ∈ tr, Permitted hmProfile t := by
  have h : Execution observe (fun _ _ => True) initial _ _ := execution_of_run
    [.hci (.leConnectionComplete 0 0x40 peerA), .attWrite 0x40 0x0006 [7],
      .attWrite 0x41 0x0006 [8], .attRead 0x40 0x0008 0 true 10 fun _ => 0] rfl fun _ _ => trivial
  exact ⟨_, _, rfl, (profile_respected h).2.2.1⟩

end GattProfile
