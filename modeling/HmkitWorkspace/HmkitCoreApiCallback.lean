import HmkitWorkspace.ByteBuffers
import HmkitWorkspace.Forwarding
import HmkitWorkspace.KeyedHistories
import HmkitWorkspace.PycCallbacks

/-! # The callbacks of the core

`hmkit_core_api_callback.c` hands five of the core's callbacks on to the bindings and ignores
the others. It keeps a connected device of its own, which nothing reads. -/
namespace HmkitCoreApiCallback

open TransitionRuns Forwarding KeyedHistories HmSdkConfig PycCallbacks

variable {Obj : Type*}

/-- The file's own `isConnected` and `connectedSerial`, and those behind the bindings. -/
structure State (Obj : Type*) where
  isConnected : Bool
  connectedSerial : Serial
  bindings : PycCallbacks.State Obj

def initial : State Obj := ⟨false, 0, PycCallbacks.initial⟩

/-- A command as the core hands it over, its `length` being that of `data`. -/
structure Command where
  contentType : UInt8
  data : List UInt8
  respId : List UInt8
  version : UInt8

structure DateTime where
  day : UInt8
  month : UInt8
  year : UInt8
  minute : UInt8
  hour : UInt8

/-- Calls into the Python runtime, results, and the out parameters as they are left. -/
inductive Output (Obj : Type*) where
  | runtime (call : Call Obj)
  | ret (value : UInt32)
  | dateTime (value : DateTime)
  | revocation (data : List UInt8)

abbrev Result (Obj : Type*) := State Obj × List (Output Obj)

/-! ## Handed on -/

/-- What is left of a `uint32_t` length where the bindings take a `uint16_t`. -/
def narrowed (data : List UInt8) : List UInt8 := data.take (data.length % 2 ^ 16)

/-- The bindings do the rest, after this file has kept its own record. -/
def handOn (s : State Obj) (r : PycCallbacks.State Obj × List (Call Obj)) : Result Obj :=
  ({ s with bindings := r.1 }, r.2.map .runtime)

def hmkitCoreApiCallbackEnteredProximity (s : State Obj) (device : Device) (outcome : Outcome) :
    Result Obj :=
  let s := if device.isAuthorised = 1 then
    { s with connectedSerial := device.serialNumber, isConnected := true } else s
  handOn s (pyHmApiCallbackEnteredProximity s.bindings device outcome)

def hmkitCoreApiCallbackExitedProximity (s : State Obj) (device : Device) (outcome : Outcome) :
    Result Obj :=
  let s := { s with isConnected := false }
  handOn s (pyHmApiCallbackExitedProximity s.bindings device outcome)

def hmkitCoreApiCallbackCommandIncoming (s : State Obj) (device : Device) (command : Command)
    (outcome : Outcome) : Result Obj :=
  handOn s (pyHmApiCallbackCommandIncoming s.bindings device (narrowed command.data) outcome)

def hmkitCoreApiCallbackCommandResponse (s : State Obj) (device : Device) (command : Command)
    (outcome : Outcome) : Result Obj :=
  handOn s (pyHmApiCallbackCommandResponse s.bindings device (narrowed command.data) outcome)

/-- The bytes of a telematics command reach the bindings, which do not look at them. -/
def hmkitCoreApiCallbackTelematicsCommandIncoming (s : State Obj) (device : Device) (_ : UInt8)
    (_ : Command) (outcome : Outcome) : Result Obj :=
  handOn s (pyHmApiCallbackTelematicsCommandIncoming s.bindings device outcome)

/-! ## Ignored -/

/-- Prints at most, and returns what it returns to everyone. -/
def ignored (results : List (Output Obj)) (s : State Obj) : Result Obj := (s, results)

def hmkitCoreApiCallbackInit : State Obj → Result Obj := ignored []

def hmkitCoreApiCallbackClock : State Obj → Result Obj := ignored []

def hmkitCoreApiCallbackPing : State Obj → Result Obj := ignored []

def hmkitCoreApiCallbackProximityMeasured : State Obj → Result Obj := ignored []

def hmkitCoreApiCallbackCommandResponseError : State Obj → Result Obj := ignored []

def hmkitCoreApiCallbackGetDeviceCertificateFailed : State Obj → Result Obj := ignored [.ret 0]

def hmkitCoreApiCallbackAccessCertificateRegistered : State Obj → Result Obj := ignored []

def hmkitCoreApiCallbackPairingRequested : State Obj → Result Obj := ignored [.ret 0]

def hmkitCoreApiCallbackGetCurrentDateTime (left : DateTime) : State Obj → Result Obj :=
  ignored [.dateTime left, .ret 0]

def hmkitCoreApiCallbackRevokeResponse : State Obj → Result Obj := ignored []

def hmkitCoreApiCallbackRevokeIncoming (data : List UInt8) : State Obj → Result Obj :=
  ignored [.revocation data]

def hmkitCoreApiCallbackErrorCommandIncoming : State Obj → Result Obj := ignored []

/-! ## One event -/

/-- The callbacks of the core, with what the file looks at, and what Python does meanwhile. -/
inductive Event (Obj : Type*) where
  | enteredProximity (device : Device) (outcome : Outcome)
  | exitedProximity (device : Device) (outcome : Outcome)
  | commandIncoming (device : Device) (command : Command) (outcome : Outcome)
  | commandResponse (device : Device) (command : Command) (outcome : Outcome)
  | telematicsCommandIncoming (device : Device) (id : UInt8) (command : Command)
      (outcome : Outcome)
  | init
  | clock
  | ping
  | proximityMeasured
  | commandResponseError
  | getDeviceCertificateFailed
  | accessCertificateRegistered
  | pairingRequested
  | getCurrentDateTime (out : DateTime)
  | revokeResponse
  | revokeIncoming (data : List UInt8)
  | errorCommandIncoming
  | registerCb (args : Option (CbArgument Obj))
  | unregisterCb
  | sendcommand (msg : List UInt8)

def step (s : State Obj) : Event Obj → Option (Result Obj)
  | .enteredProximity device outcome =>
    some (hmkitCoreApiCallbackEnteredProximity s device outcome)
  | .exitedProximity device outcome => some (hmkitCoreApiCallbackExitedProximity s device outcome)
  | .commandIncoming device command outcome =>
    some (hmkitCoreApiCallbackCommandIncoming s device command outcome)
  | .commandResponse device command outcome =>
    some (hmkitCoreApiCallbackCommandResponse s device command outcome)
  | .telematicsCommandIncoming device id command outcome =>
    some (hmkitCoreApiCallbackTelematicsCommandIncoming s device id command outcome)
  | .init => some (hmkitCoreApiCallbackInit s)
  | .clock => some (hmkitCoreApiCallbackClock s)
  | .ping => some (hmkitCoreApiCallbackPing s)
  | .proximityMeasured => some (hmkitCoreApiCallbackProximityMeasured s)
  | .commandResponseError => some (hmkitCoreApiCallbackCommandResponseError s)
  | .getDeviceCertificateFailed => some (hmkitCoreApiCallbackGetDeviceCertificateFailed s)
  | .accessCertificateRegistered => some (hmkitCoreApiCallbackAccessCertificateRegistered s)
  | .pairingRequested => some (hmkitCoreApiCallbackPairingRequested s)
  | .getCurrentDateTime out => some (hmkitCoreApiCallbackGetCurrentDateTime out s)
  | .revokeResponse => some (hmkitCoreApiCallbackRevokeResponse s)
  | .revokeIncoming data => some (hmkitCoreApiCallbackRevokeIncoming data s)
  | .errorCommandIncoming => some (hmkitCoreApiCallbackErrorCommandIncoming s)
  | .registerCb args =>
    let r := hmPycRegisterCb s.bindings args
    some (handOn s (r.1, r.2.1))
  | .unregisterCb => some (handOn s (pyHmUnregisterCb s.bindings, []))
  | .sendcommand msg => some (handOn s (s.bindings, (pySendcommand s.bindings msg).1))

/-! ## What reaches the bindings -/

def forwarded : Event Obj → Option (PycCallbacks.Event Obj)
  | .enteredProximity device outcome => some (.enteredProximity device outcome)
  | .exitedProximity device outcome => some (.exitedProximity device outcome)
  | .commandIncoming device command outcome =>
    some (.commandIncoming device (narrowed command.data) outcome)
  | .commandResponse device command outcome =>
    some (.commandResponse device (narrowed command.data) outcome)
  | .telematicsCommandIncoming device _ _ outcome =>
    some (.telematicsCommandIncoming device outcome)
  | .registerCb args => some (.registerCb args)
  | .unregisterCb => some .unregisterCb
  | .sendcommand msg => some (.sendcommand msg)
  | _ => none

def relayed : Output Obj → Option (Call Obj)
  | .runtime call => some call
  | _ => none

variable {s u : State Obj} {e : Event Obj} {out : List (Output Obj)}

theorem relayed_handOn (calls : List (Call Obj)) :
    (calls.map Output.runtime).filterMap relayed = calls := by
  rw [List.filterMap_map]
  exact List.filterMap_some

/-- The file is a layer over the bindings. -/
theorem forwards :
    Forwards (@step Obj) PycCallbacks.step State.bindings forwarded relayed := by
  intro s e u out hs
  cases e with
  | enteredProximity device outcome =>
    obtain ⟨rfl, rfl⟩ := total_step hs
    simp only [forwarded, PycCallbacks.step, hmkitCoreApiCallbackEnteredProximity, handOn,
      relayed_handOn]
    split <;> rfl
  | init | clock | ping | proximityMeasured | commandResponseError | getDeviceCertificateFailed
  | accessCertificateRegistered | pairingRequested | getCurrentDateTime | revokeResponse
  | revokeIncoming | errorCommandIncoming =>
    obtain ⟨rfl, rfl⟩ := total_step hs
    exact ⟨rfl, rfl⟩
  | _ =>
    obtain ⟨rfl, rfl⟩ := total_step hs
    simp only [forwarded, PycCallbacks.step, handOn, hmkitCoreApiCallbackExitedProximity,
      hmkitCoreApiCallbackCommandIncoming, hmkitCoreApiCallbackCommandResponse,
      hmkitCoreApiCallbackTelematicsCommandIncoming, relayed_handOn]

end HmkitCoreApiCallback
