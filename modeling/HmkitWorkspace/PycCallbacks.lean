import HmkitWorkspace.TransitionRuns
import HmkitWorkspace.HmSdkConfig

/-! # Python callbacks

The callback registry, the events the core reports and the command path of `pyc_bindings.c`,
with `hm_pyc_register_cb` of `pyc_extension_module.c`. Calls into the Python runtime are
outputs; how the callback ends is part of the event. -/
namespace PycCallbacks

open TransitionRuns ByteBuffers HmSdkConfig

/-- `cb_keywrds_t` -/
inductive CbKeyword where
  | cmdIncoming
  | cmdResp
  | entProx
  | extProx
  | teleIncm
  deriving DecidableEq

/-- `hmkit_core_device_t` by the fields in use. -/
structure Device where
  mac : Buffer 6
  serialNumber : Serial
  isAuthorised : UInt8

/-- How the object found in a slot answers: it returns, it raises, or it is not callable. -/
inductive Outcome where
  | returned
  | raised
  | notCallable
  deriving DecidableEq

/-- A tuple of bytes objects. -/
abbrev Args := List (List UInt8)

variable {Obj : Type*}

/-- The registry is `pycb_cmdincoming` and its siblings, one storage for both files. -/
structure State (Obj : Type*) where
  isConnected : Bool
  connectedSerial : Serial
  registry : CbKeyword → Option Obj

/-- Calls into the Python runtime and the core. A result object is released where it is made. -/
inductive Call (Obj : Type*) where
  | xincref (object : Obj)
  | decref (object : Obj)
  | gilEnsure
  | gilRelease
  | tupleNew (args : Args)
  | decrefArgs (args : Args)
  | callObject (function : Obj) (args : Args)
  | decrefValue
  | errPrint
  | sendCustomCommand (appContxtId : UInt64) (serial : Serial) (contentType : UInt8)
      (data : List UInt8) (reqId : List UInt8) (version : UInt8)
  deriving DecidableEq

def initial : State Obj := ⟨false, 0, fun _ => none⟩

/-! ## C to Python -/

/-- `call_python_cb`. When the call raises, the function is released and the rest skipped;
an object that is not callable leaves the arguments alone. -/
def callPythonCb (pFunc : Obj) (pArgsCb : Args) : Outcome → List (Call Obj)
  | .returned =>
    [.gilEnsure, .callObject pFunc pArgsCb, .decrefArgs pArgsCb, .decrefValue, .gilRelease]
  | .raised =>
    [.gilEnsure, .callObject pFunc pArgsCb, .decrefArgs pArgsCb, .decref pFunc, .errPrint]
  | .notCallable => [.gilEnsure, .gilRelease]

/-- What the five event wrappers share: nothing is created for an empty slot. -/
def dispatch (s : State Obj) (keyword : CbKeyword) (args : Args) (outcome : Outcome) :
    List (Call Obj) :=
  match s.registry keyword with
  | none => []
  | some pFunc => .tupleNew args :: callPythonCb pFunc args outcome

def pyHmApiCallbackCommandIncoming (s : State Obj) (_ : Device) (data : List UInt8)
    (outcome : Outcome) : State Obj × List (Call Obj) :=
  (s, dispatch s .cmdIncoming [data] outcome)

def pyHmApiCallbackCommandResponse (s : State Obj) (_ : Device) (data : List UInt8)
    (outcome : Outcome) : State Obj × List (Call Obj) :=
  (s, dispatch s .cmdResp [data] outcome)

/-- An entry that is not authorised leaves the connected device as it was. -/
def pyHmApiCallbackEnteredProximity (s : State Obj) (device : Device) (outcome : Outcome) :
    State Obj × List (Call Obj) :=
  (if device.isAuthorised = 1 then
      { s with connectedSerial := device.serialNumber, isConnected := true }
    else s,
    dispatch s .entProx [device.mac.bytes] outcome)

/-- The flag falls whichever device left. -/
def pyHmApiCallbackExitedProximity (s : State Obj) (device : Device) (outcome : Outcome) :
    State Obj × List (Call Obj) :=
  ({ s with isConnected := false }, dispatch s .extProx [device.mac.bytes] outcome)

def pyHmApiCallbackTelematicsCommandIncoming (s : State Obj) (_ : Device) (outcome : Outcome) :
    State Obj × List (Call Obj) :=
  (s, dispatch s .teleIncm [] outcome)

/-! ## Python to C -/

def pyHmRegisterCb (s : State Obj) (cb : Obj) (eKeywrd : CbKeyword) : State Obj :=
  { s with registry := Function.update s.registry eKeywrd (some cb) }

def pyHmUnregisterCb (s : State Obj) : State Obj := { s with registry := fun _ => none }

/-- The four names that `hm_pyc_register_cb` compares with; none is for telematics. -/
def cbKeyword (name : String) : Option CbKeyword :=
  if name = "py_cb_command_incoming" then some .cmdIncoming
  else if name = "py_cb_command_response" then some .cmdResp
  else if name = "py_cb_entered_proximity" then some .entProx
  else if name = "py_cb_exited_proximity" then some .extProx
  else none

/-- A name and an object; `callable` is what `PyCallable_Check` says of it. -/
structure CbArgument (Obj : Type*) where
  name : String
  object : Obj
  callable : Bool

/-- What the extension returns: a number or NULL. -/
inductive PyResult where
  | long (value : ℤ)
  | null
  deriving DecidableEq

/-- `hm_pyc_register_cb`; `none` stands for arguments that do not parse. The reference is taken
before the name is looked at, and the slot is assigned here and once more below. -/
def hmPycRegisterCb (s : State Obj) (args : Option (CbArgument Obj)) :
    State Obj × List (Call Obj) × PyResult :=
  match args with
  | none => (s, [], .null)
  | some a =>
    if a.callable then
      match cbKeyword a.name with
      | none => (s, [.xincref a.object], .null)
      | some eCbkeywrd =>
        let s := { s with registry := Function.update s.registry eCbkeywrd (some a.object) }
        (pyHmRegisterCb s a.object eCbkeywrd, [.xincref a.object], .long 0)
    else (s, [], .null)

/-- `c_py_get_connectedSerial`; `none` for the result -1. -/
def cPyGetConnectedSerial (s : State Obj) : Option Serial :=
  if s.isConnected then some s.connectedSerial else none

/-- `py_sendcommand`; the `ret -1` of its error branch is no assignment, so it returns 0. -/
def pySendcommand (s : State Obj) (msg : List UInt8) : List (Call Obj) × ℤ :=
  match cPyGetConnectedSerial s with
  | some serial => ([.sendCustomCommand 0 serial 1 msg [] 2], 0)
  | none => ([], 0)

/-! ## One event -/

inductive Event (Obj : Type*) where
  | registerCb (args : Option (CbArgument Obj))
  | unregisterCb
  | commandIncoming (device : Device) (data : List UInt8) (outcome : Outcome)
  | commandResponse (device : Device) (data : List UInt8) (outcome : Outcome)
  | enteredProximity (device : Device) (outcome : Outcome)
  | exitedProximity (device : Device) (outcome : Outcome)
  | telematicsCommandIncoming (device : Device) (outcome : Outcome)
  | sendcommand (msg : List UInt8)

def step (s : State Obj) : Event Obj → Option (State Obj × List (Call Obj))
  | .registerCb args =>
    let r := hmPycRegisterCb s args
    some (r.1, r.2.1)
  | .unregisterCb => some (pyHmUnregisterCb s, [])
  | .commandIncoming device data outcome =>
    some (pyHmApiCallbackCommandIncoming s device data outcome)
  | .commandResponse device data outcome =>
    some (pyHmApiCallbackCommandResponse s device data outcome)
  | .enteredProximity device outcome => some (pyHmApiCallbackEnteredProximity s device outcome)
  | .exitedProximity device outcome => some (pyHmApiCallbackExitedProximity s device outcome)
  | .telematicsCommandIncoming device outcome =>
    some (pyHmApiCallbackTelematicsCommandIncoming s device outcome)
  | .sendcommand msg => some (s, (pySendcommand s msg).1)

/-! ## Events by what they do -/

/-- The slot an event is dispatched to, the arguments made for it, and how the callback ends. -/
def dispatched : Event Obj → Option (CbKeyword × Args × Outcome)
  | .commandIncoming _ data outcome => some (.cmdIncoming, [data], outcome)
  | .commandResponse _ data outcome => some (.cmdResp, [data], outcome)
  | .enteredProximity device outcome => some (.entProx, [device.mac.bytes], outcome)
  | .exitedProximity device outcome => some (.extProx, [device.mac.bytes], outcome)
  | .telematicsCommandIncoming _ outcome => some (.teleIncm, [], outcome)
  | _ => none

variable {s u : State Obj} {e : Event Obj} {out : List (Call Obj)} {keyword : CbKeyword}
  {args : Args} {outcome : Outcome}

/-- A dispatched event emits the calls of the dispatcher and leaves the registry alone. -/
theorem step_dispatched (hs : step s e = some (u, out))
    (hd : dispatched e = some (keyword, args, outcome)) :
    out = dispatch s keyword args outcome ∧ u.registry = s.registry := by
  cases e with
  | enteredProximity device o =>
    obtain ⟨rfl, rfl⟩ := total_step hs
    cases hd
    refine ⟨rfl, ?_⟩
    simp only [pyHmApiCallbackEnteredProximity]
    split <;> rfl
  | registerCb | unregisterCb | sendcommand => cases hd
  | _ =>
    obtain ⟨rfl, rfl⟩ := total_step hs
    cases hd
    exact ⟨rfl, rfl⟩

end PycCallbacks
