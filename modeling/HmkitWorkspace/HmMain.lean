import HmkitWorkspace.TransitionRuns
import Mathlib.Data.List.Basic
import Mathlib.Order.Nat

/-! # The threads of the link

`hm_main.c`, the two entry points of `pyc_extension_module.c` that start and end the link, and
the SIGINT handler that the connectivity HAL sets before. A thread is the code it still has to
run; SIGINT puts the handler in force before that, in any thread and at any time. -/
namespace HmMain

open TransitionRuns

/-- The threads that call the module, and those that `g_thread_new` starts, each named after the
one that starts it. -/
inductive Thread (ι : Type*) where
  | caller (i : ι)
  | superThread (i : ι)
  deriving DecidableEq

/-- What a thread does in one go. -/
inductive Action where
  | initPyEnv
  | pyEvalReleaseLock
  | hmkitCoreInit
  | signalSigint
  | gThreadNew
  | btstackRunLoopExecute
  | gTimeoutAdd
  | gMainLoopRun
  | hmkitCoreClock
  | testTimerthreadExit
  | pyHmUnregisterCb
  | setTimerthreadExit
  | advertisementStop
  | btstackStdinReset
  | hciPowerOff
  | hciClose
  | sleep
  | exit
  deriving DecidableEq

/-! ## Code -/

/-- `timeout_callback`: the flag is tested after the clock. -/
def timeoutCallback : List Action := [.hmkitCoreClock, .testTimerthreadExit]

def superThread : List Action := [.gTimeoutAdd, .gMainLoopRun]

def sigintHandler : List Action := [.advertisementStop, .hciPowerOff, .sleep, .exit]

/-- The `sigint_handler` of `hmkit_core_connectivity_hal.c`. -/
def halSigintHandler : List Action := [.btstackStdinReset, .hciPowerOff, .hciClose, .exit]

/-- The handler does not return here. -/
def hmLinkExit : List Action := .setTimerthreadExit :: sigintHandler

def hmLinkMain : List Action :=
  [.hmkitCoreInit, .signalSigint, .gThreadNew, .btstackRunLoopExecute]

/-- The two entry points; neither comes back. -/
inductive Entry where
  | hmPycCmainThread
  | hmPycCthreadExit

def Entry.code : Entry → List Action
  | .hmPycCmainThread => [.initPyEnv, .pyEvalReleaseLock] ++ hmLinkMain
  | .hmPycCthreadExit => .pyHmUnregisterCb :: hmLinkExit

/-! ## State -/

/-- Whose `sigint_handler` is set. -/
inductive Handler where
  | hal
  | main
  deriving DecidableEq

def Handler.code : Handler → List Action
  | .hal => halSigintHandler
  | .main => sigintHandler

structure State (ι : Type*) where
  code : Thread ι → List Action
  timerthreadExit : Bool
  handler : Option Handler
  exited : Bool

variable {ι : Type*} [DecidableEq ι]

/-- No thread is in the module yet. -/
def initial : State ι := ⟨fun _ => [], false, none, false⟩

/-- What a thread did. -/
abbrev Done (ι : Type*) := Thread ι × Action

def State.goOn (s : State ι) (t : Thread ι) (code : List Action) : State ι :=
  { s with code := Function.update s.code t code }

/-- The two loops and `exit` do not return to the code after them. -/
def perform (s : State ι) (t : Thread ι) (rest : List Action) :
    Action → State ι × List (Done ι)
  | .btstackRunLoopExecute => (s, [])
  | .gMainLoopRun => (s, [])
  | .exit => ({ s with exited := true }, [(t, .exit)])
  | .signalSigint => ({ s.goOn t rest with handler := some .main }, [(t, .signalSigint)])
  | .gThreadNew =>
    let started := match t with
      | .caller i => (s.goOn t rest).goOn (.superThread i) superThread
      | .superThread _ => s.goOn t rest
    (started, [(t, .gThreadNew)])
  | .testTimerthreadExit =>
    (s.goOn t (if s.timerthreadExit then [] else rest), [(t, .testTimerthreadExit)])
  | .setTimerthreadExit =>
    ({ s.goOn t rest with timerthreadExit := true }, [(t, .setTimerthreadExit)])
  | a => (s.goOn t rest, [(t, a)])

/-- `btstackStart` is the HAL setting its handler, when the core starts it. -/
inductive Event (ι : Type*) where
  | call (i : ι) (entry : Entry)
  | timeout (i : ι)
  | act (t : Thread ι)
  | btstackStart (i : ι)
  | sigint (t : Thread ι)

/-- A thread calls the module when it is not in it, GLib its callback when the loop is waiting,
the core starts the HAL within its own start, and a signal finds a thread that is alive once
there is a handler. -/
def Enabled (s : State ι) (e : Event ι) : Prop :=
  s.exited = false ∧ match e with
    | .call i _ => s.code (.caller i) = []
    | .timeout i => s.code (.superThread i) = [.gMainLoopRun]
    | .act t => s.code t ≠ []
    | .btstackStart i => (s.code (.caller i)).head? = some .hmkitCoreInit
    | .sigint (.caller _) => s.handler.isSome = true
    | .sigint (.superThread i) => s.handler.isSome = true ∧ s.code (.superThread i) ≠ []

instance (s : State ι) (e : Event ι) : Decidable (Enabled s e) := by
  cases e with
  | sigint t => cases t <;> unfold Enabled <;> infer_instance
  | _ => unfold Enabled; infer_instance

def step (s : State ι) : Event ι → Option (State ι × List (Done ι))
  | .call i entry => some (s.goOn (.caller i) entry.code, [])
  | .timeout i =>
    some (s.goOn (.superThread i) (timeoutCallback ++ s.code (.superThread i)), [])
  | .act t =>
    match s.code t with
    | [] => none
    | a :: rest => some (perform s t rest a)
  | .btstackStart _ => some ({ s with handler := some .hal }, [])
  | .sigint t => s.handler.map fun handler => (s.goOn t (handler.code ++ s.code t), [])

/-- What one thread did, in order. -/
def doneBy (t : Thread ι) (out : List (Done ι)) : List Action :=
  (out.filter fun d => d.1 = t).map Prod.snd

end HmMain
