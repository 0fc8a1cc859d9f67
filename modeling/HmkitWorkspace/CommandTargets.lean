import HmkitWorkspace.PycCallbacks
import HmkitWorkspace.AuxiliaryVariables
import HmkitWorkspace.KeyedHistories

/-! # The device a command is sent to

One flag and one serial stand for all devices in proximity: the flag falls when any device
leaves, and stays up when the device itself comes back without authorisation. -/
namespace CommandTargets

open TransitionRuns AuxiliaryVariables KeyedHistories HmSdkConfig PycCallbacks

variable {Obj : Type*}

/-- Entries, with whether they were authorised, and exits. -/
abbrev Visits := List (Change Serial Bool)

def visit : Event Obj → Visits
  | .enteredProximity device _ => [.store device.serialNumber (device.isAuthorised == 1)]
  | .exitedProximity device _ => [.delete device.serialNumber]
  | _ => []

abbrev Visited (Obj : Type*) := Augmented (State Obj) Visits

def visitedStep : StepFunction (Visited Obj) (Event Obj) (Call Obj) :=
  augment step fun _ visits e _ => visits ++ visit e

def Visited.initial : Visited Obj := ⟨PycCallbacks.initial, []⟩

/-- The device has entered and not exited since, and its latest entry was authorised. -/
def PresentAuthorised (visits : Visits) (serial : Serial) : Prop :=
  latest serial visits = some (.store serial true)

def Forwards (s : State Obj) (msg : List UInt8) (serial : Serial) : Prop :=
  .sendCustomCommand 0 serial 1 msg [] 2 ∈ (pySendcommand s msg).1

/-- Commands are forwarded exactly when some device is there for them, and to such a device. -/
def Right (w : Visited Obj) : Prop :=
  ∀ msg, ((∃ serial, Forwards w.state msg serial) ↔ ∃ serial, PresentAuthorised w.record serial) ∧
    ∀ serial, Forwards w.state msg serial → PresentAuthorised w.record serial

/-- The connected device does not come back without authorisation, and a device leaves only
while no other one is present and authorised. -/
def Undisturbed (w : Visited Obj) : Event Obj → Prop
  | .enteredProximity device _ => device.isAuthorised ≠ 1 →
    ¬ (w.state.isConnected = true ∧ w.state.connectedSerial = device.serialNumber)
  | .exitedProximity device _ =>
    ∀ serial, serial ≠ device.serialNumber → ¬ PresentAuthorised w.record serial
  | _ => True

variable {w v : Visited Obj} {s u : State Obj} {e : Event Obj} {out : List (Call Obj)}
  {msg : List UInt8} {serial other : Serial} {visits : Visits} {authorised : Bool}
  {tr : List (Transition (Visited Obj) (Event Obj) (Call Obj))}

theorem forwards_iff :
    Forwards s msg serial ↔ s.isConnected = true ∧ s.connectedSerial = serial := by
  unfold Forwards pySendcommand cPyGetConnectedSerial
  cases s.isConnected <;> simp [eq_comm]

/-- The flag says whether there is such a device, and the serial is that of one. -/
theorem right_iff : Right w ↔
    (w.state.isConnected = true → PresentAuthorised w.record w.state.connectedSerial) ∧
    (w.state.isConnected = false → ∀ serial, ¬ PresentAuthorised w.record serial) := by
  simp only [Right, forwards_iff]
  cases w.state.isConnected with
  | false => simp
  | true =>
    simp only [true_and, exists_eq', true_iff, forall_eq', Bool.true_eq_false, false_implies,
      and_true, forall_const]
    constructor
    · intro h
      exact h.2
    · intro h
      exact ⟨⟨_, h⟩, h⟩

theorem presentAuthorised_enter :
    PresentAuthorised (visits ++ [.store other authorised]) serial ↔
      if other = serial then authorised = true else PresentAuthorised visits serial := by
  simp only [PresentAuthorised, latest_concat, Change.key]
  by_cases same : other = serial
  · subst same
    simp
  · simp [same]

theorem presentAuthorised_exit :
    PresentAuthorised (visits ++ [.delete other]) serial ↔
      other ≠ serial ∧ PresentAuthorised visits serial := by
  simp only [PresentAuthorised, latest_concat, Change.key]
  by_cases same : other = serial <;> simp [same]

/-! ## One event -/

theorem enter_step {device : Device} {outcome : Outcome} (right : Right w)
    (hs : visitedStep w (.enteredProximity device outcome) = some (v, out)) :
    Right v ↔ Undisturbed w (.enteredProximity device outcome) := by
  obtain ⟨hstep, record⟩ := augment_step hs
  obtain ⟨hu, _⟩ := total_step hstep
  rw [right_iff] at right ⊢
  rw [record, ← hu]
  simp only [visit, presentAuthorised_enter, Undisturbed, pyHmApiCallbackEnteredProximity]
  by_cases auth : device.isAuthorised = 1
  · simp [auth]
  · simp only [auth, if_false, beq_iff_eq, not_and, ne_eq, not_false_eq_true, true_implies]
    cases connected : w.state.isConnected with
    | false =>
      have nobody := right.2 connected
      simp [nobody]
    | true =>
      have target := right.1 connected
      simp only [true_implies, Bool.true_eq_false, false_implies, and_true]
      constructor
      · intro h same
        rw [if_pos same.symm] at h
        exact h
      · intro different
        rw [if_neg (Ne.symm different)]
        exact target

theorem exit_step {device : Device} {outcome : Outcome}
    (hs : visitedStep w (.exitedProximity device outcome) = some (v, out)) :
    Right v ↔ Undisturbed w (.exitedProximity device outcome) := by
  obtain ⟨hstep, record⟩ := augment_step hs
  obtain ⟨hu, _⟩ := total_step hstep
  rw [right_iff, record, ← hu]
  simp [visit, presentAuthorised_exit, Undisturbed, pyHmApiCallbackExitedProximity, eq_comm]

/-- The other events change neither the visits nor what is connected. -/
theorem elsewhere_step (right : Right w) (hs : visitedStep w e = some (v, out))
    (unvisited : visit e = []) : Right v := by
  obtain ⟨hstep, record⟩ := augment_step hs
  have same : v.state.isConnected = w.state.isConnected ∧
      v.state.connectedSerial = w.state.connectedSerial := by
    cases e with
    | enteredProximity | exitedProximity => cases unvisited
    | registerCb args =>
      obtain ⟨hu, _⟩ := total_step hstep
      rw [← hu]
      simp only [hmPycRegisterCb]
      split
      · exact ⟨rfl, rfl⟩
      · split
        · split <;> exact ⟨rfl, rfl⟩
        · exact ⟨rfl, rfl⟩
    | _ =>
      obtain ⟨hu, _⟩ := total_step hstep
      rw [← hu]
      exact ⟨rfl, rfl⟩
  rw [right_iff] at right ⊢
  rw [record, unvisited, List.append_nil, same.1, same.2]
  exact right

theorem right_step (right : Right w) (hs : visitedStep w e = some (v, out)) :
    Right v ↔ Undisturbed w e := by
  cases e with
  | enteredProximity => exact enter_step right hs
  | exitedProximity => exact exit_step hs
  | _ => exact iff_of_true (elsewhere_step right hs rfl) trivial

theorem initial_right : Right (Visited.initial : Visited Obj) := by
  rw [right_iff]
  constructor
  · intro connected
    cases connected
  · intro _ serial present
    cases present

/-- Commands go exactly to devices that are present and authorised, in every state of a run,
if and only if every step leaves the connected device in its place. -/
theorem command_targets
    (h : Execution visitedStep (fun _ _ => True) (Visited.initial : Visited Obj) tr w) :
    (∀ t ∈ tr, Right t.post) ↔ ∀ t ∈ tr, Undisturbed t.pre t.event := by
  apply h.forall_iff Right initial_right fun _ right => right
  intro _ w e out v _ right _ hs
  exact right_step right hs

def serialA : Serial := ⟨[1, 1, 1, 1, 1, 1, 1, 1, 1], rfl⟩
def serialB : Serial := ⟨[2, 2, 2, 2, 2, 2, 2, 2, 2], rfl⟩

theorem command_targets_two_devices :
    ∃ tr w, run visitedStep (Visited.initial : Visited Unit)
        [.enteredProximity ⟨0, serialB, 0⟩ .returned, .enteredProximity ⟨0, serialA, 1⟩ .returned] =
          some (tr, w) ∧ (∀ t ∈ tr, Right t.post) ∧ Forwards w.state [7] serialA := by
  refine ⟨_, _, rfl, (command_targets (execution_of_run
    [.enteredProximity ⟨0, serialB, 0⟩ .returned, .enteredProximity ⟨0, serialA, 1⟩ .returned]
      rfl fun _ _ => trivial)).mpr ?_, ?_⟩
  · rintro t (_ | ⟨_, _ | ⟨_, ⟨⟩⟩⟩)
    · intro _ connected
      exact absurd connected.1 (by decide)
    · intro unauthorised
      exact absurd rfl unauthorised
  · exact forwards_iff.mpr ⟨rfl, rfl⟩

/-- A visit of B, not authorised, cuts off A, who is still present and authorised. -/
theorem visitor_exit_cuts_off :
    ∃ tr w, Execution visitedStep (fun _ _ => True) (Visited.initial : Visited Unit) tr w ∧
      PresentAuthorised w.record serialA ∧ (pySendcommand w.state [7]).1 = [] ∧ ¬ Right w := by
  refine ⟨_, _, execution_of_run [.enteredProximity ⟨0, serialA, 1⟩ .returned,
    .enteredProximity ⟨0, serialB, 0⟩ .returned, .exitedProximity ⟨0, serialB, 0⟩ .returned] rfl
      fun _ _ => trivial, rfl, rfl, ?_⟩
  intro right
  exact (right_iff.mp right).2 rfl serialA rfl

end CommandTargets
