import HmkitWorkspace.HmkitCoreApiCallback

/-! # What Python is told

Every report of the core reaches the object registered last for it, once and in order, and
with its bytes as long as their number fits the bindings. -/
namespace CallbackDelivery

open TransitionRuns ByteBuffers Forwarding KeyedHistories PycCallbacks HmkitCoreApiCallback

variable {Obj : Type*}

/-- The slots an event of Python fills and clears. -/
def registrations : HmkitCoreApiCallback.Event Obj → List (Change CbKeyword Obj)
  | .registerCb (some a) =>
    if a.callable then
      match cbKeyword a.name with
      | some keyword => [.store keyword a.object]
      | none => []
    else []
  | .unregisterCb =>
    [.delete .cmdIncoming, .delete .cmdResp, .delete .entProx, .delete .extProx, .delete .teleIncm]
  | _ => []

/-- What the core reports, by the slot it is for, the bytes to hand over and how the object
found there answers. -/
def reported : HmkitCoreApiCallback.Event Obj → Option (CbKeyword × Args × Outcome)
  | .enteredProximity device outcome => some (.entProx, [device.mac.bytes], outcome)
  | .exitedProximity device outcome => some (.extProx, [device.mac.bytes], outcome)
  | .commandIncoming _ command outcome => some (.cmdIncoming, [command.data], outcome)
  | .commandResponse _ command outcome => some (.cmdResp, [command.data], outcome)
  | .telematicsCommandIncoming _ _ _ outcome => some (.teleIncm, [], outcome)
  | _ => none

/-- The call of an object that an event should lead to after some registrations. -/
def dueNow (changes : List (Change CbKeyword Obj)) (e : HmkitCoreApiCallback.Event Obj) :
    List (Obj × Args) :=
  match reported e with
  | none => []
  | some (keyword, args, outcome) =>
    if outcome = .notCallable then []
    else (contents changes keyword).toList.map fun object => (object, args)

/-- The calls that a list of events should lead to. -/
def due (changes : List (Change CbKeyword Obj)) :
    List (HmkitCoreApiCallback.Event Obj) → List (Obj × Args)
  | [] => []
  | e :: es => dueNow changes e ++ due (changes ++ registrations e) es

def calledObject : Call Obj → Option (Obj × Args)
  | .callObject function args => some (function, args)
  | _ => none

/-- The objects Python was made to call. -/
def delivered (out : List (Output Obj)) : List (Obj × Args) :=
  (out.filterMap relayed).filterMap calledObject

/-- A call as it arrives. -/
def cut (call : Obj × Args) : Obj × Args := (call.1, call.2.map narrowed)

variable {s u : HmkitCoreApiCallback.State Obj} {e : HmkitCoreApiCallback.Event Obj}
  {out : List (Output Obj)} {changes : List (Change CbKeyword Obj)} {keyword : CbKeyword}
  {args : Args} {outcome : Outcome}
  {es : List (HmkitCoreApiCallback.Event Obj)}
  {tr : List (Transition (HmkitCoreApiCallback.State Obj) (HmkitCoreApiCallback.Event Obj)
    (Output Obj))}

theorem map_eq_self_iff {α : Type*} {f : α → α} {l : List α} :
    l.map f = l ↔ ∀ a ∈ l, f a = a := by
  induction l with
  | nil => simp
  | cons a l ih => simp [ih]

theorem narrowed_eq_iff (data : List UInt8) : narrowed data = data ↔ data.length < 2 ^ 16 :=
  take_mod_eq_iff (by decide) data

theorem contents_append (changes changes' : List (Change CbKeyword Obj)) :
    contents (changes ++ changes') =
      changes'.foldl (fun m c => Function.update m c.key c.value) (contents changes) :=
  List.foldl_append

theorem dueNow_of_reported (h : reported e = some (keyword, args, outcome)) :
    dueNow changes e = if outcome = .notCallable then []
      else (contents changes keyword).toList.map fun object => (object, args) := by
  rw [dueNow, h]

theorem cut_eq_iff (call : Obj × Args) :
    cut call = call ↔ ∀ data ∈ call.2, data.length < 2 ^ 16 := by
  have parts : cut call = call ↔ call.2.map narrowed = call.2 :=
    ⟨congrArg Prod.snd, fun same => Prod.ext rfl same⟩
  rw [parts, map_eq_self_iff]
  exact forall₂_congr fun data _ => narrowed_eq_iff data

theorem due_concat (changes : List (Change CbKeyword Obj))
    (es : List (HmkitCoreApiCallback.Event Obj)) (e : HmkitCoreApiCallback.Event Obj) :
    due changes (es ++ [e]) =
      due changes es ++ dueNow (changes ++ es.flatMap registrations) e := by
  induction es generalizing changes with
  | nil => simp [due]
  | cons e' es ih => simp [due, ih]

/-! ## One event -/

theorem called_dispatch (b : PycCallbacks.State Obj) (keyword : CbKeyword) (args : Args)
    (outcome : Outcome) :
    (dispatch b keyword args outcome).filterMap calledObject =
      if outcome = .notCallable then [] else
        (b.registry keyword).toList.map fun object => (object, args) := by
  rw [dispatch]
  cases b.registry keyword with
  | none => simp
  | some object => cases outcome <;> rfl

/-- The bindings dispatch a report with its bytes cut to their length modulo 65536. -/
theorem forwarded_reported (h : reported e = some (keyword, args, outcome)) :
    ∃ e', forwarded e = some e' ∧ dispatched e' = some (keyword, args.map narrowed, outcome) := by
  have mac : ∀ device : Device, [device.mac.bytes].map narrowed = [device.mac.bytes] := by
    intro device
    have size : device.mac.bytes.length < 2 ^ 16 := by
      rw [device.mac.length_eq]
      decide
    rw [List.map_singleton, (narrowed_eq_iff _).mpr size]
  cases e with
  | enteredProximity device o =>
    cases h
    exact ⟨_, rfl, by rw [mac]; rfl⟩
  | exitedProximity device o =>
    cases h
    exact ⟨_, rfl, by rw [mac]; rfl⟩
  | commandIncoming | commandResponse | telematicsCommandIncoming =>
    cases h
    exact ⟨_, rfl, rfl⟩
  | _ => cases h

/-- Registering calls nobody, and fills the slot if the name and the object are right. -/
theorem registerCb_spec (b : PycCallbacks.State Obj) (args : Option (CbArgument Obj))
    (held : b.registry = contents changes) :
    (hmPycRegisterCb b args).2.1.filterMap calledObject = [] ∧
      (hmPycRegisterCb b args).1.registry =
        contents (changes ++ registrations (.registerCb args)) := by
  cases args with
  | none => exact ⟨rfl, held.trans (congrArg contents (List.append_nil changes).symm)⟩
  | some a =>
    by_cases callable : a.callable = true
    · cases named : cbKeyword a.name with
      | none => simp [hmPycRegisterCb, registrations, callable, named, held, calledObject]
      | some keyword =>
        simp [hmPycRegisterCb, pyHmRegisterCb, registrations, callable, named, held, calledObject,
          Change.key, Change.value]
    · simp [hmPycRegisterCb, registrations, callable, held]

theorem sendcommand_calls (b : PycCallbacks.State Obj) (msg : List UInt8) :
    (pySendcommand b msg).1.filterMap calledObject = [] := by
  rw [pySendcommand]
  split <;> rfl

theorem cleared_registry (changes : List (Change CbKeyword Obj)) :
    contents (changes ++ registrations .unregisterCb) = fun _ => none := by
  funext keyword
  rw [contents_append]
  cases keyword <;> rfl

theorem delivered_handOn (b : PycCallbacks.State Obj) (calls : List (Call Obj)) :
    delivered (handOn s (b, calls)).2 = calls.filterMap calledObject := by
  rw [delivered, handOn, relayed_handOn]

/-- A step delivers what is due, cut, and keeps the registry what was registered. -/
theorem delivery_step (hs : step s e = some (u, out))
    (held : s.bindings.registry = contents changes) :
    delivered out = (dueNow changes e).map cut ∧
      u.bindings.registry = contents (changes ++ registrations e) := by
  cases hr : reported e with
  | some r =>
    obtain ⟨keyword, args, outcome⟩ := r
    obtain ⟨e', he, hd⟩ := forwarded_reported hr
    have inside := forwards hs
    rw [he] at inside
    obtain ⟨calls, registry⟩ := step_dispatched inside hd
    have unregistered : registrations e = [] := by
      cases e with
      | registerCb | unregisterCb => cases hr
      | _ => rfl
    constructor
    · rw [delivered, calls, called_dispatch, held, dueNow_of_reported hr]
      cases outcome <;> cases contents changes keyword <;> rfl
    · rw [registry, held, unregistered, List.append_nil]
  | none =>
    have nothing : dueNow changes e = [] := by rw [dueNow, hr]
    rw [nothing, List.map_nil]
    cases e with
    | enteredProximity | exitedProximity | commandIncoming | commandResponse
    | telematicsCommandIncoming => cases hr
    | registerCb args =>
      obtain ⟨rfl, rfl⟩ := total_step hs
      rw [delivered_handOn]
      exact registerCb_spec s.bindings args held
    | unregisterCb =>
      obtain ⟨rfl, rfl⟩ := total_step hs
      exact ⟨rfl, (cleared_registry changes).symm⟩
    | sendcommand msg =>
      obtain ⟨rfl, rfl⟩ := total_step hs
      exact ⟨(delivered_handOn ..).trans (sendcommand_calls ..),
        held.trans (congrArg contents (List.append_nil changes).symm)⟩
    | _ =>
      obtain ⟨rfl, rfl⟩ := total_step hs
      exact ⟨rfl, held.trans (congrArg contents (List.append_nil changes).symm)⟩

/-! ## Runs -/

/-- The connected device that this file keeps is the one that the bindings keep. -/
theorem copies_agree (h : Execution HmkitCoreApiCallback.step (fun _ _ => True)
    HmkitCoreApiCallback.initial tr s) :
    s.isConnected = s.bindings.isConnected ∧ s.connectedSerial = s.bindings.connectedSerial := by
  apply h.invariant (fun s => s.isConnected = s.bindings.isConnected ∧
    s.connectedSerial = s.bindings.connectedSerial) ⟨rfl, rfl⟩
  intro s e out u same _ hs
  cases e with
  | enteredProximity device outcome =>
    obtain ⟨rfl, rfl⟩ := total_step hs
    simp only [hmkitCoreApiCallbackEnteredProximity, handOn, pyHmApiCallbackEnteredProximity]
    split
    · exact ⟨rfl, rfl⟩
    · exact same
  | exitedProximity device outcome =>
    obtain ⟨rfl, rfl⟩ := total_step hs
    exact ⟨rfl, same.2⟩
  | registerCb args =>
    obtain ⟨rfl, rfl⟩ := total_step hs
    simp only [handOn, hmPycRegisterCb]
    repeat' split
    all_goals exact same
  | _ =>
    obtain ⟨rfl, rfl⟩ := total_step hs
    exact same

/-- Over every run the objects called are those due, in the order of the reports, with the bytes
cut to their length modulo 65536; they are the bytes reported exactly when none is longer. For
the bindings it is a run on the five callbacks that are handed on and on what Python does, and
this file keeps nothing that they do not. The objects are taken to stay alive by references of
their own, since a callback that raises gives up that of its slot. -/
theorem callback_delivery (h : Execution HmkitCoreApiCallback.step (fun _ _ => True)
    HmkitCoreApiCallback.initial tr s) :
    delivered (outputsOf tr) = (due [] (tr.map Transition.event)).map cut ∧
      (delivered (outputsOf tr) = due [] (tr.map Transition.event) ↔
        ∀ call ∈ due [] (tr.map Transition.event), ∀ data ∈ call.2, data.length < 2 ^ 16) ∧
      ∃ tr', Execution PycCallbacks.step (fun _ _ => True) PycCallbacks.initial tr' s.bindings ∧
        tr'.map Transition.event = (tr.map Transition.event).filterMap forwarded ∧
        outputsOf tr' = (outputsOf tr).filterMap relayed ∧
        s.isConnected = s.bindings.isConnected ∧
        s.connectedSerial = s.bindings.connectedSerial := by
  have all : delivered (outputsOf tr) = (due [] (tr.map Transition.event)).map cut ∧
      s.bindings.registry = contents ((tr.map Transition.event).flatMap registrations) := by
    apply h.history_invariant (fun tr s =>
      delivered (outputsOf tr) = (due [] (tr.map Transition.event)).map cut ∧
        s.bindings.registry = contents ((tr.map Transition.event).flatMap registrations)) ⟨rfl, rfl⟩
    rintro tr s e out u ⟨before, held⟩ _ hs
    obtain ⟨now, registry⟩ := delivery_step hs held
    rw [List.map_append, List.map_singleton, List.flatMap_append, due_concat, List.map_append,
      outputsOf_append, outputsOf_singleton]
    refine ⟨?_, by rw [registry, List.flatMap_singleton]⟩
    rw [delivered, List.filterMap_append, List.filterMap_append]
    exact congrArg₂ (· ++ ·) before now
  obtain ⟨tr', inside, events, outputs⟩ := forwards.execution h
  refine ⟨all.1, ?_, tr', inside, events, outputs, copies_agree h⟩
  rw [all.1, map_eq_self_iff]
  exact forall₂_congr fun call _ => cut_eq_iff call

/-- A command that comes in before anything is registered, and one after. -/
theorem callback_delivery_registered :
    ∃ tr s, run HmkitCoreApiCallback.step
        (HmkitCoreApiCallback.initial : HmkitCoreApiCallback.State ℕ)
        [.commandIncoming ⟨0, 0, 1⟩ ⟨1, [7], [], 2⟩ .returned,
          .registerCb (some ⟨"py_cb_command_incoming", 3, true⟩),
          .commandIncoming ⟨0, 0, 1⟩ ⟨1, [8, 9], [], 2⟩ .returned] = some (tr, s) ∧
      delivered (outputsOf tr) = [(3, [[8, 9]])] := by
  have h : Execution HmkitCoreApiCallback.step (fun _ _ => True)
      (HmkitCoreApiCallback.initial : HmkitCoreApiCallback.State ℕ) _ _ := execution_of_run
    [.commandIncoming ⟨0, 0, 1⟩ ⟨1, [7], [], 2⟩ .returned,
      .registerCb (some ⟨"py_cb_command_incoming", 3, true⟩),
      .commandIncoming ⟨0, 0, 1⟩ ⟨1, [8, 9], [], 2⟩ .returned] rfl fun _ _ => trivial
  exact ⟨_, _, rfl, (callback_delivery h).1⟩

end CallbackDelivery
