import Mathlib.Tactic.Ring
import HmkitWorkspace.PycCallbacks

/-! # What the C layer owns of its callbacks

Registering takes a reference and nothing gives it back but a callback that raises: the
references on an object are at least the slots that hold it as long as callbacks return. -/
namespace CallbackReferences

open TransitionRuns PycCallbacks

variable {Obj : Type*} [DecidableEq Obj]

abbrev Registry (Obj : Type*) := CbKeyword → Option Obj

def slots : List CbKeyword := [.cmdIncoming, .cmdResp, .entProx, .extProx, .teleIncm]

/-- The number of slots that hold an object. -/
def holders (registry : Registry Obj) (o : Obj) : ℕ :=
  slots.countP fun keyword => registry keyword = some o

def refDelta (o : Obj) : Call Obj → ℤ
  | .xincref p => if p = o then 1 else 0
  | .decref p => if p = o then -1 else 0
  | _ => 0

def gilDelta : Call Obj → ℤ
  | .gilEnsure => 1
  | .gilRelease => -1
  | _ => 0

def tupleCreated : Call Obj → ℤ
  | .tupleNew _ => 1
  | _ => 0

def tupleReleased : Call Obj → ℤ
  | .decrefArgs _ => 1
  | _ => 0

abbrev History (Obj : Type*) := List (Transition (State Obj) (Event Obj) (Call Obj))

/-- The references that the C layer owns on an object after a history. -/
def owned (o : Obj) (tr : History Obj) : ℤ := balance (refDelta o) (outputsOf tr)

def Accounted (tr : History Obj) (s : State Obj) : Prop :=
  ∀ o, owned o tr = holders s.registry o

/-- The event finds its slot empty, or the callback in it returns. -/
def Answered (s : State Obj) (e : Event Obj) : Prop :=
  ∀ keyword args outcome, dispatched e = some (keyword, args, outcome) →
    s.registry keyword = none ∨ outcome = .returned

/-- Callables are registered under a known name and into an empty slot, and nothing is
registered when the registry is cleared. -/
def Clean (s : State Obj) : Event Obj → Prop
  | .registerCb (some a) => a.callable = true →
    ∃ keyword, cbKeyword a.name = some keyword ∧ s.registry keyword = none
  | .unregisterCb => ∀ keyword, s.registry keyword = none
  | _ => True

/-- What a step takes beyond what its slots need. -/
def surplus (s u : State Obj) (out : List (Call Obj)) (o : Obj) : ℤ :=
  balance (refDelta o) out - (holders u.registry o - holders s.registry o)

/-- Nothing that the event opened stays open, nothing is released twice, and the registry and
what is owned are as before. -/
structure Neutral (t : Transition (State Obj) (Event Obj) (Call Obj)) : Prop where
  gil : balance gilDelta t.outputs = 0
  created : balance tupleCreated t.outputs ≤ 1
  released : balance tupleReleased t.outputs = balance tupleCreated t.outputs
  refs : ∀ o, balance (refDelta o) t.outputs = 0
  registry : t.post.registry = t.pre.registry

variable {s u : State Obj} {e : Event Obj} {out : List (Call Obj)} {o : Obj}
  {registry : Registry Obj} {keyword : CbKeyword} {args : Args} {outcome : Outcome}
  {tr : History Obj}

/-! ## Slots -/

theorem mem_slots (keyword : CbKeyword) : keyword ∈ slots := by
  cases keyword <;> decide

theorem holders_pos (h : registry keyword = some o) : 0 < holders registry o :=
  List.countP_pos_iff.mpr ⟨keyword, mem_slots keyword, by simpa using h⟩

theorem holders_zero_iff : (∀ o, holders registry o = 0) ↔ ∀ keyword, registry keyword = none := by
  constructor
  · intro h keyword
    by_contra held
    obtain ⟨o, ho⟩ := Option.ne_none_iff_exists'.mp held
    have := holders_pos ho
    rw [h o] at this
    omega
  · intro h o
    simp [holders, h]

theorem holders_update (registry : Registry Obj) (keyword : CbKeyword) (p o : Obj) :
    (holders (Function.update registry keyword (some p)) o : ℤ) =
      holders registry o + (if p = o then 1 else 0) -
        if registry keyword = some o then 1 else 0 := by
  cases keyword <;>
    simp only [holders, slots, List.countP_cons, List.countP_nil, Function.update_apply] <;>
    simp <;> ring

/-! ## The dispatcher -/

omit [DecidableEq Obj] in
theorem dispatch_empty (h : s.registry keyword = none) : dispatch s keyword args outcome = [] := by
  simp [dispatch, h]

theorem dispatch_returned_refs (s : State Obj) (keyword : CbKeyword) (args : Args) (o : Obj) :
    balance (refDelta o) (dispatch s keyword args .returned) = 0 := by
  unfold dispatch
  split <;> simp [callPythonCb, refDelta]

theorem answered_refs (h : s.registry keyword = none ∨ outcome = .returned) (o : Obj) :
    balance (refDelta o) (dispatch s keyword args outcome) = 0 := by
  rcases h with empty | rfl
  · simp [dispatch_empty empty]
  · exact dispatch_returned_refs s keyword args o

theorem neutral_iff (hs : step s e = some (u, out))
    (hd : dispatched e = some (keyword, args, outcome)) :
    Neutral ⟨s, e, out, u⟩ ↔ s.registry keyword = none ∨ outcome = .returned := by
  obtain ⟨rfl, registry⟩ := step_dispatched hs hd
  constructor
  · intro neutral
    cases held : s.registry keyword with
    | none => exact Or.inl rfl
    | some pFunc =>
      have gil := neutral.gil
      have released := neutral.released
      simp only [dispatch, held] at gil released
      cases outcome with
      | returned => exact Or.inr rfl
      | raised => simp [callPythonCb, gilDelta] at gil
      | notCallable => simp [callPythonCb, tupleCreated, tupleReleased] at released
  · intro answered
    refine ⟨?_, ?_, ?_, answered_refs answered, registry⟩
    all_goals
      rcases answered with empty | rfl
      · simp [dispatch_empty empty]
      · dsimp only [dispatch]
        split <;> simp [callPythonCb, gilDelta, tupleCreated, tupleReleased]

/-! ## One event -/

theorem sendcommand_refs (s : State Obj) (msg : List UInt8) (o : Obj) :
    balance (refDelta o) (pySendcommand s msg).1 = 0 := by
  unfold pySendcommand
  split <;> simp [refDelta]

theorem surplus_dispatched (hs : step s e = some (u, out)) (answered : Answered s e)
    (hd : dispatched e = some (keyword, args, outcome)) (o : Obj) : surplus s u out o = 0 := by
  obtain ⟨rfl, registry⟩ := step_dispatched hs hd
  simp [surplus, answered_refs (answered keyword args outcome hd), registry]

theorem surplus_unregister (hs : step s .unregisterCb = some (u, out)) (o : Obj) :
    surplus s u out o = holders s.registry o := by
  obtain ⟨rfl, rfl⟩ := total_step hs
  simp [surplus, holders, pyHmUnregisterCb]

theorem surplus_register {a : CbArgument Obj} (hs : step s (.registerCb (some a)) = some (u, out))
    (callable : a.callable = true) (o : Obj) :
    surplus s u out o =
      match cbKeyword a.name with
      | none => if a.object = o then 1 else 0
      | some keyword => if s.registry keyword = some o then 1 else 0 := by
  obtain ⟨rfl, rfl⟩ := total_step hs
  cases known : cbKeyword a.name with
  | none => simp [surplus, hmPycRegisterCb, callable, known, refDelta]
  | some keyword =>
    have after := holders_update s.registry keyword a.object o
    simp only [surplus, hmPycRegisterCb, callable, known, pyHmRegisterCb, if_true,
      Function.update_idem, balance_cons, balance_nil, refDelta, after]
    ring

theorem surplus_rejected {a : CbArgument Obj} (hs : step s (.registerCb (some a)) = some (u, out))
    (rejected : a.callable = false) (o : Obj) : surplus s u out o = 0 := by
  obtain ⟨rfl, rfl⟩ := total_step hs
  simp [surplus, hmPycRegisterCb, rejected]

theorem surplus_nonneg (hs : step s e = some (u, out)) (answered : Answered s e) (o : Obj) :
    0 ≤ surplus s u out o := by
  cases e with
  | registerCb args =>
    cases args with
    | none =>
      obtain ⟨rfl, rfl⟩ := total_step hs
      simp [surplus, hmPycRegisterCb]
    | some a =>
      cases callable : a.callable with
      | false => rw [surplus_rejected hs callable]
      | true =>
        rw [surplus_register hs callable]
        split <;> split <;> omega
  | unregisterCb =>
    rw [surplus_unregister hs]
    omega
  | sendcommand msg =>
    obtain ⟨rfl, rfl⟩ := total_step hs
    simp [surplus, sendcommand_refs]
  | _ => rw [surplus_dispatched hs answered rfl]

/-- A step takes just what its slots need exactly when it is clean. -/
theorem surplus_zero_iff (hs : step s e = some (u, out)) (answered : Answered s e) :
    (∀ o, surplus s u out o = 0) ↔ Clean s e := by
  cases e with
  | registerCb args =>
    cases args with
    | none =>
      obtain ⟨rfl, rfl⟩ := total_step hs
      simp [surplus, hmPycRegisterCb, Clean]
    | some a =>
      cases callable : a.callable with
      | false => simp [surplus_rejected hs callable, Clean, callable]
      | true =>
        simp only [surplus_register hs callable, Clean, callable, true_implies]
        cases known : cbKeyword a.name with
        | none => simp
        | some keyword => simp [← Option.eq_none_iff_forall_ne_some]
  | unregisterCb =>
    simp only [surplus_unregister hs, Clean, ← holders_zero_iff]
    constructor
    · intro h o
      exact_mod_cast h o
    · intro h o
      exact_mod_cast h o
  | sendcommand msg =>
    obtain ⟨rfl, rfl⟩ := total_step hs
    simp [surplus, sendcommand_refs, Clean]
  | _ => exact iff_of_true (surplus_dispatched hs answered rfl) trivial

/-! ## Runs -/

theorem owned_concat (o : Obj) (tr : History Obj)
    (t : Transition (State Obj) (Event Obj) (Call Obj)) :
    owned o (tr ++ [t]) = owned o tr + balance (refDelta o) t.outputs := by
  simp [owned]

/-- While callbacks return, every slot has its reference. -/
theorem holders_le_owned (h : Execution step Answered (initial : State Obj) tr s) (o : Obj) :
    (holders s.registry o : ℤ) ≤ owned o tr := by
  refine h.history_invariant (fun tr s => (holders s.registry o : ℤ) ≤ owned o tr) ?_ ?_
  · simp [owned, holders, initial]
  · intro tr s e out u before answered hs
    have step := surplus_nonneg hs answered o
    rw [surplus] at step
    rw [owned_concat]
    dsimp only
    omega

/-- A registered object is owned. -/
theorem owned_pos (h : Execution step Answered (initial : State Obj) tr s)
    (held : s.registry keyword = some o) : 0 < owned o tr := by
  have pos := holders_pos held
  have le := holders_le_owned h o
  omega

/-- With callbacks that return, the references owned on every object equal the slots that
hold it exactly when all registrations and clearings so far were clean; and a registered
object is owned in any case. -/
theorem callback_references (h : Execution step Answered (initial : State Obj) tr s) :
    ((∀ o, owned o tr = holders s.registry o) ↔ ∀ t ∈ tr, Clean t.pre t.event) ∧
    ∀ keyword o, s.registry keyword = some o → 0 < owned o tr := by
  constructor
  · have start : Accounted [] (initial : State Obj) := by
      intro o
      simp [owned, holders, initial]
    have whole := h.history_iff Accounted (fun t => Clean t.pre t.event) ?_
    · exact whole.trans (and_iff_right start)
    · intro tr s e out u hx answered hs
      rw [← surplus_zero_iff hs answered]
      simp only [Accounted, owned_concat, surplus]
      constructor
      · intro after
        have both : ∀ o, owned o tr = holders s.registry o ∧ surplus s u out o = 0 := by
          intro o
          have before := holders_le_owned hx o
          have step := surplus_nonneg hs answered o
          have total := after o
          simp only [surplus] at step ⊢
          omega
        exact ⟨fun o => (both o).1, fun o => (both o).2⟩
      · intro both o
        rcases both with ⟨before, step⟩
        have := before o
        have := step o
        omega
  · intro keyword o held
    exact owned_pos h held

def registration (object : ℕ) : Event ℕ :=
  .registerCb (some ⟨"py_cb_command_incoming", object, true⟩)

def incoming (outcome : Outcome) : Event ℕ :=
  .commandIncoming ⟨0, 0, 1⟩ [7] outcome

theorem registration_answered (s : State ℕ) (object : ℕ) : Answered s (registration object) := by
  intro keyword args outcome hd
  cases hd

theorem incoming_answered (s : State ℕ) : Answered s (incoming .returned) := by
  intro keyword args outcome hd
  cases hd
  exact Or.inr rfl

theorem callback_references_registered :
    ∃ tr s, run step (initial : State ℕ) [registration 1, incoming .returned] = some (tr, s) ∧
      (∀ o, owned o tr = holders s.registry o) ∧ 0 < owned 1 tr := by
  obtain ⟨exactly, held⟩ := callback_references (execution_of_run
    [registration 1, incoming .returned] rfl (by
      rintro t (_ | ⟨_, _ | ⟨_, ⟨⟩⟩⟩)
      · exact registration_answered _ 1
      · exact incoming_answered _))
  refine ⟨_, _, rfl, exactly.mpr ?_, held .cmdIncoming 1 rfl⟩
  rintro t (_ | ⟨_, _ | ⟨_, ⟨⟩⟩⟩)
  · intro _
    exact ⟨.cmdIncoming, rfl, rfl⟩
  · trivial

/-- The callback that a second registration replaces keeps its reference. -/
theorem replaced_callback_leaks :
    ∃ tr s, Execution step Answered (initial : State ℕ) tr s ∧
      s.registry .cmdIncoming = some 2 ∧ holders s.registry 1 = 0 ∧ owned 1 tr = 1 := by
  refine ⟨_, _, execution_of_run [registration 1, registration 2] rfl ?_, rfl, rfl, rfl⟩
  rintro t (_ | ⟨_, _ | ⟨_, ⟨⟩⟩⟩)
  · exact registration_answered _ 1
  · exact registration_answered _ 2

theorem answered_gil (hs : step s e = some (u, out)) (answered : Answered s e) :
    balance gilDelta out = 0 := by
  cases hd : dispatched e with
  | some d =>
    obtain ⟨keyword, args, outcome⟩ := d
    exact ((neutral_iff hs hd).mpr (answered keyword args outcome hd)).gil
  | none =>
    cases e with
    | registerCb args =>
      obtain ⟨_, rfl⟩ := total_step hs
      unfold hmPycRegisterCb
      repeat' split
      all_goals simp [gilDelta]
    | unregisterCb =>
      obtain ⟨_, rfl⟩ := total_step hs
      rfl
    | sendcommand msg =>
      obtain ⟨_, rfl⟩ := total_step hs
      unfold pySendcommand
      split <;> simp [gilDelta]
    | _ => cases hd

theorem gil_level (h : Execution step Answered (initial : State Obj) tr s) :
    balance gilDelta (outputsOf tr) = 0 := by
  apply h.history_invariant (fun tr _ => balance gilDelta (outputsOf tr) = 0) rfl
  intro tr s e out u level answered hs
  simp [level, answered_gil hs answered]

/-- A dispatched event is neutral exactly when its slot is empty or the callback returns; a
run of such events ends at the nesting depth it began with, and every registered object is
owned. -/
theorem callback_dispatch (h : Execution step (fun _ _ => True) (initial : State Obj) tr s) :
    (∀ t ∈ tr, ∀ keyword args outcome, dispatched t.event = some (keyword, args, outcome) →
      (Neutral t ↔ t.pre.registry keyword = none ∨ outcome = .returned)) ∧
    ((∀ t ∈ tr, Answered t.pre t.event) → balance gilDelta (outputsOf tr) = 0 ∧
      ∀ keyword o, s.registry keyword = some o → 0 < owned o tr) := by
  constructor
  · intro t ht keyword args outcome hd
    obtain ⟨_, _, _, hs⟩ := h.transition ht
    exact neutral_iff hs hd
  · intro answered
    have run := (h.restrict (H := Answered) answered).mono fun _ _ both => both.2
    refine ⟨gil_level run, ?_⟩
    intro keyword o held
    exact owned_pos run held

theorem callback_dispatch_returned :
    ∃ tr s, run step (initial : State ℕ) [registration 1, incoming .returned] = some (tr, s) ∧
      (∀ t ∈ tr, ∀ keyword args outcome, dispatched t.event = some (keyword, args, outcome) →
        Neutral t) ∧ balance gilDelta (outputsOf tr) = 0 ∧ 0 < owned 1 tr := by
  obtain ⟨neutral, level⟩ := callback_dispatch (execution_of_run
    [registration 1, incoming .returned] rfl fun _ _ => trivial)
  refine ⟨_, _, rfl, ?_, ?_⟩
  · intro t ht keyword args outcome hd
    apply (neutral t ht keyword args outcome hd).mpr
    rcases ht with _ | ⟨_, _ | ⟨_, ⟨⟩⟩⟩
    · exact registration_answered _ 1 keyword args outcome hd
    · exact incoming_answered _ keyword args outcome hd
  · refine (level ?_).imp_right fun held => held .cmdIncoming 1 rfl
    rintro t (_ | ⟨_, _ | ⟨_, ⟨⟩⟩⟩)
    · exact registration_answered _ 1
    · exact incoming_answered _

/-- A raising callback leaves the lock held and gives back the reference of its slot. -/
theorem raising_callback_unbalanced :
    ∃ tr s, Execution step (fun _ _ => True) (initial : State ℕ) tr s ∧
      s.registry .cmdIncoming = some 1 ∧ owned 1 tr = 0 ∧
      balance gilDelta (outputsOf tr) = 1 ∧ ∃ t ∈ tr, t.event = incoming .raised ∧ ¬ Neutral t := by
  refine ⟨_, _, execution_of_run [registration 1, incoming .raised] rfl fun _ _ => trivial, rfl,
    rfl, rfl, _, .tail _ (.head _), rfl, ?_⟩
  intro neutral
  exact absurd neutral.gil (by decide)

end CallbackReferences
