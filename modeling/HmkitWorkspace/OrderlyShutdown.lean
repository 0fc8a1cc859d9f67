import HmkitWorkspace.HmMain

/-! # How the process ends

Whatever the interleaving of the threads and however many of them end the link or are
interrupted, the process exits only with the radio off, and the clock stops. -/
namespace OrderlyShutdown

open TransitionRuns HmMain

variable {ι : Type*} [DecidableEq ι]

/-- What a step does to one thread, with what the thread does in it. -/
inductive Moves (s : State ι) (e : Event ι) (u : State ι) : Thread ι → List Action → Prop where
  | still (t : Thread ι) (same : u.code t = s.code t) : Moves s e u t []
  | call (i : ι) (entry : Entry) (outside : s.code (.caller i) = [])
      (code : u.code (.caller i) = entry.code) : Moves s e u (.caller i) []
  | timeout (i : ι) (waiting : s.code (.superThread i) = [.gMainLoopRun])
      (code : u.code (.superThread i) = timeoutCallback ++ [.gMainLoopRun]) :
      Moves s e u (.superThread i) []
  | start (i : ι) (started : s.code (.caller i) = .gThreadNew :: u.code (.caller i))
      (code : u.code (.superThread i) = superThread) : Moves s e u (.superThread i) []
  | sigint (t : Thread ι) (handler : Handler) (event : e = .sigint t)
      (inForce : s.handler = some handler) (alive : ∀ i, t = .superThread i → s.code t ≠ [])
      (code : u.code t = handler.code ++ s.code t) : Moves s e u t []
  | goOn (t : Thread ι) (a : Action)
      (returns : a ≠ .btstackRunLoopExecute ∧ a ≠ .gMainLoopRun ∧ a ≠ .exit)
      (leaves : a = .testTimerthreadExit → s.timerthreadExit = false)
      (code : s.code t = a :: u.code t) : Moves s e u t [a]
  | leave (t : Thread ι) (rest : List Action) (asked : s.timerthreadExit = true)
      (before : s.code t = .testTimerthreadExit :: rest) (code : u.code t = []) :
      Moves s e u t [.testTimerthreadExit]
  | exit (t : Thread ι) (rest : List Action) (before : s.code t = .exit :: rest)
      (code : u.code t = s.code t) : Moves s e u t [.exit]

variable {s u : State ι} {e : Event ι} {out : List (Done ι)} {t t' : Thread ι} {a : Action}
  {rest : List Action} {code : List Action} {i : ι}
  {tr : List (Transition (State ι) (Event ι) (Done ι))}

@[simp] theorem goOn_self (s : State ι) (t : Thread ι) (code : List Action) :
    (s.goOn t code).code t = code := Function.update_self ..

theorem goOn_other (s : State ι) (code : List Action) (h : t' ≠ t) :
    (s.goOn t code).code t' = s.code t' := Function.update_of_ne h ..

theorem doneBy_self (t : Thread ι) (a : Action) : doneBy t [(t, a)] = [a] := by
  simp [doneBy]

theorem doneBy_other (h : t' ≠ t) (a : Action) : doneBy t' [(t, a)] = [] := by
  simp [doneBy, Ne.symm h]

theorem doneBy_append (t : Thread ι) (out out' : List (Done ι)) :
    doneBy t (out ++ out') = doneBy t out ++ doneBy t out' := by
  simp [doneBy]

/-- The thread that acts. -/
theorem perform_self (before : s.code t = a :: rest) (hu : perform s t rest a = (u, out)) :
    Moves s e u t (doneBy t out) := by
  cases a with
  | btstackRunLoopExecute | gMainLoopRun =>
    cases hu
    exact .still t rfl
  | exit =>
    cases hu
    rw [doneBy_self]
    exact .exit t rest before rfl
  | testTimerthreadExit =>
    cases hu
    rw [doneBy_self]
    cases asked : s.timerthreadExit with
    | true => exact .leave t rest asked before (by simp)
    | false => exact .goOn t _ (by simp) (fun _ => asked) (by simpa using before)
  | gThreadNew =>
    cases hu
    rw [doneBy_self]
    refine .goOn t _ (by simp) (by simp) ?_
    cases t with
    | caller i =>
      change s.code (.caller i) = _ :: ((s.goOn (.caller i) rest).goOn _ _).code (.caller i)
      rw [goOn_other _ _ (by simp), goOn_self]
      exact before
    | superThread i => simpa using before
  | _ =>
    cases hu
    rw [doneBy_self]
    exact .goOn t _ (by simp) (by simp) (by simpa using before)

theorem perform_other (before : s.code t = a :: rest) (hu : perform s t rest a = (u, out))
    (other : t' ≠ t) : Moves s e u t' (doneBy t' out) := by
  cases a with
  | btstackRunLoopExecute | gMainLoopRun | exit =>
    cases hu
    try rw [doneBy_other other]
    exact .still t' rfl
  | gThreadNew =>
    cases hu
    rw [doneBy_other other]
    cases t with
    | superThread i => exact .still t' (goOn_other _ _ other)
    | caller i =>
      by_cases started : t' = .superThread i
      · subst started
        refine .start i ?_ (goOn_self ..)
        change s.code (.caller i) = _ :: ((s.goOn (.caller i) rest).goOn _ _).code (.caller i)
        rw [goOn_other _ _ (by simp), goOn_self]
        exact before
      · exact .still t' ((goOn_other _ _ started).trans (goOn_other _ _ other))
  | _ =>
    cases hu
    rw [doneBy_other other]
    exact .still t' (goOn_other _ _ other)

/-- Every step moves every thread in one of these ways. -/
theorem moves (enabled : Enabled s e) (hs : step s e = some (u, out)) (t : Thread ι) :
    Moves s e u t (doneBy t out) := by
  cases e with
  | call i entry =>
    obtain ⟨rfl, rfl⟩ := total_step hs
    by_cases same : t = .caller i
    · subst same
      exact .call i entry enabled.2 (goOn_self ..)
    · exact .still t (goOn_other _ _ same)
  | timeout i =>
    obtain ⟨rfl, rfl⟩ := total_step hs
    by_cases same : t = .superThread i
    · subst same
      exact .timeout i enabled.2 ((goOn_self ..).trans (congrArg _ enabled.2))
    · exact .still t (goOn_other _ _ same)
  | act t₀ =>
    simp only [step] at hs
    cases before : s.code t₀ with
    | nil => exact absurd before enabled.2
    | cons a rest =>
      rw [before] at hs
      have hu : perform s t₀ rest a = (u, out) := Option.some.inj hs
      by_cases same : t = t₀
      · subst same
        exact perform_self before hu
      · exact perform_other before hu same
  | btstackStart i =>
    obtain ⟨rfl, rfl⟩ := total_step hs
    exact .still t rfl
  | sigint t₀ =>
    obtain ⟨handler, inForce, hu⟩ := Option.map_eq_some_iff.mp hs
    obtain ⟨rfl, rfl⟩ := Prod.mk.inj hu
    by_cases same : t = t₀
    · subst same
      refine .sigint t handler rfl inForce ?_ (goOn_self ..)
      rintro i rfl
      exact enabled.2.2
    · exact .still t (goOn_other _ _ same)

/-! ## The flags -/

theorem flags_step (hs : step s e = some (u, out)) :
    (u.timerthreadExit = true ↔
      s.timerthreadExit = true ∨ ∃ t, (t, .setTimerthreadExit) ∈ out) ∧
    (u.exited = true ↔ s.exited = true ∨ ∃ t, (t, .exit) ∈ out) := by
  cases e with
  | act t =>
    simp only [step] at hs
    cases before : s.code t with
    | nil => simp [before] at hs
    | cons a rest =>
      rw [before] at hs
      cases a with
      | gThreadNew =>
        obtain ⟨rfl, rfl⟩ := total_step hs
        cases t <;> simp [perform, State.goOn]
      | _ =>
        obtain ⟨rfl, rfl⟩ := total_step hs
        simp [perform, State.goOn]
  | sigint t =>
    obtain ⟨handler, _, hu⟩ := Option.map_eq_some_iff.mp hs
    obtain ⟨rfl, rfl⟩ := Prod.mk.inj hu
    simp [State.goOn]
  | _ =>
    obtain ⟨rfl, rfl⟩ := total_step hs
    simp [State.goOn]

theorem mem_doneBy : a ∈ doneBy t out ↔ (t, a) ∈ out := by
  simp [doneBy]

/-! ## Leaving through a handler -/

def beforeExit (code : List Action) : List Action := code.takeWhile (· ≠ .exit)

/-- The first `exit` comes at the end of a handler; of the HAL's only for a reason. -/
def Orderly (reason : Prop) (code : List Action) : Prop :=
  .exit ∈ code → ∃ handler : Handler, handler.code.dropLast <:+ beforeExit code ∧
    (handler = .hal → reason)

/-- SIGINT found the thread while the HAL's handler was still in force. -/
def InterruptedEarly (tr : List (Transition (State ι) (Event ι) (Done ι))) (t : Thread ι) : Prop :=
  ∃ x ∈ tr, x.event = .sigint t ∧ x.pre.handler = some .hal

theorem beforeExit_append {done : List Action} (running : .exit ∉ done) (code : List Action) :
    beforeExit (done ++ code) = done ++ beforeExit code := by
  apply List.takeWhile_append_of_pos
  intro a ha
  simpa using fun same : a = .exit => running (same ▸ ha)

variable {reason reason' : Prop}

theorem Orderly.append {done : List Action} (running : .exit ∉ done) (h : Orderly reason code) :
    Orderly reason (done ++ code) := by
  intro hexit
  rw [beforeExit_append running]
  obtain ⟨handler, first, why⟩ := h ((List.mem_append.mp hexit).resolve_left running)
  exact ⟨handler, first.trans (List.suffix_append _ _), why⟩

theorem Orderly.mono (weaker : reason → reason') (h : Orderly reason code) :
    Orderly reason' code := by
  intro hexit
  obtain ⟨handler, first, why⟩ := h hexit
  exact ⟨handler, first, fun hal => weaker (why hal)⟩

theorem orderly_of_no_exit (h : .exit ∉ code) : Orderly reason code :=
  fun hexit => absurd hexit h

theorem entry_orderly (entry : Entry) : Orderly reason entry.code := by
  cases entry with
  | hmPycCmainThread => exact orderly_of_no_exit (by decide)
  | hmPycCthreadExit =>
    intro _
    refine ⟨.main, by decide, fun hal => ?_⟩
    cases hal

theorem handler_orderly (handler : Handler) (code : List Action) (why : handler = .hal → reason) :
    Orderly reason (handler.code ++ code) := by
  intro _
  refine ⟨handler, ?_, why⟩
  cases handler <;> exact ⟨[], rfl⟩

omit [DecidableEq ι] in
/-- What a thread did and still has to do stays orderly while it does not leave. -/
theorem Moves.orderly {done new : List Action} (h : Moves s e u t new) (running : .exit ∉ done)
    (stays : .exit ∉ new) (before : Orderly reason (done ++ s.code t))
    (early : e = .sigint t → s.handler = some .hal → reason) :
    Orderly reason (done ++ new ++ u.code t) := by
  cases h with
  | still _ same => rwa [List.append_nil, same]
  | call i entry _ code =>
    rw [List.append_nil, code]
    exact (entry_orderly entry).append running
  | timeout i _ code | start i _ code =>
    rw [List.append_nil, code]
    exact (orderly_of_no_exit (by decide)).append running
  | sigint _ handler event inForce _ code =>
    rw [List.append_nil, code]
    apply (handler_orderly handler _ _).append running
    rintro rfl
    exact early event inForce
  | goOn _ a _ _ code =>
    rw [code] at before
    rwa [List.append_assoc, List.singleton_append]
  | leave _ rest _ _ code =>
    rw [code, List.append_nil]
    exact (orderly_of_no_exit (by decide)).append running
  | exit => simp at stays

omit [DecidableEq ι] in
/-- A thread that leaves has run a handler to its end. -/
theorem Moves.exits {done new : List Action} (h : Moves s e u t new) (running : .exit ∉ done)
    (before : Orderly reason (done ++ s.code t)) (leaves : .exit ∈ new) :
    ∃ handler : Handler, handler.code <:+ done ++ new ∧ (handler = .hal → reason) := by
  cases h with
  | goOn _ a returns =>
    exact absurd (List.mem_singleton.mp leaves).symm returns.2.2
  | exit _ rest gone code =>
    obtain ⟨handler, first, why⟩ := before (by simp [gone])
    rw [gone, beforeExit_append running, beforeExit, List.takeWhile_cons_of_neg (by simp),
      List.append_nil] at first
    obtain ⟨earlier, rfl⟩ := first
    refine ⟨handler, ⟨earlier, ?_⟩, why⟩
    cases handler <;> simp [Handler.code, sigintHandler, halSigintHandler]
  | leave => simp at leaves
  | _ => cases leaves

/-- Who left has run a handler to its end. -/
structure LeftOrderly (tr : List (Transition (State ι) (Event ι) (Done ι))) (s : State ι)
    (t : Thread ι) : Prop where
  left : .exit ∈ doneBy t (outputsOf tr) → s.exited = true ∧
    ∃ handler : Handler, handler.code <:+ doneBy t (outputsOf tr) ∧
      (handler = .hal → InterruptedEarly tr t)
  orderly : s.exited = false →
    Orderly (InterruptedEarly tr t) (doneBy t (outputsOf tr) ++ s.code t)

theorem leftOrderly_step (h : LeftOrderly tr s t) (enabled : Enabled s e)
    (hs : step s e = some (u, out)) : LeftOrderly (tr ++ [⟨s, e, out, u⟩]) u t := by
  have running : .exit ∉ doneBy t (outputsOf tr) := fun hexit =>
    Bool.false_ne_true (enabled.1.symm.trans (h.left hexit).1)
  have moved := moves enabled hs t
  have later : InterruptedEarly tr t → InterruptedEarly (tr ++ [⟨s, e, out, u⟩]) t := by
    rintro ⟨x, hx, early⟩
    exact ⟨x, List.mem_append_left _ hx, early⟩
  have before := (h.orderly enabled.1).mono later
  constructor
  · rw [outputsOf_append, outputsOf_singleton, doneBy_append]
    intro hexit
    have leaves := (List.mem_append.mp hexit).resolve_left running
    exact ⟨(flags_step hs).2.mpr (.inr ⟨t, mem_doneBy.mp leaves⟩),
      moved.exits running before leaves⟩
  · rw [outputsOf_append, outputsOf_singleton, doneBy_append]
    intro alive
    apply moved.orderly running _ before
    · intro event inForce
      exact ⟨_, List.mem_append_right _ (List.mem_singleton_self _), event, inForce⟩
    · intro leaves
      have gone := (flags_step hs).2.mpr (.inr ⟨t, mem_doneBy.mp leaves⟩)
      exact Bool.false_ne_true (alive.symm.trans gone)

theorem leftOrderly_run (h : Execution step Enabled initial tr s) (t : Thread ι) :
    LeftOrderly tr s t := by
  apply h.history_invariant (fun tr s => LeftOrderly tr s t)
  · constructor
    · intro left
      simp [doneBy] at left
    · exact fun _ => orderly_of_no_exit (by simp [doneBy, initial])
  · intro tr s e out u before enabled hs
    exact leftOrderly_step before enabled hs

/-! ## The clock -/

/-- What a SuperThread runs when no signal has come: it waits, or is in its callback, or is not
there. -/
def ticks : List (List Action) :=
  [[], superThread, [.gMainLoopRun], timeoutCallback ++ [.gMainLoopRun],
    [.testTimerthreadExit, .gMainLoopRun]]

/-- What the handlers do. -/
def handling : List Action := sigintHandler ++ halSigintHandler

theorem mem_handling {handler : Handler} (h : a ∈ handler.code) : a ∈ handling := by
  cases handler with
  | hal => exact List.mem_append_right _ h
  | main => exact List.mem_append_left _ h

/-- Code of a SuperThread, under any part of handlers. -/
def Ticking (code : List Action) : Prop :=
  ∃ handlers rest, (∀ a ∈ handlers, a ∈ handling) ∧ rest ∈ ticks ∧ code = handlers ++ rest

/-- Code of a caller: it ends in a loop or an exit and starts at most one thread. -/
structure Calling (code : List Action) : Prop where
  stays : ∀ a, code.getLast? = some a → a = .btstackRunLoopExecute ∨ a = .exit
  starts : code.count .gThreadNew ≤ 1
  untested : .testTimerthreadExit ∉ code

/-- A thread that is not in the module, or has not started its SuperThread yet. -/
def MayStart (code : List Action) : Prop := code = [] ∨ .gThreadNew ∈ code

instance (code : List Action) : Decidable (MayStart code) := by
  unfold MayStart
  infer_instance

/-- The clocks that a SuperThread can still do once the flag is set. -/
def remaining (code : List Action) : ℕ :=
  code.count .hmkitCoreClock +
    if .testTimerthreadExit ∈ code ∨ .gMainLoopRun ∉ code then 0 else 1

def clocksLeft (s : State ι) (i : ι) : ℕ :=
  if MayStart (s.code (.caller i)) then 1 else remaining (s.code (.superThread i))

theorem entry_calling (entry : Entry) : Calling entry.code := by
  cases entry with
  | hmPycCmainThread => exact ⟨by simp [Entry.code, hmLinkMain], by decide, by decide⟩
  | hmPycCthreadExit =>
    exact ⟨by simp [Entry.code, hmLinkExit, sigintHandler], by decide, by decide⟩

theorem Calling.interrupted (h : Calling code) (handler : Handler) :
    Calling (handler.code ++ code) ∧ (MayStart (handler.code ++ code) → MayStart code) := by
  have only : ∀ a ∈ handler.code, a ≠ .gThreadNew ∧ a ≠ .testTimerthreadExit := by
    cases handler <;> decide
  have last : handler.code.getLast? = some .exit := by cases handler <;> rfl
  refine ⟨⟨?_, ?_, ?_⟩, ?_⟩
  · intro a ends
    cases code with
    | nil =>
      rw [List.append_nil, last] at ends
      exact .inr (Option.some.inj ends).symm
    | cons b rest =>
      rw [List.getLast?_append_of_ne_nil _ (by simp)] at ends
      exact h.stays a ends
  · rw [List.count_append, List.count_eq_zero_of_not_mem fun starts => (only _ starts).1 rfl,
      Nat.zero_add]
    exact h.starts
  · intro tests
    rcases List.mem_append.mp tests with tests | tests
    · exact (only _ tests).2 rfl
    · exact h.untested tests
  · rintro (none | starts)
    · rw [(List.append_eq_nil_iff.mp none).1] at last
      cases last
    · rcases List.mem_append.mp starts with starts | starts
      · exact absurd rfl (only _ starts).1
      · exact .inr starts

/-- The last of the code never returns, so there is code left behind what does. -/
theorem Calling.next (h : Calling (a :: code))
    (returns : a ≠ .btstackRunLoopExecute ∧ a ≠ .exit) :
    Calling code ∧ (MayStart code → MayStart (a :: code)) := by
  have more : code ≠ [] := by
    rintro rfl
    exact (h.stays a rfl).elim returns.1 returns.2
  refine ⟨⟨?_, ?_, ?_⟩, ?_⟩
  · intro b last
    apply h.stays b
    rw [List.getLast?_cons, last]
    rfl
  · exact Nat.le_trans List.count_le_count_cons h.starts
  · exact fun tests => h.untested (List.mem_cons_of_mem _ tests)
  · rintro (none | starts)
    · exact absurd none more
    · exact .inr (List.mem_cons_of_mem _ starts)

omit [DecidableEq ι] in
theorem Moves.calling {new : List Action} (h : Moves s e u (.caller i) new)
    (before : Calling (s.code (.caller i))) :
    Calling (u.code (.caller i)) ∧
      (MayStart (u.code (.caller i)) → MayStart (s.code (.caller i))) := by
  cases h with
  | still _ same => rw [same]; exact ⟨before, id⟩
  | exit _ rest gone code => rw [code]; exact ⟨before, id⟩
  | call _ entry outside code => rw [code]; exact ⟨entry_calling entry, fun _ => .inl outside⟩
  | sigint _ handler _ _ _ code => rw [code]; exact before.interrupted handler
  | goOn _ a returns _ code =>
    rw [code] at before ⊢
    exact before.next ⟨returns.1, returns.2.2⟩
  | leave _ rest _ gone =>
    exact absurd (by simp [gone]) before.untested

theorem remaining_handlers {handlers : List Action} (h : ∀ a ∈ handlers, a ∈ handling)
    (code : List Action) : remaining (handlers ++ code) = remaining code := by
  have none : ∀ a, a ∉ handling → a ∉ handlers := fun a ha hm => ha (h a hm)
  rw [remaining, remaining, List.count_append, List.count_eq_zero_of_not_mem (none _ (by decide)),
    Nat.zero_add]
  simp only [List.mem_append, none .testTimerthreadExit (by decide),
    none .gMainLoopRun (by decide), false_or]

theorem Ticking.remaining_le (h : Ticking code) : remaining code ≤ 1 := by
  obtain ⟨handlers, rest, only, tick, rfl⟩ := h
  rw [remaining_handlers only]
  have all : ∀ rest ∈ ticks, remaining rest ≤ 1 := by decide
  exact all rest tick

omit [DecidableEq ι] in
theorem Moves.ticking {new : List Action} (h : Moves s e u (.superThread i) new)
    (before : Ticking (s.code (.superThread i))) : Ticking (u.code (.superThread i)) := by
  cases h with
  | still _ same => rwa [same]
  | exit _ rest gone code => rwa [code]
  | timeout _ _ code | start _ _ code | leave _ _ _ _ code =>
    rw [code]
    exact ⟨[], _, by simp, by decide, rfl⟩
  | sigint _ handler _ _ _ code =>
    obtain ⟨handlers, rest, only, tick, hc⟩ := before
    refine ⟨handler.code ++ handlers, rest, ?_, tick, by rw [code, hc, List.append_assoc]⟩
    intro a ha
    exact (List.mem_append.mp ha).elim mem_handling (only a)
  | goOn _ a returns _ code =>
    obtain ⟨handlers, rest, only, tick, hc⟩ := before
    rw [code] at hc
    cases handlers with
    | cons b handlers =>
      exact ⟨handlers, rest, fun c hm => only c (List.mem_cons_of_mem _ hm), tick,
        (List.cons.inj hc).2⟩
    | nil =>
      have tails : ∀ rest ∈ ticks, rest ≠ [.gMainLoopRun] → rest.tail ∈ ticks := by decide
      have tail := tails rest tick fun waiting =>
        returns.2.1 (List.cons.inj (hc.trans waiting)).1
      rw [List.nil_append] at hc
      rw [← hc] at tail
      exact ⟨[], _, by simp, tail, rfl⟩

/-- The first `g_thread_new` of a caller is its last. -/
theorem Calling.started (h : Calling (.gThreadNew :: code)) : ¬ MayStart code := by
  rintro (rfl | again)
  · rcases h.stays .gThreadNew rfl with h | h <;> cases h
  · have twice := List.one_le_count_iff.mpr again
    have once := h.starts
    rw [List.count_cons_self] at once
    omega

omit [DecidableEq ι] in
/-- A SuperThread that is not there does nothing but start. -/
theorem Moves.absent {new : List Action} (h : Moves s e u (.superThread i) new)
    (gone : s.code (.superThread i) = []) :
    new = [] ∧ (s.code (.caller i) ≠ .gThreadNew :: u.code (.caller i) →
      u.code (.superThread i) = []) := by
  cases h with
  | still _ same => exact ⟨rfl, fun _ => same.trans gone⟩
  | start _ started => exact ⟨rfl, fun unstarted => absurd started unstarted⟩
  | timeout _ waiting => simp [gone] at waiting
  | sigint _ _ _ _ alive => exact absurd gone (alive i rfl)
  | goOn _ a _ _ code => simp [gone] at code
  | leave _ rest _ before => simp [gone] at before
  | exit _ rest before => simp [gone] at before

omit [DecidableEq ι] in
/-- Once the flag is set a SuperThread that is running uses up the clocks it has left. -/
theorem Moves.uses {new : List Action} (h : Moves s e u (.superThread i) new)
    (asked : s.timerthreadExit = true)
    (unstarted : s.code (.caller i) ≠ .gThreadNew :: u.code (.caller i)) :
    new.count .hmkitCoreClock + remaining (u.code (.superThread i)) ≤
      remaining (s.code (.superThread i)) := by
  cases h with
  | still _ same => rw [same, List.count_nil, Nat.zero_add]
  | start _ started => exact absurd started unstarted
  | timeout _ waiting code =>
    rw [waiting, code]
    decide
  | sigint _ _ _ _ _ code =>
    rw [code, remaining_handlers (fun _ => mem_handling), List.count_nil, Nat.zero_add]
  | leave _ rest _ _ code =>
    rw [code]
    exact Nat.zero_le _
  | exit _ rest _ code =>
    rw [code]
    rw [List.count_singleton]
    exact (Nat.zero_add _).le
  | goOn _ a returns leaves code =>
    have untested : a ≠ .testTimerthreadExit := fun tests =>
      Bool.false_ne_true ((leaves tests).symm.trans asked)
    have counted : ([a] ++ u.code (.superThread i)).count .hmkitCoreClock =
        [a].count .hmkitCoreClock + (u.code (.superThread i)).count .hmkitCoreClock :=
      List.count_append
    rw [List.singleton_append] at counted
    rw [code, remaining, remaining, counted]
    simp only [List.mem_cons, Ne.symm untested, Ne.symm returns.2.1, false_or]
    omega

/-- What holds of a caller and the SuperThread that it starts. -/
structure Paired (s : State ι) (i : ι) : Prop where
  calling : Calling (s.code (.caller i))
  ticking : Ticking (s.code (.superThread i))
  absent : MayStart (s.code (.caller i)) → s.code (.superThread i) = []

omit [DecidableEq ι] in
theorem Paired.clocksLeft_le (h : Paired s i) : clocksLeft s i ≤ 1 := by
  rw [clocksLeft]
  split
  · exact Nat.le_refl 1
  · exact h.ticking.remaining_le

omit [DecidableEq ι] in
theorem initial_paired (i : ι) : Paired initial i :=
  ⟨⟨by simp [initial], by simp [initial], by simp [initial]⟩, ⟨[], [], by simp, by decide, rfl⟩,
    fun _ => rfl⟩

theorem paired_step (enabled : Enabled s e) (hs : step s e = some (u, out)) (h : Paired s i) :
    Paired u i := by
  have caller := (moves enabled hs (.caller i)).calling h.calling
  have moved := moves enabled hs (.superThread i)
  refine ⟨caller.1, moved.ticking h.ticking, fun may => ?_⟩
  apply (moved.absent (h.absent (caller.2 may))).2
  intro started
  exact (started ▸ h.calling).started may

theorem clocks_step (enabled : Enabled s e) (hs : step s e = some (u, out)) (h : Paired s i)
    (asked : s.timerthreadExit = true) :
    (doneBy (.superThread i) out).count .hmkitCoreClock + clocksLeft u i ≤ clocksLeft s i := by
  have caller := (moves enabled hs (.caller i)).calling h.calling
  have moved := moves enabled hs (.superThread i)
  by_cases may : MayStart (s.code (.caller i))
  · have one : clocksLeft s i = 1 := if_pos may
    rw [(moved.absent (h.absent may)).1, List.count_nil, Nat.zero_add, one]
    exact (paired_step enabled hs h).clocksLeft_le
  · have later : ¬ MayStart (u.code (.caller i)) := fun again => may (caller.2 again)
    rw [clocksLeft, clocksLeft, if_neg may, if_neg later]
    apply moved.uses asked
    intro started
    exact may (.inr (started ▸ List.mem_cons_self))

theorem paired_run (h : Execution step Enabled initial tr s) (i : ι) : Paired s i :=
  h.invariant (fun s => Paired s i) (initial_paired i) fun paired enabled hs =>
    paired_step enabled hs paired

/-- After the flag is set no SuperThread does more than one clock. -/
theorem clocks_run (paired : Paired s i) (asked : s.timerthreadExit = true)
    (h : Execution step Enabled s tr u) :
    (doneBy (.superThread i) (outputsOf tr)).count .hmkitCoreClock ≤ 1 := by
  have used : Paired u i ∧ u.timerthreadExit = true ∧
      (doneBy (.superThread i) (outputsOf tr)).count .hmkitCoreClock + clocksLeft u i ≤
        clocksLeft s i := by
    apply h.history_invariant (fun tr u => Paired u i ∧ u.timerthreadExit = true ∧
      (doneBy (.superThread i) (outputsOf tr)).count .hmkitCoreClock + clocksLeft u i ≤
        clocksLeft s i)
    · exact ⟨paired, asked, by simp [doneBy]⟩
    · rintro tr v e out w ⟨held, still, sofar⟩ enabled hs
      have now := clocks_step enabled hs held still
      refine ⟨paired_step enabled hs held, (flags_step hs).1.mpr (.inl still), ?_⟩
      rw [outputsOf_append, outputsOf_singleton, doneBy_append, List.count_append]
      dsimp only
      omega
  have most := paired.clocksLeft_le
  omega

omit [DecidableEq ι] in
/-- No SuperThread sets the flag, not even in a handler. -/
theorem Moves.unset {new : List Action} (h : Moves s e u (.superThread i) new)
    (ticking : Ticking (s.code (.superThread i))) : .setTimerthreadExit ∉ new := by
  have unset : .setTimerthreadExit ∉ s.code (.superThread i) := by
    obtain ⟨handlers, rest, only, tick, hc⟩ := ticking
    have all : ∀ rest ∈ ticks, .setTimerthreadExit ∉ rest := by decide
    rw [hc, List.mem_append]
    rintro (sets | sets)
    · exact absurd (only _ sets) (by decide)
    · exact all rest tick sets
  cases h with
  | goOn _ a _ _ code =>
    rw [code] at unset
    exact fun sets => unset (List.mem_cons.mpr (.inl (List.mem_singleton.mp sets)))
  | leave | exit => simp
  | _ => exact List.not_mem_nil

theorem flags_run (h : Execution step Enabled initial tr s) :
    (s.timerthreadExit = true ↔ ∃ t, (t, .setTimerthreadExit) ∈ outputsOf tr) ∧
    (s.exited = true ↔ ∃ t, (t, .exit) ∈ outputsOf tr) := by
  apply h.history_invariant (fun tr s =>
    (s.timerthreadExit = true ↔ ∃ t, (t, .setTimerthreadExit) ∈ outputsOf tr) ∧
    (s.exited = true ↔ ∃ t, (t, .exit) ∈ outputsOf tr))
  · simp [initial]
  · rintro tr s e out u ⟨flag, exited⟩ _ hs
    obtain ⟨flag', exited'⟩ := flags_step hs
    simp only [outputsOf_append, outputsOf_singleton, List.mem_append, exists_or]
    exact ⟨by rw [flag', flag], by rw [exited', exited]⟩

/-- Only a caller sets the flag. -/
theorem caller_of_flag (h : Execution step Enabled initial tr s)
    (sets : (t, .setTimerthreadExit) ∈ outputsOf tr) : ∃ i, t = .caller i := by
  obtain ⟨x, hx, hd⟩ := List.mem_flatMap.mp sets
  obtain ⟨earlier, before, enabled, hs⟩ := h.transition hx
  cases t with
  | caller i => exact ⟨i, rfl⟩
  | superThread i =>
    have moved := moves enabled hs (.superThread i)
    exact absurd (mem_doneBy.mpr hd) (moved.unset (paired_run before i).ticking)

/-! ## Getting to the end -/

/-- What stands between a thread and its exit is short and does not loop. -/
structure Leaving (code : List Action) : Prop where
  short : (beforeExit code).length ≤ 5
  returns : ∀ a ∈ beforeExit code, a ≠ .btstackRunLoopExecute ∧ a ≠ .gMainLoopRun ∧
    a ≠ .testTimerthreadExit

omit [DecidableEq ι] in
theorem Moves.leaving {new : List Action} (h : Moves s e u t new)
    (before : .exit ∈ s.code t → Leaving (s.code t)) :
    .exit ∈ u.code t → Leaving (u.code t) := by
  cases h with
  | still _ same | exit _ rest _ same => rwa [same]
  | call i entry _ code =>
    rw [code]
    cases entry with
    | hmPycCmainThread => exact fun leaves => absurd leaves (by decide)
    | hmPycCthreadExit => exact fun _ => ⟨by decide, by decide⟩
  | timeout i _ code | start i _ code | leave _ rest _ _ code =>
    rw [code]
    exact fun leaves => absurd leaves (by decide)
  | sigint _ handler _ _ _ code =>
    rw [code]
    have first : beforeExit (handler.code ++ s.code t) = handler.code.dropLast := by
      cases handler <;> rfl
    intro _
    constructor <;> rw [first] <;> cases handler <;> decide
  | goOn _ a returns _ code =>
    intro leaves
    obtain ⟨short, all⟩ := before (by rw [code]; exact List.mem_cons_of_mem _ leaves)
    rw [code, beforeExit, List.takeWhile_cons_of_pos (by simpa using returns.2.2)] at short all
    exact ⟨Nat.le_of_succ_le short, fun b hb => all b (List.mem_cons_of_mem _ hb)⟩

theorem leaving_run (h : Execution step Enabled initial tr s) (t : Thread ι) :
    .exit ∈ s.code t → Leaving (s.code t) := by
  apply h.invariant (fun s => .exit ∈ s.code t → Leaving (s.code t))
  · exact fun leaves => absurd leaves (by simp [initial])
  · intro s e out u before enabled hs
    exact (moves enabled hs t).leaving before

theorem perform_returns (s : State ι) (t : Thread ι) (rest : List Action)
    (returns : a ≠ .btstackRunLoopExecute ∧ a ≠ .gMainLoopRun ∧ a ≠ .testTimerthreadExit)
    (stays : a ≠ .exit) :
    (perform s t rest a).1.code t = rest ∧ (perform s t rest a).1.exited = s.exited := by
  cases a with
  | btstackRunLoopExecute => exact absurd rfl returns.1
  | gMainLoopRun => exact absurd rfl returns.2.1
  | testTimerthreadExit => exact absurd rfl returns.2.2
  | exit => exact absurd rfl stays
  | gThreadNew =>
    cases t with
    | superThread i => exact ⟨goOn_self .., rfl⟩
    | caller i => exact ⟨(goOn_other _ _ (by simp)).trans (goOn_self ..), rfl⟩
  | _ => exact ⟨goOn_self .., rfl⟩

/-- A thread on its way out gets there by itself. -/
theorem exit_reached (alive : s.exited = false) (hc : s.code t = code) (leaves : .exit ∈ code)
    (leaving : ∀ a ∈ beforeExit code, a ≠ .btstackRunLoopExecute ∧ a ≠ .gMainLoopRun ∧
      a ≠ .testTimerthreadExit) :
    ∃ tr u, Execution step Enabled s tr u ∧ tr.length = (beforeExit code).length + 1 ∧
      (∀ x ∈ tr, x.event = .act t) ∧ u.exited = true := by
  induction code generalizing s with
  | nil => cases leaves
  | cons a rest ih =>
    have acts : Enabled s (.act t) := ⟨alive, by simp [hc]⟩
    have hs : step s (.act t) = some (perform s t rest a) := by simp [step, hc]
    have first := Execution.tail .init acts hs
    by_cases stays : a = .exit
    · subst stays
      exact ⟨_, _, first, rfl, by simp, rfl⟩
    · have before : beforeExit (a :: rest) = a :: beforeExit rest :=
        List.takeWhile_cons_of_pos (by simpa using stays)
      rw [before] at leaving ⊢
      obtain ⟨code, exited⟩ :=
        perform_returns s t rest (leaving a (List.mem_cons_self ..)) stays
      obtain ⟨tr, u, after, length, events, gone⟩ := ih (exited.trans alive) code
        ((List.mem_cons.mp leaves).resolve_left (Ne.symm stays))
        fun b hb => leaving b (List.mem_cons_of_mem _ hb)
      refine ⟨_, u, first.append after, ?_, ?_, gone⟩
      · simp [length]
      · simpa using events

/-- In every interleaving of any number of threads and signals: the process exits when some
thread has run a handler to its end, and so switched the radio off; it is the handler that stops
advertising before, unless SIGINT came while the HAL's was in force. The flag is set by callers
that end the link, never by a signal, and no SuperThread does more than one clock after that; and
a thread that is to leave needs at most six steps of its own. -/
theorem orderly_shutdown (h : Execution step Enabled initial tr s) :
    (s.exited = true ↔ ∃ t, (t, .exit) ∈ outputsOf tr) ∧
    (∀ t, (t, .exit) ∈ outputsOf tr → ∃ handler : Handler,
      handler.code <:+ doneBy t (outputsOf tr) ∧ (handler = .hal → InterruptedEarly tr t)) ∧
    (s.timerthreadExit = true ↔ ∃ i, (.caller i, .setTimerthreadExit) ∈ outputsOf tr) ∧
    (s.timerthreadExit = true → ∀ tr' u, Execution step Enabled s tr' u → ∀ i,
      (doneBy (.superThread i) (outputsOf tr')).count .hmkitCoreClock ≤ 1) ∧
    (s.exited = false → ∀ t, .exit ∈ s.code t → ∃ tr' u, Execution step Enabled s tr' u ∧
      tr'.length ≤ 6 ∧ (∀ x ∈ tr', x.event = .act t) ∧ u.exited = true) := by
  obtain ⟨flag, exited⟩ := flags_run h
  refine ⟨exited, ?_, ?_, ?_, ?_⟩
  · intro t left
    exact ((leftOrderly_run h t).left (mem_doneBy.mpr left)).2
  · rw [flag]
    constructor
    · rintro ⟨t, sets⟩
      obtain ⟨i, rfl⟩ := caller_of_flag h sets
      exact ⟨i, sets⟩
    · rintro ⟨i, sets⟩
      exact ⟨_, sets⟩
  · intro asked tr' u later i
    exact clocks_run (paired_run h i) asked later
  · intro alive t leaves
    obtain ⟨short, returns⟩ := leaving_run h t leaves
    obtain ⟨tr', u, later, length, events, gone⟩ := exit_reached alive rfl leaves returns
    exact ⟨tr', u, later, by omega, events, gone⟩

/-- The link is started and ended, and a signal to the SuperThread is quicker. -/
theorem orderly_shutdown_interrupted :
    ∃ tr s, run step (initial : State ℕ)
        [.call 0 .hmPycCmainThread, .act (.caller 0), .act (.caller 0), .btstackStart 0,
          .act (.caller 0), .act (.caller 0), .act (.caller 0), .call 1 .hmPycCthreadExit,
          .act (.caller 1), .act (.caller 1), .sigint (.superThread 0), .act (.superThread 0),
          .act (.superThread 0), .act (.superThread 0), .act (.superThread 0)] = some (tr, s) ∧
      s.exited = true ∧ ∃ handler : Handler,
        handler.code <:+ doneBy (.superThread 0) (outputsOf tr) := by
  have h : Execution step Enabled (initial : State ℕ) _ _ := execution_of_run
    [.call 0 .hmPycCmainThread, .act (.caller 0), .act (.caller 0), .btstackStart 0,
      .act (.caller 0), .act (.caller 0), .act (.caller 0), .call 1 .hmPycCthreadExit,
      .act (.caller 1), .act (.caller 1), .sigint (.superThread 0), .act (.superThread 0),
      .act (.superThread 0), .act (.superThread 0), .act (.superThread 0)] rfl (by decide)
  obtain ⟨exited, handled, _⟩ := orderly_shutdown h
  obtain ⟨handler, done, _⟩ := handled (.superThread 0) (by decide)
  exact ⟨_, _, rfl, rfl, handler, done⟩

end OrderlyShutdown
