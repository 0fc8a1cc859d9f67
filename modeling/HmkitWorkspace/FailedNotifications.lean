import HmkitWorkspace.ReadBuffers
import HmkitWorkspace.AuxiliaryVariables

/-! # Notifications that are refused

The outbox is what the ready flags stand for: for each slot and characteristic the payload
accepted last, until a notification of it has succeeded. -/
namespace FailedNotifications

open TransitionRuns AuxiliaryVariables HmkitCoreConnectivityHal ConnectionTableInvariant
  ReadBuffers

abbrev Outbox := Slot → Channel → Option (List UInt8)

/-- Accepting a payload puts it into the outbox, a successful notification takes it out. -/
def outboxAfter (s : State) (box : Outbox) : Event → Outbox
  | .writeData mac data characteristic =>
    match writeTarget s mac characteristic with
    | some (i, ch) => Function.update box i (Function.update (box i) ch (some data))
    | none => box
  | .canSendNow ret => fun i ch =>
    if servedSlot s ch = some i ∧ (buffer s i ch).ready ∧ ret ch = 0 then none else box i ch
  | _ => box

/-- The HAL with its outbox beside it. -/
abbrev Tracked := Augmented State Outbox

def trackedStep : StepFunction Tracked Event Call :=
  augment step fun s box e _ => outboxAfter s box e

def Tracked.initial : Tracked := ⟨HmkitCoreConnectivityHal.initial, fun _ _ => none⟩

/-- What the flags, buffers and sizes say is still to be sent. -/
def pending (s : State) : Outbox := fun i ch =>
  if (buffer s i ch).ready then some (buffer s i ch).value else none

def Remembers (w : Tracked) : Prop := pending w.state = w.record

/-- No notification attempted by the event is refused. -/
def AttemptsSucceed (w : Tracked) (e : Event) : Prop :=
  ∀ ret ch i, e = .canSendNow ret → servedSlot w.state ch = some i →
    (buffer w.state i ch).ready = true → ret ch = 0

/-- Connections, attempts and writes are of one peer. -/
def OnePeer (mac : Mac) : Event → Prop
  | .hci (.leConnectionComplete _ _ address) => address = mac
  | .connect m _ _ => m = mac
  | .writeData m _ _ => m = mac
  | _ => True

structure OnlyPeer (mac : Mac) (s : State) : Prop where
  macs : ∀ i, (s.btConnections i).mac = 0 ∨ (s.btConnections i).mac = mac
  addresses : ∀ ch, s.readBufferMac ch = 0 ∨ s.readBufferMac ch = mac
  ready : ∀ i ch, (buffer s i ch).ready = true → s.readBufferMac ch = mac

variable {w v : Tracked} {s u : State} {e : Event} {out : List Call} {mac : Mac} {i : Slot}
  {ch : Channel} {tr : List (Transition Tracked Event Call)}

/-! ## The outbox -/

theorem pending_congr (same : buffer u i ch = buffer s i ch) : pending u i ch = pending s i ch := by
  simp [pending, same]

theorem canSend_pending {ret : Channel → ℤ} (hs : trackedStep w (.canSendNow ret) = some (v, out))
    (i : Slot) (ch : Channel) :
    pending v.state i ch =
      if servedSlot w.state ch = some i then none else pending w.state i ch := by
  obtain ⟨hv, _⟩ := total_step (augment_step hs).1
  have after := canSendNow_buffer w.state ret i ch
  replace hv : (canSendNow w.state ret).1 = v.state := hv
  rw [hv] at after
  by_cases slot : servedSlot w.state ch = some i
  · simp [pending, after, slot]
  · simpa [slot] using pending_congr (by simpa [slot] using after)

/-- An event that sends nothing keeps flags and outbox together. -/
theorem silent_remembers (h : Remembers w) (hs : trackedStep w e = some (v, out))
    (silent : ∀ ret, e ≠ .canSendNow ret) : Remembers v := by
  obtain ⟨hal, box⟩ := augment_step hs
  funext i ch
  have before : pending w.state i ch = w.record i ch := congrFun (congrFun h i) ch
  rw [box]
  cases step_buffer hal i ch with
  | keep _ same unwritten =>
    rw [pending_congr same, before]
    cases e with
    | writeData mac data characteristic =>
      have apart := unwritten mac data characteristic rfl
      simp only [outboxAfter]
      cases ht : writeTarget w.state mac characteristic with
      | none => rfl
      | some target =>
        obtain ⟨j, c⟩ := target
        by_cases hj : i = j
        · subst j
          have hc : ch ≠ c := by
            rintro rfl
            exact apart ht
          simp [hc]
        · simp [hj]
    | canSendNow ret => exact absurd rfl (silent ret)
    | _ => rfl
  | stored mac data characteristic target stores =>
    simp [pending, stores.ready, stores.value, outboxAfter, target]
  | served ret _ _ => exact absurd rfl (silent ret)

theorem canSend_remembers {ret : Channel → ℤ} (h : Remembers w)
    (hs : trackedStep w (.canSendNow ret) = some (v, out)) :
    Remembers v ↔ AttemptsSucceed w (.canSendNow ret) := by
  have box : v.record = outboxAfter w.state w.record (.canSendNow ret) := (augment_step hs).2
  have before : ∀ i ch, pending w.state i ch = w.record i ch :=
    fun i ch => congrFun (congrFun h i) ch
  constructor
  · intro after r ch i he slot ready
    cases he
    have same := congrFun (congrFun after i) ch
    rw [canSend_pending hs, box] at same
    by_contra failed
    simp [outboxAfter, slot, failed, ← before, pending, ready] at same
  · intro succeed
    funext i ch
    rw [canSend_pending hs, box]
    by_cases slot : servedSlot w.state ch = some i
    · by_cases ready : (buffer w.state i ch).ready = true
      · simp [outboxAfter, slot, ready, succeed ret ch i rfl slot ready]
      · simp [outboxAfter, slot, ready, ← before, pending]
    · simp [outboxAfter, slot, before]

theorem remembers_step (h : Remembers w) (hs : trackedStep w e = some (v, out)) :
    Remembers v ↔ AttemptsSucceed w e := by
  rcases sends_or_silent e with ⟨ret, rfl⟩ | silent
  · exact canSend_remembers h hs
  · have succeed : AttemptsSucceed w e := fun ret _ _ he => absurd he (silent ret)
    simp [silent_remembers h hs silent, succeed]

theorem initial_remembers : Remembers Tracked.initial := by
  funext i ch
  simp [pending, Tracked.initial, initial_buffer]

/-! ## One peer -/

theorem create_mac (t : BtConnections) (mac : Mac) (i : Slot) :
    (createBtConnection t mac i).mac = (t i).mac ∨ (createBtConnection t mac i).mac = mac := by
  rcases createBtConnection_slot t mac i with same | ⟨_, claimed⟩
  · left
    rw [same]
  · right
    rw [claimed]

theorem macs_step {t t' : BtConnections} (h : TableStep t e t') (he : OnePeer mac e)
    (macs : ∀ i, (t i).mac = 0 ∨ (t i).mac = mac) (i : Slot) :
    (t' i).mac = 0 ∨ (t' i).mac = mac := by
  have created : (createBtConnection t mac i).mac = 0 ∨ (createBtConnection t mac i).mac = mac := by
    rcases create_mac t mac i with h | h
    · rw [h]; exact macs i
    · exact Or.inr h
  cases h with
  | keep _ _ same => rw [(same i).mac]; exact macs i
  | claim m =>
    obtain rfl : m = mac := he
    exact created
  | complete handle m j =>
    obtain rfl : m = mac := he
    by_cases hj : i = j
    · subst j; simpa using created
    · simpa [hj] using created
  | release handle j =>
    rcases delete_cases t j i with h | h
    · rw [h]; exact macs i
    · simp [h, clearConnectionData]

theorem addresses_step (he : OnePeer mac e) (ch : Channel) :
    readBufferMacAfter s e ch = s.readBufferMac ch ∨ readBufferMacAfter s e ch = mac := by
  cases e with
  | writeData m data characteristic =>
    obtain rfl : m = mac := he
    simp only [readBufferMacAfter]
    cases writeTarget s m characteristic with
    | none => exact Or.inl rfl
    | some target => by_cases hc : ch = target.2 <;> simp [hc]
  | _ => exact Or.inl rfl

theorem onlyPeer_step (h : OnlyPeer mac s) (he : OnePeer mac e)
    (hs : step s e = some (u, out)) : OnlyPeer mac u := by
  have address : ∀ ch, u.readBufferMac ch = s.readBufferMac ch ∨ u.readBufferMac ch = mac := by
    intro ch
    rw [(step_globals hs).1]
    exact addresses_step he ch
  refine ⟨macs_step (step_table hs) he h.macs, ?_, ?_⟩
  · intro ch
    rcases address ch with kept | moved
    · rw [kept]; exact h.addresses ch
    · exact Or.inr moved
  · intro i ch ready
    cases step_buffer hs i ch with
    | keep _ same _ =>
      rcases address ch with kept | moved
      · rw [kept]
        apply h.ready i ch
        rwa [← same]
      · exact moved
    | stored m data characteristic target stores =>
      obtain rfl : m = mac := he
      simp [stores.readBufferMac]
    | served _ _ after => simp [after] at ready

theorem initial_onlyPeer (mac : Mac) : OnlyPeer mac HmkitCoreConnectivityHal.initial := by
  constructor
  · intro i
    simp [HmkitCoreConnectivityHal.initial, init_btConnections, clearConnectionData]
  · intro ch
    exact Or.inl rfl
  · intro i ch ready
    simp [initial_buffer] at ready

/-- With one peer the can-send handler finds the slot of whatever is waiting for it. -/
theorem OnlyPeer.servedSlot (h : OnlyPeer mac s) (inv : TableInvariant s.btConnections)
    (hm : mac ≠ 0) (occupied : (s.btConnections i).isEmpty = true)
    (ready : (buffer s i ch).ready = true) : servedSlot s ch = some i := by
  have hi : (s.btConnections i).mac = mac := by
    rcases h.macs i with hz | hi
    · exact absurd hz ((inv.occupied_iff i).mp occupied)
    · exact hi
  have own : getBtConnectionUsingMac s.btConnections (s.readBufferMac ch) = some i := by
    rw [h.ready i ch ready]
    exact inv.lookup_mac hm hi
  cases ch with
  | link => exact own
  | sensing =>
    have found : getBtConnectionUsingMac s.btConnections (s.readBufferMac .link) ≠ none := by
      intro hl
      have absent := lookup_mac_none_iff.mp hl
      rcases h.addresses .link with hz | hlink
      · -- A table with one peer is not full.
        have full : ∀ j, (s.btConnections j).mac = mac := by
          intro j
          rcases h.macs j with hj | hj
          · exact absurd (hj.trans hz.symm) (absent j)
          · exact hj
        have same := inv.distinct 0 1 ((full 0).trans (full 1).symm) (by rw [full 0]; exact hm)
        exact absurd same (by decide)
      · exact absent i (hi.trans hlink.symm)
    simp [ReadBuffers.servedSlot, Option.isSome_iff_ne_none.mpr found, own]

/-- What is pending is what was accepted and not yet notified successfully, in every state of
a run, exactly when no notification fails; with one peer what is pending is retried. -/
theorem failed_notifications
    (h : Execution trackedStep (fun _ _ => True) Tracked.initial tr w) :
    ((∀ t ∈ tr, Remembers t.post) ↔ ∀ t ∈ tr, AttemptsSucceed t.pre t.event) ∧
    ∀ mac, mac ≠ 0 → (∀ t ∈ tr, OnePeer mac t.event) →
      ∀ i ch data ret, (w.state.btConnections i).isEmpty = true → pending w.state i ch = some data →
        .notify (w.state.btConnections i).handle ch.valueHandle data (ret ch) ∈
          (canSendNow w.state ret).2 := by
  constructor
  · refine h.forall_iff Remembers initial_remembers (fun _ kept => kept) ?_
    intro _ w e out v _ before _ hs
    exact remembers_step before hs
  · intro mac hm one i ch data ret occupied waiting
    have hal := Execution.forget (G := fun _ e => True ∧ OnePeer mac e) (h.restrict one)
    have inv : TableInvariant w.state.btConnections :=
      reachable_invariant (hal.mono fun _ _ _ => trivial)
    have only : OnlyPeer mac w.state := by
      apply hal.invariant (OnlyPeer mac) (initial_onlyPeer mac)
      intro s e out u before he hs
      exact onlyPeer_step before he.2 hs
    have ready : (buffer w.state i ch).ready = true := by
      by_contra down
      simp [pending, down] at waiting
    have value : (buffer w.state i ch).value = data := by simpa [pending, ready] using waiting
    have slot := only.servedSlot inv hm occupied ready
    have own : Call.notify (w.state.btConnections i).handle ch.valueHandle data (ret ch) ∈
        (canSendNow w.state ret).2.filter (onChannel ch) := by
      rw [canSendNow_onChannel]
      simp [served, slot, ready, value]
    exact List.mem_of_mem_filter own

theorem failed_notifications_one_peer :
    ∃ tr w, run trackedStep Tracked.initial [.hci (.leConnectionComplete 0 0x40 peerA),
        .writeData peerA [1] .linkRead, .canSendNow fun _ => 0, .writeData peerA [2] .sensingRead] =
          some (tr, w) ∧ (∀ t ∈ tr, Remembers t.post) ∧
      .notify 0x40 0x000d [2] 0 ∈ (canSendNow w.state fun _ => 0).2 := by
  have both := failed_notifications (execution_of_run [.hci (.leConnectionComplete 0 0x40 peerA),
    .writeData peerA [1] .linkRead, .canSendNow fun _ => 0, .writeData peerA [2] .sensingRead] rfl
      fun _ _ => trivial)
  refine ⟨_, _, rfl, both.1.mpr ?_, both.2 peerA (by decide) ?_ 0 .sensing [2] (fun _ => 0)
    (by decide) (by decide)⟩
  · rintro t (_ | ⟨_, _ | ⟨_, _ | ⟨_, _ | ⟨_, ⟨⟩⟩⟩⟩⟩) ret ch i ⟨⟩ _ _
    rfl
  · rintro t (_ | ⟨_, _ | ⟨_, _ | ⟨_, _ | ⟨_, ⟨⟩⟩⟩⟩⟩)
    all_goals first | exact rfl | trivial

/-- The notification of the second payload is refused: it is lost, and never retried. -/
theorem refused_payload_forgotten :
    ∃ tr w, Execution trackedStep (fun _ _ => True) Tracked.initial tr w ∧
      w.record 0 .sensing = some [2] ∧ pending w.state 0 .sensing = none ∧
      (canSendNow w.state fun _ => 0).2 = [] ∧ ¬ ∀ t ∈ tr, Remembers t.post := by
  refine ⟨_, _, execution_of_run [.hci (.leConnectionComplete 0 0x40 peerA),
    .writeData peerA [1] .linkRead, .writeData peerA [2] .sensingRead,
    .canSendNow fun ch => if ch = .sensing then 0x57 else 0] rfl fun _ _ => trivial,
    by decide, by decide, by decide, ?_⟩
  intro kept
  have last := kept _ (List.mem_of_getLast? rfl)
  exact absurd (congrFun (congrFun last 0) .sensing) (by decide)

end FailedNotifications
