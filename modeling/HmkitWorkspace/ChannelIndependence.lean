import HmkitWorkspace.ReadBuffers

/-! # The two channels in one can-send event

The handler serves 02 first and returns when the address last written there is not in the
table: what it then does for 06 depends on a peer of the other channel. -/
namespace ChannelIndependence

open TransitionRuns HmkitCoreConnectivityHal ConnectionTableInvariant ReadBuffers

variable {s s' : State} {tr tr' : List (Transition State Event Call)} {i : Slot}

def sensingSlot (s : State) : Option Slot :=
  getBtConnectionUsingMac s.btConnections (s.readBufferMac .sensing)

/-- Two states with the same 06 address, slot, buffer and pending write response. -/
structure SensingAgree (s s' : State) : Prop where
  mac : s'.readBufferMac .sensing = s.readBufferMac .sensing
  slot : sensingSlot s' = sensingSlot s
  handle : ∀ i, sensingSlot s = some i →
    (s'.btConnections i).handle = (s.btConnections i).handle
  buffer : ∀ i, sensingSlot s = some i → buffer s' i .sensing = buffer s i .sensing
  blink : s'.blinkWriteResp = s.blinkWriteResp

def isWriteResponse : Call → Bool
  | .linkWriteResponse _ _ => true
  | _ => false

/-- The notifications on 06 and the write responses among the calls of a handler. -/
def sensingCalls (calls : List Call) : List Call :=
  calls.filter fun c => onChannel .sensing c || isWriteResponse c

/-- What there is to do for 06, whether or not the handler gets there. -/
def sensingWork (s : State) (ret : ℤ) : List Call :=
  match sensingSlot s with
  | none => []
  | some i =>
    (if (buffer s i .sensing).ready then
      [.notify (s.btConnections i).handle Channel.sensing.valueHandle
        (buffer s i .sensing).value ret]
    else []) ++
    if s.blinkWriteResp then [.linkWriteResponse (s.readBufferMac .sensing) .linkWrite] else []

/-- No slot has the address last written on 02: its peer is gone, or nothing was ever
written there and the table is full. -/
def LinkStale (s : State) : Prop :=
  (s.readBufferMac .link ≠ 0 ∧ ∀ i, (s.btConnections i).isEmpty = true →
    (s.btConnections i).mac ≠ s.readBufferMac .link) ∨
  (s.readBufferMac .link = 0 ∧ ∀ i, (s.btConnections i).isEmpty = true)

def SensingIdle (s : State) : Prop :=
  ∀ i, sensingSlot s = some i →
    (buffer s i .sensing).ready = false ∧ s.blinkWriteResp = false

theorem linkStale_iff (inv : TableInvariant s.btConnections) :
    LinkStale s ↔ getBtConnectionUsingMac s.btConnections (s.readBufferMac .link) = none := by
  rw [lookup_mac_none_iff]
  by_cases hz : s.readBufferMac .link = 0
  · simp [LinkStale, hz, inv.occupied_iff]
  · simp only [LinkStale, hz, ne_eq, not_false_eq_true, true_and, false_and, or_false]
    constructor
    · intro gone i he
      have occupied := (inv.occupied_iff i).mpr (by rw [he]; exact hz)
      exact gone i occupied he
    · intro absent i _
      exact absent i

theorem served_sensingCalls (s : State) (c : Channel) (ret : ℤ) :
    sensingCalls (served s c ret) = if c = .sensing then served s c ret else [] := by
  unfold served
  cases servedSlot s c with
  | none => simp [sensingCalls]
  | some i =>
    by_cases ready : (buffer s i c).ready = true
    · cases c <;> simp [sensingCalls, ready, onChannel, isWriteResponse, Channel.valueHandle]
    · simp [sensingCalls, ready]

theorem writeResponse_sensingCalls (s : State) :
    sensingCalls (writeResponse s) = writeResponse s := by
  unfold writeResponse
  split <;> simp [sensingCalls, isWriteResponse]

theorem canSendNow_sensingCalls (s : State) (ret : Channel → ℤ) :
    sensingCalls (canSendNow s ret).2 = served s .sensing (ret .sensing) ++ writeResponse s := by
  have first := served_sensingCalls s .link (ret .link)
  have second := served_sensingCalls s .sensing (ret .sensing)
  have third := writeResponse_sensingCalls s
  simp only [sensingCalls] at first second third
  rw [canSendNow_calls, sensingCalls, List.filter_append, List.filter_append, first, second, third]
  simp

/-- The early return decides whether the work is done. -/
theorem sensingCalls_eq (inv : TableInvariant s.btConnections) (ret : Channel → ℤ) :
    (LinkStale s → sensingCalls (canSendNow s ret).2 = []) ∧
    (¬ LinkStale s → sensingCalls (canSendNow s ret).2 = sensingWork s (ret .sensing)) := by
  rw [canSendNow_sensingCalls, linkStale_iff inv]
  cases hl : getBtConnectionUsingMac s.btConnections (s.readBufferMac .link) with
  | none => simp [served, writeResponse, servedSlot, hl]
  | some j =>
    cases hk : getBtConnectionUsingMac s.btConnections (s.readBufferMac .sensing) with
    | none => simp [served, writeResponse, servedSlot, sensingWork, sensingSlot, hl, hk]
    | some i => simp [served, writeResponse, servedSlot, sensingWork, sensingSlot, hl, hk]

theorem SensingAgree.work (agree : SensingAgree s s') (ret : ℤ) :
    sensingWork s' ret = sensingWork s ret := by
  unfold sensingWork
  rw [agree.slot, agree.mac, agree.blink]
  cases hi : sensingSlot s with
  | none => rfl
  | some i => simp only [agree.handle i hi, agree.buffer i hi]

theorem sensingWork_nil_iff (s : State) (ret : ℤ) : sensingWork s ret = [] ↔ SensingIdle s := by
  unfold sensingWork SensingIdle
  cases sensingSlot s with
  | none => simp
  | some i => simp

/-- What is done for 06 in two states that agree on it is the same exactly when the handler
gets there in both or in neither, or has nothing to do there; and a waiting payload is sent
exactly when the address last written on 02 is in the table. -/
theorem channel_independence (h : Execution step (fun _ _ => True) initial tr s)
    (h' : Execution step (fun _ _ => True) initial tr' s') (agree : SensingAgree s s') :
    (∀ ret ret' : Channel → ℤ, ret .sensing = ret' .sensing →
      (sensingCalls (canSendNow s ret).2 = sensingCalls (canSendNow s' ret').2 ↔
        (LinkStale s ↔ LinkStale s') ∨ SensingIdle s)) ∧
    ∀ i ret, sensingSlot s = some i → (buffer s i .sensing).ready = true →
      (.notify (s.btConnections i).handle Channel.sensing.valueHandle
          (buffer s i .sensing).value (ret .sensing) ∈ (canSendNow s ret).2 ↔ ¬ LinkStale s) := by
  have inv := reachable_invariant h
  have inv' := reachable_invariant h'
  constructor
  · intro ret ret' same
    obtain ⟨stale, fresh⟩ := sensingCalls_eq inv ret
    obtain ⟨stale', fresh'⟩ := sensingCalls_eq inv' ret'
    have idle := sensingWork_nil_iff s (ret .sensing)
    rw [agree.work, ← same] at fresh'
    by_cases hs : LinkStale s <;> by_cases hs' : LinkStale s'
    · simp [stale hs, stale' hs', hs, hs']
    · simp [stale hs, fresh' hs', hs, hs', ← idle, eq_comm]
    · simp [fresh hs, stale' hs', hs, hs', ← idle]
    · simp [fresh hs, fresh' hs', hs, hs']
  · intro i ret slot ready
    obtain ⟨stale, fresh⟩ := sensingCalls_eq inv ret
    have among : ∀ value, Call.notify (s.btConnections i).handle Channel.sensing.valueHandle
        value (ret .sensing) ∈ (canSendNow s ret).2 ↔ Call.notify (s.btConnections i).handle
          Channel.sensing.valueHandle value (ret .sensing) ∈ sensingCalls (canSendNow s ret).2 := by
      intro value
      simp [sensingCalls, onChannel]
    rw [among]
    by_cases hs : LinkStale s
    · simp [stale hs, hs]
    · simp [fresh hs, hs, sensingWork, slot, ready]

/-- B connected in one run only and written to on 02 there, A's payload waiting in both. -/
theorem channel_independence_other_peer :
    ∃ tr s tr' s', run step initial [.hci (.leConnectionComplete 0 0x40 peerA),
        .hci (.leConnectionComplete 0 0x41 peerB), .writeData peerB [2] .linkRead,
        .writeData peerA [1] .sensingRead] = some (tr, s) ∧
      run step initial [.hci (.leConnectionComplete 0 0x40 peerA),
        .writeData peerA [1] .sensingRead] = some (tr', s') ∧
      sensingCalls (canSendNow s fun _ => 0).2 = sensingCalls (canSendNow s' fun _ => 0).2 ∧
      .notify 0x40 0x000d [1] 0 ∈ (canSendNow s fun _ => 0).2 := by
  have both := channel_independence
    (execution_of_run [.hci (.leConnectionComplete 0 0x40 peerA),
      .hci (.leConnectionComplete 0 0x41 peerB), .writeData peerB [2] .linkRead,
      .writeData peerA [1] .sensingRead] rfl fun _ _ => trivial)
    (execution_of_run [.hci (.leConnectionComplete 0 0x40 peerA),
      .writeData peerA [1] .sensingRead] rfl fun _ _ => trivial) ⟨rfl, by decide, ?_, ?_, rfl⟩
  · refine ⟨_, _, _, _, rfl, rfl, (both.1 _ _ rfl).mpr (Or.inl ?_), ?_⟩
    · unfold LinkStale
      decide
    · refine (both.2 0 (fun _ => 0) (by decide) (by decide)).mpr ?_
      unfold LinkStale
      decide
  · decide
  · intro i hi
    obtain rfl : i = 0 := by revert i; decide
    rfl

/-- After B, written to last on 02, has disconnected, A's payload on 06 is not sent. -/
theorem stale_link_address_stalls_sensing :
    ∃ tr s tr' s', Execution step (fun _ _ => True) initial tr s ∧
      Execution step (fun _ _ => True) initial tr' s' ∧ SensingAgree s s' ∧
      sensingCalls (canSendNow s fun _ => 0).2 = [.notify 0x40 0x000d [1] 0] ∧
      sensingCalls (canSendNow s' fun _ => 0).2 = [] := by
  refine ⟨_, _, _, _, execution_of_run [.hci (.leConnectionComplete 0 0x40 peerA),
      .hci (.leConnectionComplete 0 0x41 peerB), .writeData peerB [2] .linkRead,
      .writeData peerA [1] .sensingRead] rfl fun _ _ => trivial,
    execution_of_run [.hci (.leConnectionComplete 0 0x40 peerA),
      .hci (.leConnectionComplete 0 0x41 peerB), .writeData peerB [2] .linkRead,
      .writeData peerA [1] .sensingRead, .hci (.disconnectionComplete 0x41)] rfl
      fun _ _ => trivial, ⟨rfl, by decide, by decide, ?_, rfl⟩, by decide, by decide⟩
  intro i hi
  obtain rfl : i = 0 := by revert i; decide
  rfl

end ChannelIndependence
