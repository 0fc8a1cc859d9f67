import HmkitWorkspace.HalFootprints

/-! # Which events of the connectivity HAL influence which

Results about whole runs from the handlers' footprints: what the order of events decides, and
what the traffic of one notifying characteristic leaves alone of the other one. The reads of
these runs stay inside the arrays, and what lies behind the arrays may differ between two runs. -/
namespace EventOrder

open TransitionRuns Footprints HmkitCoreConnectivityHal ConnectionTableInvariant ReadBuffers
  HalFootprints

variable {s s' u v : State} {es es' : List Event} {e : Event} {ch : Channel}
  {tr tr' : List (Transition State Event Observation)}

/-- Neither event writes what the other one reads or writes. -/
def IndependentEvents (a b : Event) : Prop := Independent (footprint a) (footprint b)

theorem independent_symm (a b : Event) (h : IndependentEvents a b) : IndependentEvents b a :=
  h.symm

open Classical in
/-- In whatever order the same events arrive, as long as every two dependent ones arrive in the
same order, the HAL ends in the same state and answers each event in the same way. -/
theorem reordered_runs (perm : (es.map erased).Perm (es'.map erased))
    (order : ∀ a b, ¬ IndependentEvents a b →
      projection a b (es.map erased) = projection a b (es'.map erased))
    (h : run observeInside s es = some (tr, u)) :
    ∃ tr', run observeInside s es' = some (tr', u) ∧
      (tr.map (seenAs erased)).Perm (tr'.map (seenAs erased)) := by
  have reordered := reordered_of_projections independent_symm perm order
  obtain ⟨tr', u', h', alike, same⟩ :=
    observeInside_blind.run_reordered hasFootprint reordered h
  obtain rfl := components_extensional u u' alike
  exact ⟨tr', h', same⟩

/-- A read of 102 and a write to 106 are independent, whoever they are for. -/
theorem read_write_independent (handle : HciConHandle) (offset bufferSize : ℕ)
    (beyond : ℕ → UInt8) (mac : Mac) (data : List UInt8) :
    IndependentEvents (.attRead handle 0x0003 offset true bufferSize beyond)
      (.writeData mac data .sensingRead) := by
  constructor <;> rw [Set.disjoint_left]
  · simp [footprint, writtenBy, channelOf, Channel.valueHandle]
  · rintro x (rfl | ⟨info, _⟩ | ⟨ch, hch, rfl⟩)
    · simp [footprint, writtenBy]
    · cases info
    · cases ch with
      | link => simp [footprint, writtenBy, channelOf]
      | sensing => cases hch
  · simp [footprint, Channel.valueHandle]

def readThenWrite : List Event :=
  [.hci (.leConnectionComplete 0 0x40 peerA), .attRead 0x40 0x0003 0 true 2 0,
    .writeData peerA [2] .sensingRead]

/-- The same events in another order, with other bytes behind the array. -/
def writeThenRead : List Event :=
  [.hci (.leConnectionComplete 0 0x40 peerA), .writeData peerA [2] .sensingRead,
    .attRead 0x40 0x0003 0 true 2 fun _ => 7]

theorem reordered_runs_read_and_write :
    ∃ tr tr' u, run observeInside initial readThenWrite = some (tr, u) ∧
      run observeInside initial writeThenRead = some (tr', u) ∧
      (tr.map (seenAs erased)).Perm (tr'.map (seenAs erased)) := by
  classical
  have exchanged : Reordered IndependentEvents (readThenWrite.map erased)
      (writeThenRead.map erased) :=
    .swap [Event.hci (.leConnectionComplete 0 0x40 peerA)] [] _ _
      (read_write_independent 0x40 0 2 0 peerA [2])
  obtain ⟨perm, order⟩ := exchanged.projections independent_symm
  obtain ⟨tr', h, same⟩ := reordered_runs perm order (show run _ initial _ = some (_, _) from rfl)
  exact ⟨_, tr', _, rfl, h, same⟩

/-! ## The traffic of 02 -/

/-- All events but writes to 106, reads of 105 and 106, and MTU exchanges. -/
def linkEvent : Event → Bool
  | .writeData _ _ characteristic => characteristic != .sensingRead
  | .attRead _ attHandle _ _ _ _ =>
    attHandle != Channel.sensing.valueHandle && attHandle != infoValueHandle
  | .mtuExchangeComplete .. => false
  | _ => true

def readPart (ch : Channel) : Set Component := {.header, .payload ch}

/-- Connection events, requests from the core, writes to the channel, and reads of its value. -/
def readEvent (ch : Channel) : Event → Bool
  | .writeData _ _ characteristic => channelOf characteristic == some ch
  | .attRead _ attHandle _ _ _ _ => attHandle == ch.valueHandle
  | .canSendNow _ => false
  | .mtuExchangeComplete .. => false
  | _ => true

theorem valueHandle_inj {c d : Channel} (h : c.valueHandle = d.valueHandle) : c = d := by
  cases c <;> cases d <;> simp_all [Channel.valueHandle]

theorem readEvent_localOn (h : readEvent ch e = true) :
    LocalOn components observeInside (readPart ch) e := by
  have header : Component.header ∈ readPart ch := Or.inl rfl
  apply (hasFootprint e).localOn
  cases e with
  | attRead conHandle attHandle offset valid bufferSize beyond =>
    obtain rfl : attHandle = ch.valueHandle := by simpa [readEvent] using h
    rintro x (rfl | ⟨info, _⟩ | ⟨c, hc, rfl⟩)
    · exact header
    · cases ch <;> cases info
    · rw [valueHandle_inj hc]
      exact Or.inr rfl
  | canSendNow ret => cases h
  | mtuExchangeComplete handle mtu ret => cases h
  | _ =>
    rintro x rfl
    exact header

theorem otherEvent_invisibleOn (h : readEvent ch e = false) :
    InvisibleOn components observeInside (readPart ch) e := by
  apply (hasFootprint e).invisibleOn
  rw [Set.disjoint_left]
  cases e with
  | writeData mac data characteristic =>
    have other : channelOf characteristic ≠ some ch := by simpa [readEvent] using h
    rintro x ⟨c, hc, rfl | rfl | rfl⟩
    · have hne : c ≠ ch := fun he => other (he ▸ hc)
      simp [readPart, hne]
    · simp [readPart]
    · simp [readPart]
  | attRead conHandle attHandle offset valid bufferSize beyond =>
    rintro x ⟨_, _, rfl⟩
    simp [readPart]
  | canSendNow ret =>
    rintro x (rfl | ⟨c, rfl⟩) <;> simp [readPart]
  | mtuExchangeComplete handle mtu ret => simp [footprint, readPart]
  | _ => cases h

theorem erased_readEvent (e : Event) : readEvent ch (erased e) = readEvent ch e := by
  cases e <;> rfl

/-- What a peer is served on a channel is decided by the connection events and the writes to
that channel: notifications, their failures, write responses, MTU exchanges and the other
channel make no difference. -/
theorem read_noninterference (agree : Agree components (readPart ch) s s')
    (same : (es.filter (readEvent ch)).map erased = (es'.filter (readEvent ch)).map erased)
    (h : run observeInside s es = some (tr, u)) (h' : run observeInside s' es' = some (tr', v)) :
    Agree components (readPart ch) u v ∧
      (tr.filter fun t => readEvent ch t.event).map (seenAs erased) =
        (tr'.filter fun t => readEvent ch t.event).map (seenAs erased) :=
  observeInside_blind.run_noninterference erased_readEvent (fun _ => readEvent_localOn)
    (fun _ => otherEvent_invisibleOn) agree same h h'

/-- With a notification sent before the read, and with other bytes behind the array. -/
theorem read_noninterference_sent_and_unsent :
    ∃ tr tr' u v,
      run observeInside initial [.hci (.leConnectionComplete 0 0x40 peerA),
        .writeData peerA [1] .sensingRead, .canSendNow fun _ => 0,
        .attRead 0x40 0x000d 0 true 1 0] = some (tr, u) ∧
      run observeInside initial [.hci (.leConnectionComplete 0 0x40 peerA),
        .writeData peerA [1] .sensingRead,
        .attRead 0x40 0x000d 0 true 1 fun _ => 7] = some (tr', v) ∧
      (tr.filter fun t => readEvent .sensing t.event).map (seenAs erased) =
        (tr'.filter fun t => readEvent .sensing t.event).map (seenAs erased) := by
  have h : run observeInside initial [.hci (.leConnectionComplete 0 0x40 peerA),
    .writeData peerA [1] .sensingRead, .canSendNow fun _ => 0,
    .attRead 0x40 0x000d 0 true 1 0] = some (_, _) := rfl
  have h' : run observeInside initial [.hci (.leConnectionComplete 0 0x40 peerA),
    .writeData peerA [1] .sensingRead, .attRead 0x40 0x000d 0 true 1 fun _ => 7] =
      some (_, _) := rfl
  exact ⟨_, _, _, _, h, h', (read_noninterference (fun _ _ => rfl) (by rfl) h h').2⟩

end EventOrder
