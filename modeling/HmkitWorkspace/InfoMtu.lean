import HmkitWorkspace.ConnectionHistory
import HmkitWorkspace.AuxiliaryVariables

/-! # The MTU in the info characteristic

The string served on 105 is global: it reports the exchange handled last, on whichever
connection that was. -/
namespace InfoMtu

open TransitionRuns AuxiliaryVariables FixedSlots ByteBuffers HmkitCoreConnectivityHal
  ConnectionTableInvariant ReadBuffers ConnectionHistory

/-- The MTU an exchange settles on: what the core answers, or what was exchanged. -/
def effectiveMtu (mtu : UInt16) (ret : UInt32) : UInt16 := if ret = 0 then mtu else ret.toUInt16

/-- The exchanges of each connection since it was established, and all those of connections
found in the table. -/
structure Exchanges where
  own : HciConHandle → List UInt16
  handled : List UInt16

def exchangesAfter (s : State) (x : Exchanges) : Event → Exchanges
  | .hci (.leConnectionComplete status handle _) =>
    if status = 0 then { x with own := Function.update x.own handle [] } else x
  | .mtuExchangeComplete handle mtu ret =>
    { own := Function.update x.own handle (x.own handle ++ [effectiveMtu mtu ret])
      handled :=
        if (getBtConnectionUsingHandle s.btConnections handle).isSome then
          x.handled ++ [effectiveMtu mtu ret]
        else x.handled }
  | _ => x

abbrev Exchanging := Augmented State Exchanges

def exchangingStep : StepFunction Exchanging Event Call :=
  augment step fun s x e _ => exchangesAfter s x e

def Exchanging.initial : Exchanging := ⟨HmkitCoreConnectivityHal.initial, fun _ => [], []⟩

/-- The string for the last of some exchanges, zeros before the first. -/
def reportedMtu (exchanges : List UInt16) : Buffer 6 :=
  match exchanges.getLast? with
  | some mtu => convertMtuStr mtu
  | none => 0

/-- The info value of a connection that made these exchanges. -/
def ownInfo (exchanges : List UInt16) : List UInt8 :=
  overwrite infoTemplate (15 - 6) (reportedMtu exchanges).bytes

def ReadsInfo (w : Exchanging) (handle : HciConHandle) (value : List UInt8) : Prop :=
  ∀ offset size beyond,
    (attReadCallback w.state handle infoValueHandle offset true size beyond).written = value

/-- The exchange handled last reported what the connection's own last one did; a connection
that is not in the table has made none. -/
def ReportsOwn (w : Exchanging) (handle : HciConHandle) : Prop :=
  match getBtConnectionUsingHandle w.state.btConnections handle with
  | some _ => reportedMtu w.record.handled = reportedMtu (w.record.own handle)
  | none => w.record.own handle = []

/-- The events of a run with one connection. -/
def Alone (handle : HciConHandle) : Event → Prop
  | .hci (.leConnectionComplete _ hd _) => hd = handle
  | .mtuExchangeComplete hd _ _ => hd = handle
  | _ => False

variable {w w' v : Exchanging} {s u : State} {e : Event} {out : List Call}
  {handle : HciConHandle} {a b : Buffer 6} {exchanges : List UInt16}
  {tr tr' : List (Transition Exchanging Event Call)}

/-! ## The reported string -/

theorem info_inj (h : overwrite infoTemplate (15 - 6) a.bytes =
    overwrite infoTemplate (15 - 6) b.bytes) : a = b := by
  simp only [overwrite, List.append_assoc] at h
  have rest := List.append_cancel_left h
  exact Buffer.ext (List.append_inj_left rest (by rw [a.length_eq, b.length_eq]))

theorem convertMtuStr_ne_zero (mtu : UInt16) : convertMtuStr mtu ≠ 0 := by
  intro h
  have first : (convertMtuStr mtu).bytes.head? = some 0x4d := by
    unfold convertMtuStr
    dsimp only
    split <;> rfl
  rw [h] at first
  exact absurd first (by decide)

theorem reportedMtu_zero_iff : reportedMtu exchanges = 0 ↔ exchanges = [] := by
  unfold reportedMtu
  cases h : exchanges.getLast? with
  | none => simpa using h
  | some mtu =>
    have some : exchanges ≠ [] := by
      intro hnil
      simp [hnil] at h
    simp [convertMtuStr_ne_zero, some]

theorem ownInfo_nil : ownInfo [] = infoTemplate := by decide

theorem infoValue_iff (hs : w.state.gMtuStr = reportedMtu w.record.handled) :
    infoValue w.state handle = ownInfo (w.record.own handle) ↔ ReportsOwn w handle := by
  unfold infoValue ReportsOwn
  cases getBtConnectionUsingHandle w.state.btConnections handle with
  | none =>
    dsimp only
    rw [← ownInfo_nil, ← reportedMtu_zero_iff]
    constructor
    · intro h
      exact (info_inj h).symm
    · intro h
      simp [ownInfo, h, reportedMtu_zero_iff.mpr rfl]
  | some i =>
    dsimp only
    rw [hs]
    constructor
    · exact info_inj
    · intro h
      rw [ownInfo, h]

theorem readsInfo_iff {value : List UInt8} :
    ReadsInfo w handle value ↔ infoValue w.state handle = value := by
  simp [ReadsInfo, attReadCallback]

/-! ## One event -/

def gMtuStrAfter (s : State) : Event → Buffer 6
  | .mtuExchangeComplete handle mtu ret =>
    if (getBtConnectionUsingHandle s.btConnections handle).isSome then
      convertMtuStr (effectiveMtu mtu ret)
    else s.gMtuStr
  | _ => s.gMtuStr

theorem notifyIfReady_gMtuStr (s : State) (i : Slot) (ch : Channel) (ret : ℤ) :
    (notifyIfReady s i ch ret).1.gMtuStr = s.gMtuStr := by
  simp only [notifyIfReady]
  split <;> rfl

theorem canSendNow_gMtuStr (s : State) (ret : Channel → ℤ) :
    (canSendNow s ret).1.gMtuStr = s.gMtuStr := by
  unfold canSendNow
  split
  · rfl
  · dsimp only
    split
    · rw [notifyIfReady_gMtuStr]
    · split <;> simp [notifyIfReady_gMtuStr]

theorem hciPacketHandler_gMtuStr (s : State) (p : HciPacket) :
    (hciPacketHandler s p).1.gMtuStr = s.gMtuStr := by
  unfold hciPacketHandler
  split
  · dsimp only
    split
    · rfl
    · split <;> rfl
  · split <;> rfl
  · rfl

theorem attReadCallback_gMtuStr (s : State) (conHandle : HciConHandle) (attHandle : UInt16)
    (offset : ℕ) (valid : Bool) (bufferSize : ℕ) (beyond : ℕ → UInt8) :
    (attReadCallback s conHandle attHandle offset valid bufferSize beyond).state.gMtuStr =
      s.gMtuStr := by
  simp only [attReadCallback]
  repeat' split
  all_goals rfl

theorem step_gMtuStr (hs : step s e = some (u, out)) : u.gMtuStr = gMtuStrAfter s e := by
  cases e with
  | hci p =>
    obtain ⟨rfl, _⟩ := total_step hs
    exact hciPacketHandler_gMtuStr s p
  | disconnect mac =>
    obtain ⟨hu, _⟩ := total_step hs
    rw [← hu, disconnect_state]
    rfl
  | writeData mac data characteristic =>
    have hw := (writeData_eq s mac data characteristic).symm.trans hs
    cases ht : writeTarget s mac characteristic with
    | none =>
      rw [ht] at hw
      obtain ⟨rfl, _⟩ := total_step hw
      rfl
    | some target =>
      rw [ht] at hw
      simp only [storePayload, Option.map_eq_some_iff, Prod.mk.injEq] at hw
      obtain ⟨_, _, rfl, _⟩ := hw
      rfl
  | attRead conHandle attHandle offset valid bufferSize beyond =>
    obtain ⟨rfl, _⟩ := total_step hs
    exact attReadCallback_gMtuStr s conHandle attHandle offset valid bufferSize beyond
  | canSendNow ret =>
    obtain ⟨rfl, _⟩ := total_step hs
    exact canSendNow_gMtuStr s ret
  | mtuExchangeComplete handle mtu ret =>
    obtain ⟨rfl, _⟩ := total_step hs
    simp only [mtuExchangeComplete, gMtuStrAfter]
    cases getBtConnectionUsingHandle s.btConnections handle with
    | none => rfl
    | some i => rfl
  | _ =>
    obtain ⟨rfl, _⟩ := total_step hs
    rfl

theorem reported_step (h : w.state.gMtuStr = reportedMtu w.record.handled)
    (hs : exchangingStep w e = some (v, out)) :
    v.state.gMtuStr = reportedMtu v.record.handled := by
  obtain ⟨hal, record⟩ := augment_step hs
  rw [step_gMtuStr hal, record]
  cases e with
  | mtuExchangeComplete handle mtu ret =>
    simp only [gMtuStrAfter, exchangesAfter]
    cases getBtConnectionUsingHandle w.state.btConnections handle with
    | none => simpa using h
    | some i => simp [reportedMtu]
  | hci p =>
    cases p with
    | leConnectionComplete status hd address =>
      simp only [gMtuStrAfter, exchangesAfter]
      split <;> exact h
    | _ => exact h
  | _ => exact h

/-- The global string is that of the exchange handled last. -/
theorem reported_run {G : Exchanging → Event → Prop}
    (h : Execution exchangingStep G Exchanging.initial tr w) :
    w.state.gMtuStr = reportedMtu w.record.handled :=
  h.invariant (fun w => w.state.gMtuStr = reportedMtu w.record.handled) rfl
    fun before _ hs => reported_step before hs

/-! ## One connection -/

/-- A connection that is alone can make any exchanges, and reads its own last one. -/
theorem alone_reads (handle : HciConHandle) (exchanges : List UInt16) :
    ∃ tr w, Execution exchangingStep (fun _ e => Alone handle e) Exchanging.initial tr w ∧
      w.record.own handle = exchanges ∧ ReadsInfo w handle (ownInfo exchanges) := by
  have whole : ∃ tr w,
      Execution exchangingStep (fun _ e => Alone handle e) Exchanging.initial tr w ∧
      (∃ i, getBtConnectionUsingHandle w.state.btConnections handle = some i) ∧
      w.record.own handle = exchanges ∧ w.record.handled = exchanges := by
    induction exchanges using List.reverseRecOn with
    | nil =>
      have first : slotFor HmkitCoreConnectivityHal.initial.btConnections peerA = some 0 := by
        decide
      have complete := complete_eq ConnectionTableInvariant.initial_invariant
        (show peerA ≠ 0 by decide) handle
      rw [first] at complete
      have own : Alone handle (.hci (.leConnectionComplete 0 handle peerA)) := rfl
      refine ⟨_, _, Execution.init.tail own rfl, ?_, ?_, rfl⟩
      · apply Option.isSome_iff_exists.mp
        change (getBtConnectionUsingHandle (hciPacketHandler HmkitCoreConnectivityHal.initial
          (.leConnectionComplete 0 handle peerA)).1.btConnections handle).isSome
        rw [complete]
        exact findSlot_isSome_iff.mpr ⟨0, by simp⟩
      · simp [exchangesAfter]
    | append_singleton earlier mtu ih =>
      obtain ⟨tr, w, hx, ⟨i, found⟩, own, handled⟩ := ih
      have same : Alone handle (.mtuExchangeComplete handle mtu 0) := rfl
      refine ⟨_, _, hx.tail same rfl, ⟨i, ?_⟩, ?_, ?_⟩
      · simpa [mtuExchangeComplete_btConnections] using found
      · simp [exchangesAfter, own, effectiveMtu]
      · simp [exchangesAfter, handled, found, effectiveMtu]
  obtain ⟨tr, w, hx, ⟨i, found⟩, own, handled⟩ := whole
  refine ⟨tr, w, hx, own, readsInfo_iff.mpr ?_⟩
  rw [← own]
  refine (infoValue_iff (reported_run hx)).mpr ?_
  simp [ReportsOwn, found, own, handled]

/-- A connection reads what it would read alone exactly when the exchange handled last
reported what its own last one did; two histories with the same own exchanges then agree. -/
theorem info_mtu (h : Execution exchangingStep (fun _ _ => True) Exchanging.initial tr w)
    (h' : Execution exchangingStep (fun _ _ => True) Exchanging.initial tr' w') :
    (∀ handle, (∃ trₐ wₐ,
        Execution exchangingStep (fun _ e => Alone handle e) Exchanging.initial trₐ wₐ ∧
        wₐ.record.own handle = w.record.own handle ∧
        ReadsInfo wₐ handle (ownInfo (w.record.own handle))) ∧
      (ReadsInfo w handle (ownInfo (w.record.own handle)) ↔ ReportsOwn w handle)) ∧
    ∀ handle handle' value value', w.record.own handle = w'.record.own handle' →
      ReportsOwn w handle → ReportsOwn w' handle' → ReadsInfo w handle value →
      ReadsInfo w' handle' value' → value = value' := by
  have reported := reported_run h
  have reported' := reported_run h'
  constructor
  · intro handle
    exact ⟨alone_reads handle _, readsInfo_iff.trans (infoValue_iff reported)⟩
  · intro handle handle' value value' agree own own' reads reads'
    rw [readsInfo_iff] at reads reads'
    rw [← reads, ← reads', (infoValue_iff reported).mpr own, (infoValue_iff reported').mpr own',
      agree]

theorem info_mtu_one_peer :
    ∃ tr w, run exchangingStep Exchanging.initial [.hci (.leConnectionComplete 0 0x40 peerA),
        .mtuExchangeComplete 0x40 100 0] = some (tr, w) ∧
      ReadsInfo w 0x40 [0x50, 0x79, 0x53, 0x64, 0x6b, 0, 0, 0, 0, 0x4d, 0x54, 0x55, 0x31, 0x30,
        0x30, 0] := by
  refine ⟨_, _, rfl, ((info_mtu (execution_of_run [.hci (.leConnectionComplete 0 0x40 peerA),
      .mtuExchangeComplete 0x40 100 0] rfl fun _ _ => trivial) .init).1 0x40).2.mpr ?_⟩
  rfl

/-- An exchange of B changes what A reads, though A's own exchanges are the same. -/
theorem other_exchange_changes_info :
    ∃ tr w tr' w', Execution exchangingStep (fun _ _ => True) Exchanging.initial tr w ∧
      Execution exchangingStep (fun _ _ => True) Exchanging.initial tr' w' ∧
      w.record.own 0x40 = [100] ∧ w'.record.own 0x40 = [100] ∧
      infoValue w.state 0x40 = ownInfo [100] ∧ infoValue w'.state 0x40 = ownInfo [23] ∧
      ¬ ReadsInfo w' 0x40 (ownInfo (w'.record.own 0x40)) := by
  refine ⟨_, _, _, _, execution_of_run [.hci (.leConnectionComplete 0 0x40 peerA),
      .hci (.leConnectionComplete 0 0x41 peerB), .mtuExchangeComplete 0x40 100 0] rfl
      fun _ _ => trivial,
    execution_of_run [.hci (.leConnectionComplete 0 0x40 peerA),
      .hci (.leConnectionComplete 0 0x41 peerB), .mtuExchangeComplete 0x40 100 0,
      .mtuExchangeComplete 0x41 23 0] rfl fun _ _ => trivial, rfl, rfl, by decide, by decide, ?_⟩
  intro reads
  exact absurd (reads 0 0 0) (by decide)

end InfoMtu
