import HmkitWorkspace.RelationalRuns
import HmkitWorkspace.HalFootprints

/-! # Addresses and handles are names, payload bytes are opaque

The connectivity HAL compares addresses and handles with each other and with zero, and copies
payload bytes without looking at them. Renaming the former and replacing the latter gives
renamed calls and reads, event by event, as long as the reads stay inside the arrays: behind
these a read serves handles and addresses as bytes. -/
namespace HalParametricity

open TransitionRuns RelationalRuns FixedSlots ByteBuffers HmkitCoreConnectivityHal
  ConnectionTableInvariant ReadBuffers HalFootprints

/-- Zero is a special address, a special handle, and the byte that memory starts with. -/
structure Renaming where
  mac : Mac → Mac
  mac_injective : Function.Injective mac
  mac_zero : mac 0 = 0
  handle : HciConHandle → HciConHandle
  handle_injective : Function.Injective handle
  handle_zero : handle 0 = 0
  byte : UInt8 → UInt8 → Prop
  byte_zero : byte 0 0

variable (r : Renaming)

abbrev Renaming.Bytes : List UInt8 → List UInt8 → Prop := List.Forall₂ r.byte

structure BufferRel (b b' : ReadBuffer) : Prop where
  data : r.Bytes b.data.bytes b'.data.bytes
  size : b'.size = b.size
  ready : b'.ready = b.ready

structure SlotRel (c c' : BtConnection) : Prop where
  handle : c'.handle = r.handle c.handle
  mac : c'.mac = r.mac c.mac
  characters : c'.characters = c.characters
  isEmpty : c'.isEmpty = c.isEmpty
  readBuffer : ∀ ch, BufferRel r (c.readBuffer ch) (c'.readBuffer ch)

def TableRel (t t' : BtConnections) : Prop := ∀ i, SlotRel r (t i) (t' i)

structure StateRel (s s' : State) : Prop where
  table : TableRel r s.btConnections s'.btConnections
  blinkWriteResp : s'.blinkWriteResp = s.blinkWriteResp
  readBufferMac : ∀ ch, s'.readBufferMac ch = r.mac (s.readBufferMac ch)
  gMtu : s'.gMtu = s.gMtu
  gMtuStr : s'.gMtuStr = s.gMtuStr

inductive EventRel : Event → Event → Prop where
  | complete (status : UInt8) (handle : HciConHandle) (mac : Mac) :
      EventRel (.hci (.leConnectionComplete status handle mac))
        (.hci (.leConnectionComplete status (r.handle handle) (r.mac mac)))
  | released (handle : HciConHandle) :
      EventRel (.hci (.disconnectionComplete handle))
        (.hci (.disconnectionComplete (r.handle handle)))
  | other : EventRel (.hci .other) (.hci .other)
  | connect (mac : Mac) (macType ret : UInt8) :
      EventRel (.connect mac macType ret) (.connect (r.mac mac) macType ret)
  | disconnect (mac : Mac) : EventRel (.disconnect mac) (.disconnect (r.mac mac))
  | writeData (mac : Mac) {data data' : List UInt8} (bytes : r.Bytes data data')
      (characteristic : Characteristic) :
      EventRel (.writeData mac data characteristic) (.writeData (r.mac mac) data' characteristic)
  | attRead (handle : HciConHandle) (attHandle : UInt16) (offset : ℕ) (valid : Bool)
      (bufferSize : ℕ) (beyond beyond' : ℕ → UInt8) :
      EventRel (.attRead handle attHandle offset valid bufferSize beyond)
        (.attRead (r.handle handle) attHandle offset valid bufferSize beyond')
  | attWrite (handle : HciConHandle) (attHandle : UInt16) {data data' : List UInt8}
      (bytes : r.Bytes data data') :
      EventRel (.attWrite handle attHandle data) (.attWrite (r.handle handle) attHandle data')
  | canSendNow (ret : Channel → ℤ) : EventRel (.canSendNow ret) (.canSendNow ret)
  | mtuExchangeComplete (handle : HciConHandle) (mtu : UInt16) (ret : UInt32) :
      EventRel (.mtuExchangeComplete handle mtu ret)
        (.mtuExchangeComplete (r.handle handle) mtu ret)

inductive CallRel : Call → Call → Prop where
  | linkConnect (mac : Mac) : CallRel (.linkConnect mac) (.linkConnect (r.mac mac))
  | linkDisconnect (mac : Mac) : CallRel (.linkDisconnect mac) (.linkDisconnect (r.mac mac))
  | linkIncomingData {data data' : List UInt8} (bytes : r.Bytes data data') (mac : Mac)
      (characteristic : Characteristic) :
      CallRel (.linkIncomingData data mac characteristic)
        (.linkIncomingData data' (r.mac mac) characteristic)
  | linkWriteResponse (mac : Mac) (characteristic : Characteristic) :
      CallRel (.linkWriteResponse mac characteristic)
        (.linkWriteResponse (r.mac mac) characteristic)
  | setMtu (mac : Mac) (mtu : UInt16) (ret : UInt32) :
      CallRel (.setMtu mac mtu ret) (.setMtu (r.mac mac) mtu ret)
  | requestCanSendNow (handle : HciConHandle) :
      CallRel (.requestCanSendNow handle) (.requestCanSendNow (r.handle handle))
  | notify (handle : HciConHandle) (attHandle : UInt16) {value value' : List UInt8}
      (bytes : r.Bytes value value') (ret : ℤ) :
      CallRel (.notify handle attHandle value ret) (.notify (r.handle handle) attHandle value' ret)
  | gapConnect (mac : Mac) (macType ret : UInt8) :
      CallRel (.gapConnect mac macType ret) (.gapConnect (r.mac mac) macType ret)
  | gapDisconnect (handle : HciConHandle) :
      CallRel (.gapDisconnect handle) (.gapDisconnect (r.handle handle))

/-- Reads of the info value show no payload: they are the same byte for byte. -/
inductive ObservationRel : Observation → Observation → Prop where
  | call {c c' : Call} (h : CallRel r c c') : ObservationRel (.call c) (.call c')
  | info (ret : ℕ) (bytes : List UInt8) :
      ObservationRel (.read infoValueHandle ret bytes) (.read infoValueHandle ret bytes)
  | value {attHandle : UInt16} (other : attHandle ≠ infoValueHandle) (ret : ℕ)
      {bytes bytes' : List UInt8} (h : r.Bytes bytes bytes') :
      ObservationRel (.read attHandle ret bytes) (.read attHandle ret bytes')

variable {r} {t t' : BtConnections} {s s' u : State} {i : Slot} {ch : Channel}
  {b b' : ReadBuffer} {n : ℕ}

/-! ## Byte arrays -/

theorem bytes_zero (n : ℕ) : r.Bytes (0 : Buffer n).bytes (0 : Buffer n).bytes := by
  change r.Bytes (List.replicate n 0) (List.replicate n 0)
  apply List.forall₂_same.mpr
  intro x hx
  rw [List.eq_of_mem_replicate hx]
  exact r.byte_zero

theorem memcpy_related {a a' : Buffer n} {src src' : List UInt8} (h : r.Bytes a.bytes a'.bytes)
    (hs : r.Bytes src src') :
    Option.Rel (fun b b' => r.Bytes b.bytes b'.bytes) (a.memcpy src) (a'.memcpy src') := by
  have length := hs.length_eq
  by_cases fits : src.length ≤ n
  · have fits' : src'.length ≤ n := length ▸ fits
    simp only [Buffer.memcpy, fits, fits', dite_true]
    apply Option.Rel.some
    exact List.rel_append hs (length ▸ List.forall₂_drop _ h)
  · have fits' : ¬ src'.length ≤ n := length ▸ fits
    simp only [Buffer.memcpy, fits, fits', dite_false]
    exact .none

theorem copyOut_related {a a' : Buffer n} (h : r.Bytes a.bytes a'.bytes) {offset count : ℕ}
    (fits : offset + count ≤ n) (beyond beyond' : ℕ → UInt8) :
    r.Bytes (a.copyOut beyond offset count) (a'.copyOut beyond' offset count) := by
  rw [Buffer.copyOut_inside beyond fits, Buffer.copyOut_inside beyond' fits]
  exact List.forall₂_take _ (List.forall₂_drop _ h)

theorem BufferRel.value (h : BufferRel r b b') : r.Bytes b.value b'.value := by
  rw [ReadBuffer.value, ReadBuffer.value, h.size]
  exact List.forall₂_take _ h.data

/-! ## The table -/

section Table

variable (h : TableRel r t t')
include h

theorem lookup_handle_related (handle : HciConHandle) :
    getBtConnectionUsingHandle t' (r.handle handle) = getBtConnectionUsingHandle t handle := by
  apply findSlot_congr
  intro i
  rw [(h i).handle]
  by_cases same : (t i).handle = handle
  · simp [same]
  · simp [same, r.handle_injective.eq_iff]

theorem lookup_mac_related (mac : Mac) :
    getBtConnectionUsingMac t' (r.mac mac) = getBtConnectionUsingMac t mac := by
  apply findSlot_congr
  intro i
  rw [(h i).mac]
  by_cases same : (t i).mac = mac
  · simp [same]
  · simp [same, r.mac_injective.eq_iff]

theorem firstFreeSlot_related : firstFreeSlot t' = firstFreeSlot t :=
  findSlot_congr fun i => by rw [(h i).isEmpty]

theorem update_related {c c' : BtConnection} (hc : SlotRel r c c') (i : Slot) :
    TableRel r (Function.update t i c) (Function.update t' i c') := by
  intro j
  by_cases hj : j = i
  · subst j
    simpa using hc
  · simpa [hj] using h j

theorem create_related (mac : Mac) :
    TableRel r (createBtConnection t mac) (createBtConnection t' (r.mac mac)) := by
  have lookup := lookup_mac_related h mac
  cases hl : getBtConnectionUsingMac t mac with
  | some i =>
    rw [createBtConnection_of_present hl, createBtConnection_of_present (lookup.trans hl)]
    exact h
  | none =>
    rw [createBtConnection_of_absent hl, createBtConnection_of_absent (lookup.trans hl),
      firstFreeSlot_related h]
    cases firstFreeSlot t with
    | none => exact h
    | some i =>
      apply update_related h
      exact ⟨(h i).handle, rfl, (h i).characters, rfl, (h i).readBuffer⟩

theorem delete_related (i : Slot) :
    TableRel r (deleteBtConnection t (.slot i)) (deleteBtConnection t' (.slot i)) := by
  intro j
  rw [deleteBtConnection_slot, deleteBtConnection_slot]
  have pointer : (if j ≤ i then (t' i).mac else 0) = r.mac (if j ≤ i then (t i).mac else 0) := by
    by_cases hj : j ≤ i
    · rw [if_pos hj, if_pos hj, (h i).mac]
    · rw [if_neg hj, if_neg hj, r.mac_zero]
  dsimp only
  rw [pointer, (h j).mac]
  by_cases cleared : (t j).mac = if j ≤ i then (t i).mac else 0
  · rw [if_pos cleared, if_pos (congrArg r.mac cleared)]
    exact ⟨r.handle_zero.symm, r.mac_zero.symm, rfl, rfl, (h j).readBuffer⟩
  · rw [if_neg cleared, if_neg fun he => cleared (r.mac_injective he)]
    exact h j

end Table

/-! ## The handlers -/

abbrev HalResults (r : Renaming) : State × List Call → State × List Call → Prop :=
  Results (StateRel r) (CallRel r)

theorem one_call {c c' : Call} (h : CallRel r c c') : List.Forall₂ (CallRel r) [c] [c'] :=
  .cons h .nil

section Handlers

variable (h : StateRel r s s')
include h

theorem StateRel.withTable (ht : TableRel r t t') :
    StateRel r { s with btConnections := t } { s' with btConnections := t' } :=
  ⟨ht, h.blinkWriteResp, h.readBufferMac, h.gMtu, h.gMtuStr⟩

theorem hciPacketHandler_complete (status : UInt8) (handle : HciConHandle) (mac : Mac) :
    HalResults r (hciPacketHandler s (.leConnectionComplete status handle mac))
      (hciPacketHandler s' (.leConnectionComplete status (r.handle handle) (r.mac mac))) := by
  by_cases hst : status = 0
  · have created := create_related h.table mac
    have lookup := lookup_mac_related created mac
    simp only [hciPacketHandler, hst, ne_eq, not_true_eq_false, if_false, lookup]
    cases getBtConnectionUsingMac (createBtConnection s.btConnections mac) mac with
    | none => exact ⟨h.withTable created, .nil⟩
    | some i =>
      refine ⟨h.withTable (update_related created ?_ i), one_call (.linkConnect mac)⟩
      have hi := created i
      exact ⟨rfl, hi.mac, hi.characters, hi.isEmpty, hi.readBuffer⟩
  · simp only [hciPacketHandler, hst, ne_eq, not_false_eq_true, if_true]
    exact ⟨h, .nil⟩

theorem hciPacketHandler_released (handle : HciConHandle) :
    HalResults r (hciPacketHandler s (.disconnectionComplete handle))
      (hciPacketHandler s' (.disconnectionComplete (r.handle handle))) := by
  simp only [hciPacketHandler, lookup_handle_related h.table]
  cases getBtConnectionUsingHandle s.btConnections handle with
  | none => exact ⟨h, .nil⟩
  | some i =>
    dsimp only
    rw [(h.table i).mac]
    exact ⟨h.withTable (delete_related h.table i), one_call (.linkDisconnect _)⟩

theorem disconnect_related (mac : Mac) :
    HalResults r (disconnect s mac) (disconnect s' (r.mac mac)) := by
  simp only [HmkitCoreConnectivityHal.disconnect, lookup_mac_related h.table]
  cases getBtConnectionUsingMac s.btConnections mac with
  | none => exact ⟨h, .nil⟩
  | some i =>
    dsimp only
    rw [(h.table i).handle]
    exact ⟨h, one_call (.gapDisconnect _)⟩

theorem setReadBuffer_related (hb : BufferRel r b b') (i : Slot) (ch : Channel) :
    StateRel r (s.setReadBuffer i ch b) (s'.setReadBuffer i ch b') := by
  refine h.withTable (update_related h.table ?_ i)
  have hi := h.table i
  refine ⟨hi.handle, hi.mac, hi.characters, hi.isEmpty, ?_⟩
  intro c
  by_cases hc : c = ch
  · subst c
    simpa using hb
  · simpa [hc] using hi.readBuffer c

theorem storePayload_related {data data' : List UInt8} (bytes : r.Bytes data data') (i : Slot)
    (mac : Mac) (ch : Channel) :
    Option.Rel (HalResults r) (storePayload s i mac data ch)
      (storePayload s' i (r.mac mac) data' ch) := by
  have copied := memcpy_related ((h.table i).readBuffer ch).data bytes
  simp only [storePayload]
  generalize ((s.btConnections i).readBuffer ch).data.memcpy data = stored at copied
  generalize ((s'.btConnections i).readBuffer ch).data.memcpy data' = stored' at copied
  cases copied with
  | none => exact .none
  | @some stored stored' same =>
    simp only [Option.map_some, Option.rel_some_some, bytes.length_eq.symm, (h.table i).handle]
    have next : BufferRel r ⟨stored, data.length, true⟩ ⟨stored', data.length, true⟩ :=
      ⟨same, rfl, rfl⟩
    refine ⟨{ setReadBuffer_related h next i ch with readBufferMac := ?_ },
      one_call (.requestCanSendNow _)⟩
    intro c
    by_cases hc : c = ch
    · subst c
      simp
    · simpa [hc] using h.readBufferMac c

theorem writeTarget_related (mac : Mac) (characteristic : Characteristic) :
    writeTarget s' (r.mac mac) characteristic = writeTarget s mac characteristic := by
  rw [writeTarget, writeTarget, lookup_mac_related h.table]

theorem writeData_related {data data' : List UInt8} (bytes : r.Bytes data data') (mac : Mac)
    (characteristic : Characteristic) :
    Option.Rel (HalResults r) (writeData s mac data characteristic)
      (writeData s' (r.mac mac) data' characteristic) := by
  rw [writeData_eq, writeData_eq, writeTarget_related h]
  cases writeTarget s mac characteristic with
  | none => exact .some ⟨h, .nil⟩
  | some target => exact storePayload_related h bytes target.1 mac target.2

theorem attWriteCallback_related {data data' : List UInt8} (bytes : r.Bytes data data')
    (handle : HciConHandle) (attHandle : UInt16) :
    List.Forall₂ (CallRel r) (attWriteCallback s handle attHandle data)
      (attWriteCallback s' (r.handle handle) attHandle data') := by
  simp only [attWriteCallback, lookup_handle_related h.table]
  cases getBtConnectionUsingHandle s.btConnections handle with
  | none => exact .nil
  | some i =>
    dsimp only
    rw [(h.table i).mac]
    apply List.rel_append
    · split
      · exact one_call (.linkIncomingData bytes _ _)
      · exact .nil
    · split
      · exact one_call (.linkIncomingData bytes _ _)
      · exact .nil

theorem mtuExchangeComplete_related (handle : HciConHandle) (mtu : UInt16) (ret : UInt32) :
    HalResults r (mtuExchangeComplete s handle mtu ret)
      (mtuExchangeComplete s' (r.handle handle) mtu ret) := by
  simp only [mtuExchangeComplete, lookup_handle_related h.table]
  cases getBtConnectionUsingHandle s.btConnections handle with
  | none => exact ⟨h, .nil⟩
  | some i =>
    dsimp only
    rw [(h.table i).mac]
    exact ⟨{ h with gMtu := rfl, gMtuStr := rfl }, one_call (.setMtu _ _ _)⟩

theorem notifyIfReady_related (i : Slot) (ch : Channel) (ret : ℤ) :
    HalResults r (notifyIfReady s i ch ret) (notifyIfReady s' i ch ret) := by
  have hb := (h.table i).readBuffer ch
  simp only [notifyIfReady, hb.ready]
  by_cases ready : ((s.btConnections i).readBuffer ch).ready = true
  · simp only [ready, if_true, (h.table i).handle]
    have sent : BufferRel r { (s.btConnections i).readBuffer ch with ready := false }
        { (s'.btConnections i).readBuffer ch with ready := false } := ⟨hb.data, hb.size, rfl⟩
    have next := setReadBuffer_related h sent i ch
    exact ⟨next, one_call (.notify _ _ hb.value ret)⟩
  · simp only [ready]
    exact ⟨h, .nil⟩

theorem canSendNow_related (ret : Channel → ℤ) :
    HalResults r (canSendNow s ret) (canSendNow s' ret) := by
  unfold canSendNow
  rw [h.readBufferMac, lookup_mac_related h.table]
  cases getBtConnectionUsingMac s.btConnections (s.readBufferMac .link) with
  | none => exact ⟨h, .nil⟩
  | some i =>
    obtain ⟨first, calls⟩ := notifyIfReady_related h i .link (ret .link)
    dsimp only
    rw [first.readBufferMac, lookup_mac_related first.table]
    cases getBtConnectionUsingMac (notifyIfReady s i .link (ret .link)).1.btConnections
        ((notifyIfReady s i .link (ret .link)).1.readBufferMac .sensing) with
    | none => exact ⟨first, calls⟩
    | some j =>
      obtain ⟨second, calls'⟩ := notifyIfReady_related first j .sensing (ret .sensing)
      dsimp only
      rw [second.blinkWriteResp, second.readBufferMac]
      split
      · refine ⟨{ second with blinkWriteResp := rfl }, ?_⟩
        exact List.rel_append (List.rel_append calls calls') (one_call (.linkWriteResponse _ _))
      · exact ⟨second, List.rel_append calls calls'⟩

theorem infoValue_related (handle : HciConHandle) :
    infoValue s' (r.handle handle) = infoValue s handle := by
  rw [infoValue, infoValue, lookup_handle_related h.table, h.gMtuStr]

theorem inside_related {e e' : Event} (event : EventRel r e e') : inside s' e' = inside s e := by
  cases event with
  | attRead handle attHandle offset valid bufferSize beyond beyond' =>
    simp only [inside, copies, lookup_handle_related h.table]
  | _ => rfl

theorem attReadCallback_related {handle : HciConHandle} {attHandle : UInt16} {offset : ℕ}
    {valid : Bool} {bufferSize : ℕ} {beyond : ℕ → UInt8}
    (within : inside s (.attRead handle attHandle offset valid bufferSize beyond) = true)
    (beyond' : ℕ → UInt8) :
    let x := attReadCallback s handle attHandle offset valid bufferSize beyond
    let x' := attReadCallback s' (r.handle handle) attHandle offset valid bufferSize beyond'
    HalResults r (x.state, x.calls) (x'.state, x'.calls) ∧
      ObservationRel r (.read attHandle x.ret x.written) (.read attHandle x'.ret x'.written) := by
  have nothing : r.Bytes [] [] := .nil
  simp only [attReadCallback]
  by_cases info : attHandle = infoValueHandle
  · subst attHandle
    simp only [if_true, infoValue_related h]
    cases valid with
    | true => exact ⟨⟨h, .nil⟩, .info _ _⟩
    | false => exact ⟨⟨h, .nil⟩, .info _ _⟩
  · simp only [info, if_false, lookup_handle_related h.table]
    cases found : getBtConnectionUsingHandle s.btConnections handle with
    | none => exact ⟨⟨h, .nil⟩, .value info _ nothing⟩
    | some i =>
      have slot := h.table i
      have hb := slot.readBuffer .sensing
      have hl := slot.readBuffer .link
      have fits : valid = true → ∀ ch : Channel, attHandle = ch.valueHandle →
          offset + bufferSize ≤ readBufferLength := by
        intro read ch hch
        cases ch <;> simpa [inside, copies, found, read, hch] using within
      dsimp only
      by_cases sensing : attHandle = Channel.sensing.valueHandle
      · simp only [if_pos sensing, slot.handle, hb.size]
        cases valid with
        | true =>
          refine ⟨⟨{ h with blinkWriteResp := rfl }, one_call (.requestCanSendNow _)⟩, ?_⟩
          exact .value info _ (copyOut_related hb.data (fits rfl .sensing sensing) _ _)
        | false => exact ⟨⟨h, .nil⟩, .value info _ nothing⟩
      · by_cases link : attHandle = Channel.link.valueHandle
        · simp only [if_neg sensing, if_pos link, hl.size]
          cases valid with
          | true =>
            exact ⟨⟨h, .nil⟩, .value info _ (copyOut_related hl.data (fits rfl .link link) _ _)⟩
          | false => exact ⟨⟨h, .nil⟩, .value info _ nothing⟩
        · simp only [if_neg sensing, if_neg link]
          exact ⟨⟨h, .nil⟩, .value info _ nothing⟩

end Handlers

/-! ## Runs -/

theorem observe_related {e e' : Event} (h : Option.Rel (HalResults r) (step s e) (step s' e'))
    (reads : List.Forall₂ (ObservationRel r) (readsOf s e) (readsOf s' e')) :
    Option.Rel (Results (StateRel r) (ObservationRel r)) (observe s e) (observe s' e') := by
  simp only [observe]
  generalize step s e = x at h
  generalize step s' e' = x' at h
  cases h with
  | none => exact .none
  | some results =>
    apply Option.Rel.some
    refine ⟨results.1, List.rel_append reads ?_⟩
    rw [List.forall₂_map_left_iff, List.forall₂_map_right_iff]
    exact results.2.imp fun _ _ h => .call h

theorem related_inside {e e' : Event} (h : StateRel r s s') (event : EventRel r e e')
    (within : inside s e = true) :
    Option.Rel (Results (StateRel r) (ObservationRel r)) (observe s e) (observe s' e') := by
  cases event with
  | complete status handle mac =>
    exact observe_related (.some (hciPacketHandler_complete h status handle mac)) .nil
  | released handle => exact observe_related (.some (hciPacketHandler_released h handle)) .nil
  | other => exact observe_related (.some ⟨h, .nil⟩) .nil
  | connect mac macType ret =>
    refine observe_related (.some ⟨h.withTable (create_related h.table mac), ?_⟩) .nil
    exact one_call (.gapConnect mac macType ret)
  | disconnect mac => exact observe_related (.some (disconnect_related h mac)) .nil
  | writeData mac bytes characteristic =>
    exact observe_related (writeData_related h bytes mac characteristic) .nil
  | attRead handle attHandle offset valid bufferSize beyond beyond' =>
    obtain ⟨results, read⟩ := attReadCallback_related h within beyond'
    exact observe_related (.some results) (.cons read .nil)
  | attWrite handle attHandle bytes =>
    exact observe_related (.some ⟨h, attWriteCallback_related h bytes handle attHandle⟩) .nil
  | canSendNow ret => exact observe_related (.some (canSendNow_related h ret)) .nil
  | mtuExchangeComplete handle mtu ret =>
    exact observe_related (.some (mtuExchangeComplete_related h handle mtu ret)) .nil

/-- One event under other names and with other payload bytes. -/
theorem observeInside_lockstep (r : Renaming) :
    Lockstep observeInside observeInside (StateRel r) (EventRel r) (ObservationRel r) := by
  intro s s' e e' h event
  have same := inside_related h event
  cases within : inside s e with
  | true =>
    rw [observeInside, observeInside, if_pos within, if_pos (same.trans within)]
    exact related_inside h event within
  | false =>
    rw [observeInside, observeInside, same, within]
    exact .none

theorem initial_related (r : Renaming) : StateRel r initial initial := by
  refine ⟨?_, rfl, fun _ => r.mac_zero.symm, rfl, rfl⟩
  intro i
  have hb : ∀ ch, (initial.btConnections i).readBuffer ch = ⟨0, 0, false⟩ := initial_buffer i
  have hi : initial.btConnections i = clearConnectionData zeroSlot := by
    rw [initial, init_btConnections]
    rfl
  refine ⟨?_, ?_, rfl, rfl, ?_⟩
  · rw [hi]
    exact r.handle_zero.symm
  · rw [hi]
    exact r.mac_zero.symm
  · intro ch
    rw [hb]
    exact ⟨bytes_zero _, rfl, rfl⟩

/-- Runs from the start of the radio under other names and with other payload bytes agree on
everything but these: the calls, their order, every length and every read, with whatever lies
behind the arrays. -/
theorem parametric_runs (r : Renaming) {es es' : List Event}
    (events : List.Forall₂ (EventRel r) es es') :
    Option.Rel (Runs (StateRel r) (EventRel r) (ObservationRel r))
      (run observeInside initial es) (run observeInside initial es') :=
  (observeInside_lockstep r).run (initial_related r) events

/-- Two peers exchanged, handles kept, any bytes for any bytes. -/
def exchangedPeers : Renaming where
  mac := Equiv.swap peerA peerB
  mac_injective := (Equiv.swap peerA peerB).injective
  mac_zero := Equiv.swap_apply_of_ne_of_ne (by decide) (by decide)
  handle := id
  handle_injective := Function.injective_id
  handle_zero := rfl
  byte := fun _ _ => True
  byte_zero := trivial

theorem parametric_runs_exchanged_peers :
    Option.Rel (Runs (StateRel exchangedPeers) (EventRel exchangedPeers)
        (ObservationRel exchangedPeers))
      (run observeInside initial [.hci (.leConnectionComplete 0 0x40 peerA),
        .writeData peerA [1, 2] .linkRead, .attRead 0x40 0x0003 0 true 2 0,
        .canSendNow fun _ => 0])
      (run observeInside initial [.hci (.leConnectionComplete 0 0x40 (exchangedPeers.mac peerA)),
        .writeData (exchangedPeers.mac peerA) [7, 8] .linkRead,
        .attRead 0x40 0x0003 0 true 2 fun _ => 9, .canSendNow fun _ => 0]) :=
  parametric_runs exchangedPeers
    (.cons (.complete 0 0x40 peerA)
      (.cons (.writeData peerA (.cons trivial (.cons trivial .nil)) _)
        (.cons (.attRead 0x40 0x0003 0 true 2 _ _) (.cons (.canSendNow _) .nil))))

end HalParametricity
