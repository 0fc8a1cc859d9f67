import HmkitWorkspace.ConnectionTableInvariant

/-! # The read buffers of the connection table

Only `hmkit_core_connectivity_hal_write_data` stores into a buffer and only a can-send event
lowers a ready flag; freeing or claiming a slot leaves its buffers alone. -/
namespace ReadBuffers

open TransitionRuns FixedSlots ByteBuffers HmkitCoreConnectivityHal ConnectionTableInvariant

variable {s u : State} {e : Event} {out : List Call} {mac : Mac} {data : List UInt8}
  {characteristic : Characteristic} {i j : Slot} {ch c : Channel} {call : Call}

def buffer (s : State) (i : Slot) (ch : Channel) : ReadBuffer := (s.btConnections i).readBuffer ch

def channelOf : Characteristic → Option Channel
  | .linkRead => some .link
  | .sensingRead => some .sensing
  | _ => none

/-- The slot and channel in which a write is stored, if it is. -/
def writeTarget (s : State) (mac : Mac) (characteristic : Characteristic) :
    Option (Slot × Channel) :=
  match getBtConnectionUsingMac s.btConnections mac, channelOf characteristic with
  | some i, some ch => some (i, ch)
  | _, _ => none

/-- The slot whose buffer a can-send event looks at: a failed lookup for 02 skips 06 as well. -/
def servedSlot (s : State) : Channel → Option Slot
  | .link => getBtConnectionUsingMac s.btConnections (s.readBufferMac .link)
  | .sensing =>
    if (getBtConnectionUsingMac s.btConnections (s.readBufferMac .link)).isSome then
      getBtConnectionUsingMac s.btConnections (s.readBufferMac .sensing)
    else none

/-- The notifications a can-send event issues on one channel. -/
def served (s : State) (ch : Channel) (ret : ℤ) : List Call :=
  match servedSlot s ch with
  | none => []
  | some i =>
    if (buffer s i ch).ready then
      [.notify (s.btConnections i).handle ch.valueHandle (buffer s i ch).value ret]
    else []

/-- The write response that ends a can-send event which gets as far as 06. -/
def writeResponse (s : State) : List Call :=
  if (servedSlot s .sensing).isSome ∧ s.blinkWriteResp then
    [.linkWriteResponse (s.readBufferMac .sensing) .linkWrite]
  else []

/-! ## The handlers -/

theorem buffer_setReadBuffer (s : State) (i j : Slot) (ch c : Channel) (b : ReadBuffer) :
    buffer (s.setReadBuffer i ch b) j c = if j = i ∧ c = ch then b else buffer s j c := by
  unfold buffer State.setReadBuffer
  by_cases hj : j = i
  · subst j
    by_cases hc : c = ch <;> simp [hc]
  · simp [hj]

theorem notifyIfReady_buffer (s : State) (i j : Slot) (ch c : Channel) (ret : ℤ) :
    buffer (notifyIfReady s i ch ret).1 j c =
      if j = i ∧ c = ch then { buffer s j c with ready := false } else buffer s j c := by
  simp only [notifyIfReady]
  split
  · rw [buffer_setReadBuffer]
    by_cases h : j = i ∧ c = ch
    · obtain ⟨rfl, rfl⟩ := h
      simp [buffer]
    · simp [h]
  · rename_i hr
    by_cases h : j = i ∧ c = ch
    · obtain ⟨rfl, rfl⟩ := h
      have hr : (buffer s j c).ready = false := by simpa [buffer] using hr
      simp [← hr]
    · simp [h]

theorem notifyIfReady_calls (s : State) (i : Slot) (ch : Channel) (ret : ℤ) :
    (notifyIfReady s i ch ret).2 =
      if (buffer s i ch).ready then
        [.notify (s.btConnections i).handle ch.valueHandle (buffer s i ch).value ret]
      else [] := by
  unfold buffer
  by_cases h : ((s.btConnections i).readBuffer ch).ready = true <;> simp [notifyIfReady, h]

theorem notifyIfReady_readBufferMac (s : State) (i : Slot) (ch : Channel) (ret : ℤ) :
    (notifyIfReady s i ch ret).1.readBufferMac = s.readBufferMac := by
  simp only [notifyIfReady]
  split <;> rfl

theorem notifyIfReady_blinkWriteResp (s : State) (i : Slot) (ch : Channel) (ret : ℤ) :
    (notifyIfReady s i ch ret).1.blinkWriteResp = s.blinkWriteResp := by
  simp only [notifyIfReady]
  split <;> rfl

theorem lookup_mac_congr {t t' : BtConnections} (same : ∀ i, (t' i).mac = (t i).mac) (mac : Mac) :
    getBtConnectionUsingMac t' mac = getBtConnectionUsingMac t mac :=
  findSlot_congr fun i => by rw [same i]

theorem canSendNow_buffer (s : State) (ret : Channel → ℤ) (j : Slot) (c : Channel) :
    buffer (canSendNow s ret).1 j c =
      if servedSlot s c = some j then { buffer s j c with ready := false }
      else buffer s j c := by
  unfold canSendNow
  cases hl : getBtConnectionUsingMac s.btConnections (s.readBufferMac .link) with
  | none => cases c <;> simp [servedSlot, hl]
  | some i =>
    have same := lookup_mac_congr fun j => (notifyIfReady_header s i .link (ret .link) j).mac
    simp only [same, notifyIfReady_readBufferMac]
    cases hk : getBtConnectionUsingMac s.btConnections (s.readBufferMac .sensing) with
    | none =>
      cases c <;> simp [servedSlot, hl, hk, notifyIfReady_buffer, eq_comm]
    | some k =>
      have second : buffer (notifyIfReady (notifyIfReady s i .link (ret .link)).1 k .sensing
          (ret .sensing)).1 j c =
          if servedSlot s c = some j then { buffer s j c with ready := false }
          else buffer s j c := by
        rw [notifyIfReady_buffer, notifyIfReady_buffer]
        cases c <;> simp [servedSlot, hl, hk, eq_comm]
      dsimp only
      split <;> exact second

theorem canSendNow_calls (s : State) (ret : Channel → ℤ) :
    (canSendNow s ret).2 =
      served s .link (ret .link) ++ served s .sensing (ret .sensing) ++ writeResponse s := by
  unfold canSendNow
  cases hl : getBtConnectionUsingMac s.btConnections (s.readBufferMac .link) with
  | none => simp [served, servedSlot, writeResponse, hl]
  | some i =>
    have same := lookup_mac_congr fun j => (notifyIfReady_header s i .link (ret .link) j).mac
    have first : (notifyIfReady s i .link (ret .link)).2 = served s .link (ret .link) := by
      simp only [notifyIfReady_calls, served, servedSlot, hl]
    simp only [same, notifyIfReady_readBufferMac, notifyIfReady_blinkWriteResp, first]
    cases hk : getBtConnectionUsingMac s.btConnections (s.readBufferMac .sensing) with
    | none => simp [served, servedSlot, writeResponse, hl, hk, first]
    | some k =>
      have handle := (notifyIfReady_header s i .link (ret .link) k).handle
      have kept := notifyIfReady_buffer s i k .link .sensing (ret .link)
      have second : (notifyIfReady (notifyIfReady s i .link (ret .link)).1 k .sensing
          (ret .sensing)).2 = served s .sensing (ret .sensing) := by
        simp only [reduceCtorEq, and_false, if_false] at kept
        simp only [notifyIfReady_calls, kept, handle, served, servedSlot, hl, hk,
          Option.isSome_some, if_true]
      simp only [second]
      by_cases blink : s.blinkWriteResp = true
      · simp [writeResponse, servedSlot, hl, hk, blink]
      · simp [writeResponse, blink]

theorem canSendNow_readBufferMac (s : State) (ret : Channel → ℤ) :
    (canSendNow s ret).1.readBufferMac = s.readBufferMac := by
  unfold canSendNow
  split
  · rfl
  · dsimp only
    split
    · rw [notifyIfReady_readBufferMac]
    · split <;> simp [notifyIfReady_readBufferMac]

theorem writeData_eq (s : State) (mac : Mac) (data : List UInt8) (characteristic : Characteristic) :
    writeData s mac data characteristic =
      match writeTarget s mac characteristic with
      | none => some (s, [])
      | some (i, ch) => storePayload s i mac data ch := by
  unfold writeData writeTarget
  cases getBtConnectionUsingMac s.btConnections mac with
  | none => rfl
  | some i => cases characteristic <;> rfl

theorem writeTarget_some (h : writeTarget s mac characteristic = some (i, ch)) :
    getBtConnectionUsingMac s.btConnections mac = some i ∧ channelOf characteristic = some ch := by
  simp only [writeTarget] at h
  cases hl : getBtConnectionUsingMac s.btConnections mac with
  | none => simp [hl] at h
  | some j => cases hc : channelOf characteristic <;> simp_all

theorem storePayload_none_iff :
    storePayload s i mac data ch = none ↔ readBufferLength < data.length := by
  simp [storePayload, Buffer.memcpy_eq_none_iff]

/-- A stored payload fits, is the new value of its buffer, and claims the channel's global
address; no other buffer changes. -/
structure Stores (s : State) (i : Slot) (ch : Channel) (mac : Mac) (data : List UInt8)
    (u : State) : Prop where
  fits : data.length ≤ readBufferLength
  value : (buffer u i ch).value = data
  size : (buffer u i ch).size = data.length
  ready : (buffer u i ch).ready = true
  others : ∀ j c, ¬ (j = i ∧ c = ch) → buffer u j c = buffer s j c
  readBufferMac : u.readBufferMac = Function.update s.readBufferMac ch mac

theorem storePayload_stores (h : storePayload s i mac data ch = some (u, out)) :
    Stores s i ch mac data u ∧ out = [.requestCanSendNow (s.btConnections i).handle] := by
  simp only [storePayload, Option.map_eq_some_iff, Prod.mk.injEq] at h
  obtain ⟨stored, hm, rfl, rfl⟩ := h
  obtain ⟨fits, taken⟩ := Buffer.memcpy_prefix hm
  have after : ∀ j c, buffer (s.setReadBuffer i ch ⟨stored, data.length, true⟩) j c =
      if j = i ∧ c = ch then ⟨stored, data.length, true⟩ else buffer s j c :=
    fun j c => buffer_setReadBuffer s i j ch c _
  have self := after i ch
  simp only [and_self, if_true] at self
  refine ⟨⟨fits, ?_, ?_, ?_, ?_, rfl⟩, rfl⟩
  · exact (congrArg ReadBuffer.value self).trans taken
  · exact congrArg ReadBuffer.size self
  · exact congrArg ReadBuffer.ready self
  · intro j c hjc
    exact (after j c).trans (if_neg hjc)

/-! ## One event -/

theorem create_buffer (t : BtConnections) (mac : Mac) (i : Slot) :
    (createBtConnection t mac i).readBuffer = (t i).readBuffer := by
  rcases createBtConnection_slot t mac i with same | ⟨_, claimed⟩
  · rw [same]
  · rw [claimed]

theorem sends_or_silent (e : Event) :
    (∃ ret, e = .canSendNow ret) ∨ ∀ ret, e ≠ .canSendNow ret := by
  rw [← not_exists]
  exact em _

/-- What one event does to one buffer. -/
inductive BufferStep (s : State) (i : Slot) (ch : Channel) (u : State) : Event → Prop where
  | keep (e : Event) (same : buffer u i ch = buffer s i ch)
      (unwritten : ∀ mac data characteristic, e = .writeData mac data characteristic →
        writeTarget s mac characteristic ≠ some (i, ch)) : BufferStep s i ch u e
  | stored (mac : Mac) (data : List UInt8) (characteristic : Characteristic)
      (target : writeTarget s mac characteristic = some (i, ch))
      (stores : Stores s i ch mac data u) :
      BufferStep s i ch u (.writeData mac data characteristic)
  | served (ret : Channel → ℤ) (slot : servedSlot s ch = some i)
      (after : buffer u i ch = { buffer s i ch with ready := false }) :
      BufferStep s i ch u (.canSendNow ret)

theorem hciPacketHandler_buffer (s : State) (p : HciPacket) (i : Slot) (ch : Channel) :
    buffer (hciPacketHandler s p).1 i ch = buffer s i ch := by
  cases p with
  | leConnectionComplete status handle mac =>
    simp only [hciPacketHandler]
    split
    · rfl
    · split
      · simp [buffer, create_buffer]
      · rename_i j _
        by_cases hj : i = j
        · subst j; simp [buffer, create_buffer]
        · simp [buffer, hj, create_buffer]
  | disconnectionComplete handle =>
    simp only [hciPacketHandler]
    split
    · rfl
    · rename_i j _
      rcases delete_cases s.btConnections j i with h | h <;> simp [buffer, h, clearConnectionData]
  | other => rfl

theorem step_buffer (hs : step s e = some (u, out)) (i : Slot) (ch : Channel) :
    BufferStep s i ch u e := by
  cases e with
  | writeData mac data characteristic =>
    have hw := (writeData_eq s mac data characteristic).symm.trans hs
    cases ht : writeTarget s mac characteristic with
    | none =>
      rw [ht] at hw
      obtain ⟨rfl, _⟩ := total_step hw
      apply BufferStep.keep _ rfl
      intro mac' data' characteristic' he
      cases he
      simp [ht]
    | some target =>
      obtain ⟨j, c⟩ := target
      rw [ht] at hw
      obtain ⟨stores, _⟩ := storePayload_stores hw
      by_cases hjc : i = j ∧ ch = c
      · obtain ⟨rfl, rfl⟩ := hjc
        exact .stored mac data characteristic ht stores
      · apply BufferStep.keep _ (stores.others i ch hjc)
        intro mac' data' characteristic' he
        cases he
        intro hsame
        rw [ht] at hsame
        cases hsame
        exact hjc ⟨rfl, rfl⟩
  | canSendNow ret =>
    obtain ⟨rfl, _⟩ := total_step hs
    have after := canSendNow_buffer s ret i ch
    by_cases h : servedSlot s ch = some i
    · exact .served ret h (by simpa [h] using after)
    · exact .keep _ (by simpa [h] using after) (by simp)
  | hci p =>
    obtain ⟨rfl, _⟩ := total_step hs
    exact .keep _ (hciPacketHandler_buffer s p i ch) (by simp)
  | connect mac macType ret =>
    obtain ⟨rfl, _⟩ := total_step hs
    exact .keep _ (by simp [buffer, HmkitCoreConnectivityHal.connect, create_buffer]) (by simp)
  | disconnect mac =>
    obtain ⟨rfl, _⟩ := total_step hs
    exact .keep _ (by rw [disconnect_state]) (by simp)
  | attRead conHandle attHandle offset valid bufferSize beyond =>
    obtain ⟨rfl, _⟩ := total_step hs
    exact .keep _ (by simp [buffer, attReadCallback_btConnections]) (by simp)
  | attWrite conHandle attHandle data =>
    obtain ⟨rfl, _⟩ := total_step hs
    exact .keep _ rfl (by simp)
  | mtuExchangeComplete handle mtu ret =>
    obtain ⟨rfl, _⟩ := total_step hs
    exact .keep _ (by simp [buffer, mtuExchangeComplete_btConnections]) (by simp)

/-- The one way in which an event makes a call. -/
inductive CallStep (s : State) : Event → Call → Prop where
  | linkConnect (handle : HciConHandle) (mac : Mac) :
      CallStep s (.hci (.leConnectionComplete 0 handle mac)) (.linkConnect mac)
  | linkDisconnect (handle : HciConHandle) (i : Slot)
      (found : getBtConnectionUsingHandle s.btConnections handle = some i) :
      CallStep s (.hci (.disconnectionComplete handle)) (.linkDisconnect (s.btConnections i).mac)
  | gapConnect (mac : Mac) (macType ret : UInt8) :
      CallStep s (.connect mac macType ret) (.gapConnect mac macType ret)
  | gapDisconnect (mac : Mac) (i : Slot)
      (found : getBtConnectionUsingMac s.btConnections mac = some i) :
      CallStep s (.disconnect mac) (.gapDisconnect (s.btConnections i).handle)
  | written (mac : Mac) (data : List UInt8) (characteristic : Characteristic) (i : Slot)
      (ch : Channel) (target : writeTarget s mac characteristic = some (i, ch)) :
      CallStep s (.writeData mac data characteristic)
        (.requestCanSendNow (s.btConnections i).handle)
  | read (handle : HciConHandle) (offset bufferSize : ℕ) (beyond : ℕ → UInt8) (i : Slot)
      (found : getBtConnectionUsingHandle s.btConnections handle = some i) :
      CallStep s (.attRead handle Channel.sensing.valueHandle offset true bufferSize beyond)
        (.requestCanSendNow (s.btConnections i).handle)
  | incoming (handle : HciConHandle) (attHandle : UInt16) (data : List UInt8) (i : Slot)
      (characteristic : Characteristic)
      (found : getBtConnectionUsingHandle s.btConnections handle = some i) :
      CallStep s (.attWrite handle attHandle data)
        (.linkIncomingData data (s.btConnections i).mac characteristic)
  | notified (ret : Channel → ℤ) (ch : Channel) (i : Slot) (slot : servedSlot s ch = some i)
      (ready : (buffer s i ch).ready = true) :
      CallStep s (.canSendNow ret)
        (.notify (s.btConnections i).handle ch.valueHandle (buffer s i ch).value (ret ch))
  | responded (ret : Channel → ℤ) (blink : s.blinkWriteResp = true) :
      CallStep s (.canSendNow ret) (.linkWriteResponse (s.readBufferMac .sensing) .linkWrite)
  | mtuSet (handle : HciConHandle) (mtu : UInt16) (ret : UInt32) (i : Slot)
      (found : getBtConnectionUsingHandle s.btConnections handle = some i) :
      CallStep s (.mtuExchangeComplete handle mtu ret) (.setMtu (s.btConnections i).mac mtu ret)

theorem hciPacketHandler_call {p : HciPacket} (hc : call ∈ (hciPacketHandler s p).2) :
    CallStep s (.hci p) call := by
  cases p with
  | leConnectionComplete status handle mac =>
    by_cases hst : status = 0
    · subst status
      simp only [hciPacketHandler, ne_eq, not_true_eq_false, if_false] at hc
      split at hc
      · cases hc
      · rw [List.mem_singleton.mp hc]
        exact .linkConnect handle mac
    · simp [hciPacketHandler, hst] at hc
  | disconnectionComplete handle =>
    simp only [hciPacketHandler] at hc
    split at hc
    · cases hc
    · rename_i i found
      rw [List.mem_singleton.mp hc]
      exact .linkDisconnect handle i found
  | other => cases hc

theorem attReadCallback_call {handle : HciConHandle} {attHandle : UInt16}
    {offset bufferSize : ℕ} {valid : Bool} {beyond : ℕ → UInt8}
    (hc : call ∈ (attReadCallback s handle attHandle offset valid bufferSize beyond).calls) :
    CallStep s (.attRead handle attHandle offset valid bufferSize beyond) call := by
  have nothing : ∀ {P : Prop}, call ∈ ([] : List Call) → P := fun h => by cases h
  unfold attReadCallback at hc
  split at hc
  · split at hc <;> exact nothing hc
  · split at hc
    · exact nothing hc
    · rename_i i found
      dsimp only at hc
      split at hc
      · rename_i sensing
        split at hc
        · rename_i valid
          rw [List.mem_singleton.mp hc, sensing, valid]
          exact .read handle offset bufferSize beyond i found
        · exact nothing hc
      · split at hc
        · split at hc <;> exact nothing hc
        · exact nothing hc

theorem attWriteCallback_call {handle : HciConHandle} {attHandle : UInt16}
    (hc : call ∈ attWriteCallback s handle attHandle data) :
    CallStep s (.attWrite handle attHandle data) call := by
  simp only [attWriteCallback] at hc
  split at hc
  · cases hc
  · rename_i i found
    rcases List.mem_append.mp hc with hc | hc <;> split at hc
    · rw [List.mem_singleton.mp hc]
      exact .incoming handle attHandle data i _ found
    · cases hc
    · rw [List.mem_singleton.mp hc]
      exact .incoming handle attHandle data i _ found
    · cases hc

theorem canSendNow_call {ret : Channel → ℤ} (hc : call ∈ (canSendNow s ret).2) :
    CallStep s (.canSendNow ret) call := by
  have notified : ∀ ch, call ∈ served s ch (ret ch) → CallStep s (.canSendNow ret) call := by
    intro ch hmem
    simp only [served] at hmem
    split at hmem
    · cases hmem
    · rename_i i slot
      split at hmem
      · rename_i ready
        rw [List.mem_singleton.mp hmem]
        exact .notified ret ch i slot ready
      · cases hmem
  rw [canSendNow_calls, List.mem_append, List.mem_append] at hc
  rcases hc with (hc | hc) | hc
  · exact notified .link hc
  · exact notified .sensing hc
  · simp only [writeResponse] at hc
    split at hc
    · rename_i blink
      rw [List.mem_singleton.mp hc]
      exact .responded ret blink.2
    · cases hc

theorem step_call (hs : step s e = some (u, out)) (hc : call ∈ out) : CallStep s e call := by
  cases e with
  | hci p =>
    obtain ⟨_, rfl⟩ := total_step hs
    exact hciPacketHandler_call hc
  | connect mac macType ret =>
    obtain ⟨_, rfl⟩ := total_step hs
    rw [List.mem_singleton.mp hc]
    exact .gapConnect mac macType ret
  | disconnect mac =>
    obtain ⟨_, rfl⟩ := total_step hs
    simp only [HmkitCoreConnectivityHal.disconnect] at hc
    split at hc
    · cases hc
    · rename_i i found
      rw [List.mem_singleton.mp hc]
      exact .gapDisconnect mac i found
  | writeData mac data characteristic =>
    have hw := (writeData_eq s mac data characteristic).symm.trans hs
    cases ht : writeTarget s mac characteristic with
    | none =>
      rw [ht] at hw
      obtain ⟨_, rfl⟩ := total_step hw
      cases hc
    | some target =>
      rw [ht] at hw
      rw [(storePayload_stores hw).2] at hc
      rw [List.mem_singleton.mp hc]
      exact .written mac data characteristic target.1 target.2 ht
  | attRead handle attHandle offset valid bufferSize beyond =>
    obtain ⟨_, rfl⟩ := total_step hs
    exact attReadCallback_call hc
  | attWrite handle attHandle data =>
    obtain ⟨_, rfl⟩ := total_step hs
    exact attWriteCallback_call hc
  | canSendNow ret =>
    obtain ⟨_, rfl⟩ := total_step hs
    exact canSendNow_call hc
  | mtuExchangeComplete handle mtu ret =>
    obtain ⟨_, rfl⟩ := total_step hs
    simp only [HmkitCoreConnectivityHal.mtuExchangeComplete] at hc
    split at hc
    · cases hc
    · rename_i i found
      rw [List.mem_singleton.mp hc]
      exact .mtuSet handle mtu ret i found

/-! ## The global addresses and the global flag -/

/-- Only a stored payload moves the address of its channel. -/
def readBufferMacAfter (s : State) : Event → Channel → Mac
  | .writeData mac _ characteristic =>
    match writeTarget s mac characteristic with
    | some (_, ch) => Function.update s.readBufferMac ch mac
    | none => s.readBufferMac
  | _ => s.readBufferMac

/-- Only a data read of 106 raises the flag, and only a can-send event that gets as far as 06
lowers it. -/
def blinkWriteRespAfter (s : State) : Event → Bool
  | .attRead conHandle attHandle _ valid _ _ =>
    s.blinkWriteResp || (valid && attHandle == Channel.sensing.valueHandle &&
      (getBtConnectionUsingHandle s.btConnections conHandle).isSome)
  | .canSendNow _ => s.blinkWriteResp && (servedSlot s .sensing).isNone
  | _ => s.blinkWriteResp

theorem hciPacketHandler_globals (s : State) (p : HciPacket) :
    (hciPacketHandler s p).1.readBufferMac = s.readBufferMac ∧
      (hciPacketHandler s p).1.blinkWriteResp = s.blinkWriteResp := by
  unfold hciPacketHandler
  split
  · dsimp only
    split
    · exact ⟨rfl, rfl⟩
    · split <;> exact ⟨rfl, rfl⟩
  · split <;> exact ⟨rfl, rfl⟩
  · exact ⟨rfl, rfl⟩

theorem attReadCallback_globals (s : State) (handle : HciConHandle) (attHandle : UInt16)
    (offset : ℕ) (valid : Bool) (bufferSize : ℕ) (beyond : ℕ → UInt8) :
    (attReadCallback s handle attHandle offset valid bufferSize beyond).state.readBufferMac =
        s.readBufferMac ∧
      (attReadCallback s handle attHandle offset valid bufferSize beyond).state.blinkWriteResp =
        (s.blinkWriteResp || (valid && attHandle == Channel.sensing.valueHandle &&
          (getBtConnectionUsingHandle s.btConnections handle).isSome)) := by
  unfold attReadCallback
  by_cases info : attHandle = infoValueHandle
  · subst attHandle
    cases valid <;> simp [infoValueHandle, Channel.valueHandle]
  · cases hl : getBtConnectionUsingHandle s.btConnections handle with
    | none => simp [info]
    | some i =>
      by_cases sensing : attHandle = Channel.sensing.valueHandle
      · subst attHandle
        cases valid <;> simp [info]
      · simp only [info, sensing, if_false]
        split
        · cases valid <;> simp [sensing]
        · simp [sensing]

theorem canSendNow_blinkWriteResp (s : State) (ret : Channel → ℤ) :
    (canSendNow s ret).1.blinkWriteResp =
      (s.blinkWriteResp && (servedSlot s .sensing).isNone) := by
  unfold canSendNow
  cases hl : getBtConnectionUsingMac s.btConnections (s.readBufferMac .link) with
  | none => simp [servedSlot, hl]
  | some i =>
    have same := lookup_mac_congr fun j => (notifyIfReady_header s i .link (ret .link) j).mac
    simp only [same, notifyIfReady_readBufferMac, notifyIfReady_blinkWriteResp]
    cases hk : getBtConnectionUsingMac s.btConnections (s.readBufferMac .sensing) with
    | none => simp [servedSlot, hl, hk, notifyIfReady_blinkWriteResp]
    | some k =>
      cases blink : s.blinkWriteResp <;>
        simp [servedSlot, hl, hk, notifyIfReady_blinkWriteResp, blink]

theorem storePayload_blinkWriteResp (h : storePayload s i mac data ch = some (u, out)) :
    u.blinkWriteResp = s.blinkWriteResp := by
  simp only [storePayload, Option.map_eq_some_iff, Prod.mk.injEq] at h
  obtain ⟨_, _, rfl, _⟩ := h
  rfl

theorem mtuExchangeComplete_globals (s : State) (handle : HciConHandle) (mtu : UInt16)
    (ret : UInt32) :
    (mtuExchangeComplete s handle mtu ret).1.readBufferMac = s.readBufferMac ∧
      (mtuExchangeComplete s handle mtu ret).1.blinkWriteResp = s.blinkWriteResp := by
  unfold mtuExchangeComplete
  split <;> exact ⟨rfl, rfl⟩

theorem step_globals (hs : step s e = some (u, out)) :
    u.readBufferMac = readBufferMacAfter s e ∧ u.blinkWriteResp = blinkWriteRespAfter s e := by
  cases e with
  | hci p =>
    obtain ⟨rfl, _⟩ := total_step hs
    exact hciPacketHandler_globals s p
  | connect mac macType ret =>
    obtain ⟨rfl, _⟩ := total_step hs
    exact ⟨rfl, rfl⟩
  | disconnect mac =>
    obtain ⟨hu, _⟩ := total_step hs
    rw [← hu, disconnect_state]
    exact ⟨rfl, rfl⟩
  | writeData mac data characteristic =>
    have hw := (writeData_eq s mac data characteristic).symm.trans hs
    simp only [readBufferMacAfter, blinkWriteRespAfter]
    cases ht : writeTarget s mac characteristic with
    | none =>
      rw [ht] at hw
      obtain ⟨rfl, _⟩ := total_step hw
      exact ⟨rfl, rfl⟩
    | some target =>
      rw [ht] at hw
      exact ⟨(storePayload_stores hw).1.readBufferMac, storePayload_blinkWriteResp hw⟩
  | attRead handle attHandle offset valid bufferSize beyond =>
    obtain ⟨rfl, _⟩ := total_step hs
    exact attReadCallback_globals s handle attHandle offset valid bufferSize beyond
  | attWrite handle attHandle data =>
    obtain ⟨rfl, _⟩ := total_step hs
    exact ⟨rfl, rfl⟩
  | canSendNow ret =>
    obtain ⟨rfl, _⟩ := total_step hs
    exact ⟨canSendNow_readBufferMac s ret, canSendNow_blinkWriteResp s ret⟩
  | mtuExchangeComplete handle mtu ret =>
    obtain ⟨rfl, _⟩ := total_step hs
    exact mtuExchangeComplete_globals s handle mtu ret

/-! ## Notifications of one channel -/

def onChannel (ch : Channel) : Call → Bool
  | .notify _ attHandle _ _ => attHandle == ch.valueHandle
  | _ => false

theorem served_onChannel (s : State) (c ch : Channel) (ret : ℤ) :
    (served s c ret).filter (onChannel ch) = if c = ch then served s c ret else [] := by
  unfold served
  cases servedSlot s c with
  | none => simp
  | some i =>
    by_cases ready : (buffer s i c).ready = true
    · cases c <;> cases ch <;> simp [ready, onChannel, Channel.valueHandle]
    · simp [ready]

theorem writeResponse_onChannel (s : State) (ch : Channel) :
    (writeResponse s).filter (onChannel ch) = [] := by
  unfold writeResponse
  split <;> simp [onChannel]

theorem canSendNow_onChannel (s : State) (ret : Channel → ℤ) (ch : Channel) :
    (canSendNow s ret).2.filter (onChannel ch) = served s ch (ret ch) := by
  rw [canSendNow_calls, List.filter_append, List.filter_append, served_onChannel,
    served_onChannel, writeResponse_onChannel]
  cases ch <;> simp

/-! ## The bound -/

theorem initial_buffer (i : Slot) (ch : Channel) : buffer initial i ch = ⟨0, 0, false⟩ := by
  simp [buffer, initial, init_btConnections, clearConnectionData, staticData, zeroSlot]

theorem step_size (hs : step s e = some (u, out)) (hi : (buffer s i ch).size ≤ readBufferLength) :
    (buffer u i ch).size ≤ readBufferLength := by
  cases step_buffer hs i ch with
  | keep _ same => rwa [same]
  | stored mac data characteristic target stores => rw [stores.size]; exact stores.fits
  | served ret slot after => rwa [after]

theorem reachable_size {G : State → Event → Prop} {tr : List (Transition State Event Call)}
    (h : Execution step G initial tr s) (i : Slot) (ch : Channel) :
    (buffer s i ch).size ≤ readBufferLength := by
  refine h.invariant (fun s => (buffer s i ch).size ≤ readBufferLength) ?_
    fun inv _ hs => step_size hs inv
  simp [initial_buffer]

/-! ## Attribute reads -/

section Reads

variable {handle : HciConHandle}

theorem attRead_length (hl : getBtConnectionUsingHandle s.btConnections handle = some i)
    (ch : Channel) (offset bufferSize : ℕ) (beyond : ℕ → UInt8) :
    (attReadCallback s handle ch.valueHandle offset false bufferSize beyond).ret =
      (buffer s i ch).size := by
  cases ch <;> simp [attReadCallback, Channel.valueHandle, infoValueHandle, hl, buffer]

/-- The copy is governed by the caller's buffer alone, whatever the value's size. -/
theorem attRead_bytes (hl : getBtConnectionUsingHandle s.btConnections handle = some i)
    (ch : Channel) (offset bufferSize : ℕ) (beyond : ℕ → UInt8) :
    (attReadCallback s handle ch.valueHandle offset true bufferSize beyond).written =
        (buffer s i ch).data.copyOut beyond offset bufferSize ∧
      (attReadCallback s handle ch.valueHandle offset true bufferSize beyond).ret = bufferSize := by
  cases ch <;> simp [attReadCallback, Channel.valueHandle, infoValueHandle, hl, buffer]

theorem attRead_missing (hl : getBtConnectionUsingHandle s.btConnections handle = none)
    (ch : Channel) (offset : ℕ) (valid : Bool) (bufferSize : ℕ) (beyond : ℕ → UInt8) :
    attReadCallback s handle ch.valueHandle offset valid bufferSize beyond = ⟨s, [], 0, []⟩ := by
  cases ch <;> simp [attReadCallback, Channel.valueHandle, infoValueHandle, hl]

end Reads

end ReadBuffers
