import HmkitWorkspace.Footprints
import HmkitWorkspace.ReadBuffers

/-! # What each handler of the connectivity HAL reads and writes

The table without its buffers, the two channels' payloads, flags and addresses, the pending
write response and the MTU are separate components. Observations include what an attribute
read returns and the bytes it stores. Reads that run over the end of an array are left out:
what they serve are the members behind it. -/
namespace HalFootprints

open TransitionRuns Footprints FixedSlots ByteBuffers HmkitCoreConnectivityHal
  ConnectionTableInvariant ReadBuffers

variable {s s' u v : State} {e : Event} {t t' : BtConnections} {ch : Channel}

inductive Component where
  | header
  | payload (ch : Channel)
  | ready (ch : Channel)
  | target (ch : Channel)
  | blinkWriteResp
  | mtu
  deriving DecidableEq

@[ext]
structure Header where
  handle : HciConHandle
  mac : Mac
  characters : Fin 6 → BtCharacter
  isEmpty : Bool

def header (c : BtConnection) : Header := ⟨c.handle, c.mac, c.characters, c.isEmpty⟩

def components : Components State Component where
  Value
    | .header => Slot → Header
    | .payload _ => Slot → Buffer readBufferLength × ℕ
    | .ready _ => Slot → Bool
    | .target _ => Mac
    | .blinkWriteResp => Bool
    | .mtu => UInt16 × Buffer 6
  get
    | .header, s => fun i => header (s.btConnections i)
    | .payload ch, s => fun i => ((buffer s i ch).data, (buffer s i ch).size)
    | .ready ch, s => fun i => (buffer s i ch).ready
    | .target ch, s => s.readBufferMac ch
    | .blinkWriteResp, s => s.blinkWriteResp
    | .mtu, s => (s.gMtu, s.gMtuStr)

inductive Observation where
  | call (c : Call)
  | read (attHandle : UInt16) (ret : ℕ) (bytes : List UInt8)

/-- What the attribute server gets from a read besides the calls. -/
def readsOf (s : State) : Event → List Observation
  | .attRead conHandle attHandle offset valid bufferSize beyond =>
    let r := attReadCallback s conHandle attHandle offset valid bufferSize beyond
    [.read attHandle r.ret r.written]
  | _ => []

def observe : StepFunction State Event Observation := fun s e =>
  (step s e).map fun r => (r.1, readsOf s e ++ r.2.map .call)

/-- Whether an attribute read copies from the array of a channel. -/
def copies (s : State) (conHandle : HciConHandle) (attHandle : UInt16) (valid : Bool) : Bool :=
  valid && (getBtConnectionUsingHandle s.btConnections conHandle).isSome &&
    (attHandle == Channel.link.valueHandle || attHandle == Channel.sensing.valueHandle)

/-- Whether an event reads inside the array it reads from. -/
def inside (s : State) : Event → Bool
  | .attRead conHandle attHandle offset valid bufferSize _ =>
    !copies s conHandle attHandle valid || decide (offset + bufferSize ≤ readBufferLength)
  | _ => true

/-- A read over the end of an array is no step here, just as a write over it is none. -/
def observeInside : StepFunction State Event Observation := fun s e =>
  if inside s e then observe s e else none

/-- The event without the bytes behind the arrays. -/
def erased : Event → Event
  | .attRead conHandle attHandle offset valid bufferSize _ =>
    .attRead conHandle attHandle offset valid bufferSize 0
  | e => e

/-- The components a write to a characteristic touches. -/
def writtenBy (characteristic : Characteristic) : Set Component :=
  { x | ∃ ch, channelOf characteristic = some ch ∧
    (x = .payload ch ∨ x = .ready ch ∨ x = .target ch) }

/-- The components an attribute read looks at besides the table. -/
def servedFrom (attHandle : UInt16) : Set Component :=
  { x | (attHandle = infoValueHandle ∧ x = .mtu) ∨
    ∃ ch : Channel, attHandle = ch.valueHandle ∧ x = .payload ch }

/-- What the handlers read and write inside the arrays. -/
def footprint : Event → Footprint Component
  | .hci _ => ⟨{.header}, {.header}⟩
  | .connect .. => ⟨{.header}, {.header}⟩
  | .disconnect _ => ⟨{.header}, ∅⟩
  | .writeData _ _ characteristic => ⟨{.header}, writtenBy characteristic⟩
  | .attRead _ attHandle _ valid _ _ =>
    ⟨{.header} ∪ servedFrom attHandle,
      { x | valid = true ∧ attHandle = Channel.sensing.valueHandle ∧ x = .blinkWriteResp }⟩
  | .attWrite .. => ⟨{.header}, ∅⟩
  | .canSendNow _ => ⟨{ x | x ≠ .mtu }, { x | x = .blinkWriteResp ∨ ∃ ch, x = .ready ch }⟩
  | .mtuExchangeComplete .. => ⟨{.header}, {.mtu}⟩

/-! ## Agreement -/

theorem header_eq_iff {c d : BtConnection} : header c = header d ↔ SameHeader c d := by
  constructor
  · intro h
    obtain ⟨handle, mac, characters, isEmpty⟩ := Header.mk.inj h
    exact ⟨handle.symm, mac.symm, isEmpty.symm, characters.symm⟩
  · intro h
    rw [header, header, h.handle, h.mac, h.characters, h.isEmpty]

theorem payload_iff : components.get (.payload ch) s = components.get (.payload ch) s' ↔
    ∀ i, (buffer s i ch).data = (buffer s' i ch).data ∧
      (buffer s i ch).size = (buffer s' i ch).size := by
  constructor
  · intro h i
    exact Prod.mk.inj (congrFun h i)
  · intro h
    exact funext fun i => Prod.ext (h i).1 (h i).2

theorem ready_iff : components.get (.ready ch) s = components.get (.ready ch) s' ↔
    ∀ i, (buffer s i ch).ready = (buffer s' i ch).ready := funext_iff

theorem target_iff : components.get (.target ch) s = components.get (.target ch) s' ↔
    s.readBufferMac ch = s'.readBufferMac ch := Iff.rfl

theorem blinkWriteResp_iff :
    components.get .blinkWriteResp s = components.get .blinkWriteResp s' ↔
      s.blinkWriteResp = s'.blinkWriteResp := Iff.rfl

theorem mtu_iff : components.get .mtu s = components.get .mtu s' ↔
    s.gMtu = s'.gMtu ∧ s.gMtuStr = s'.gMtuStr := Prod.mk_inj

theorem buffer_eq {i : Slot} (payload : components.get (.payload ch) s =
    components.get (.payload ch) s')
    (ready : components.get (.ready ch) s = components.get (.ready ch) s') :
    buffer s i ch = buffer s' i ch := by
  obtain ⟨data, size⟩ := payload_iff.mp payload i
  have ready := ready_iff.mp ready i
  cases hb : buffer s i ch
  cases hb' : buffer s' i ch
  simp_all

theorem components_extensional : Extensional components := by
  intro s t alike
  have same : ∀ x, components.get x s = components.get x t := fun x => alike x trivial
  have headers : ∀ i, header (s.btConnections i) = header (t.btConnections i) :=
    fun i => congrFun (same .header) i
  have buffers : ∀ i ch, buffer s i ch = buffer t i ch :=
    fun i ch => buffer_eq (same (.payload ch)) (same (.ready ch))
  have tables : s.btConnections = t.btConnections := by
    funext i
    have h := header_eq_iff.mp (headers i)
    have hb : (s.btConnections i).readBuffer = (t.btConnections i).readBuffer :=
      funext fun ch => buffers i ch
    cases hs : s.btConnections i
    cases ht : t.btConnections i
    simp only [hs, ht] at h hb
    cases h
    simp_all
  have targets : s.readBufferMac = t.readBufferMac := funext fun ch => same (.target ch)
  have blink : s.blinkWriteResp = t.blinkWriteResp := same .blinkWriteResp
  obtain ⟨gMtu, gMtuStr⟩ := Prod.mk.inj (same .mtu)
  cases s
  cases t
  simp_all

theorem agree_headers {K : Set Component} (agree : Agree components K s s') (h : .header ∈ K)
    (i : Slot) : header (s.btConnections i) = header (s'.btConnections i) :=
  congrFun (agree .header h) i

section Headers

variable (same : ∀ i, header (t i) = header (t' i))
include same

theorem lookup_handle_header (handle : HciConHandle) :
    getBtConnectionUsingHandle t handle = getBtConnectionUsingHandle t' handle :=
  findSlot_congr fun i => by rw [show (t i).handle = (t' i).handle from (Header.mk.inj (same i)).1]

theorem lookup_mac_header (mac : Mac) :
    getBtConnectionUsingMac t mac = getBtConnectionUsingMac t' mac :=
  lookup_mac_congr (fun i => (Header.mk.inj (same i)).2.1) mac

theorem create_header (mac : Mac) (i : Slot) :
    header (createBtConnection t mac i) = header (createBtConnection t' mac i) := by
  have free : firstFreeSlot t = firstFreeSlot t' :=
    findSlot_congr fun i => by
      rw [show (t i).isEmpty = (t' i).isEmpty from (Header.mk.inj (same i)).2.2.2]
  have lookup := lookup_mac_header same mac
  cases hl : getBtConnectionUsingMac t mac with
  | some j =>
    rw [createBtConnection_of_present hl, createBtConnection_of_present (lookup ▸ hl)]
    exact same i
  | none =>
    rw [createBtConnection_of_absent hl, createBtConnection_of_absent (lookup ▸ hl), ← free]
    cases hf : firstFreeSlot t with
    | none => exact same i
    | some j =>
      by_cases hj : i = j
      · subst j
        have h := Header.mk.inj (same i)
        simp [header, h.1, h.2.2.1]
      · simpa [hj] using same i

theorem delete_header (i j : Slot) :
    header (deleteBtConnection t (.slot i) j) = header (deleteBtConnection t' (.slot i) j) := by
  have mac : ∀ k, (t k).mac = (t' k).mac := fun k => (Header.mk.inj (same k)).2.1
  rw [deleteBtConnection_slot, deleteBtConnection_slot]
  dsimp only
  rw [mac i, mac j]
  by_cases cleared : (t' j).mac = if j ≤ i then (t' i).mac else 0
  · rw [if_pos cleared, if_pos cleared]
    rfl
  · rw [if_neg cleared, if_neg cleared]
    exact same j

end Headers

/-! ## Frames -/

/-- The events that leave the MTU of the last exchange as it is. -/
theorem step_mtu {out : List Call} (hs : step s e = some (u, out))
    (other : ∀ handle mtu ret, e ≠ .mtuExchangeComplete handle mtu ret) :
    (u.gMtu, u.gMtuStr) = (s.gMtu, s.gMtuStr) := by
  have notified : ∀ (s : State) i ch ret,
      ((notifyIfReady s i ch ret).1.gMtu, (notifyIfReady s i ch ret).1.gMtuStr) =
        (s.gMtu, s.gMtuStr) := by
    intro s i ch ret
    simp only [notifyIfReady]
    split <;> rfl
  cases e with
  | hci p =>
    obtain ⟨rfl, _⟩ := total_step hs
    unfold hciPacketHandler
    split
    · dsimp only
      split
      · rfl
      · split <;> rfl
    · split <;> rfl
    · rfl
  | connect mac macType ret =>
    obtain ⟨rfl, _⟩ := total_step hs
    rfl
  | disconnect mac =>
    obtain ⟨hu, _⟩ := total_step hs
    rw [← hu, disconnect_state]
  | writeData mac data characteristic =>
    have hw := (writeData_eq s mac data characteristic).symm.trans hs
    cases ht : writeTarget s mac characteristic with
    | none =>
      rw [ht] at hw
      obtain ⟨rfl, _⟩ := total_step hw
      rfl
    | some target =>
      rw [ht] at hw
      simp only [storePayload, Option.map_eq_some_iff, Prod.mk.injEq] at hw
      obtain ⟨_, _, rfl, _⟩ := hw
      rfl
  | attRead conHandle attHandle offset valid bufferSize beyond =>
    obtain ⟨rfl, _⟩ := total_step hs
    simp only [attReadCallback]
    repeat' split
    all_goals rfl
  | attWrite conHandle attHandle data =>
    obtain ⟨rfl, _⟩ := total_step hs
    rfl
  | canSendNow ret =>
    obtain ⟨rfl, _⟩ := total_step hs
    unfold canSendNow
    split
    · rfl
    · dsimp only
      split
      · exact notified _ _ _ _
      · split
        · exact (notified _ _ _ _).trans (notified _ _ _ _)
        · exact (notified _ _ _ _).trans (notified _ _ _ _)
  | mtuExchangeComplete handle mtu ret => exact absurd rfl (other handle mtu ret)

theorem step_header {out : List Call} (hs : step s e = some (u, out))
    (hw : Component.header ∉ (footprint e).writes) (i : Slot) :
    header (u.btConnections i) = header (s.btConnections i) := by
  have h := step_table hs
  generalize u.btConnections = t' at h ⊢
  cases h with
  | keep _ _ same => exact (header_eq_iff.mpr (same i)).symm
  | claim mac macType ret => exact absurd rfl hw
  | complete handle mac j found => exact absurd rfl hw
  | release handle j found => exact absurd rfl hw

/-- A component outside the footprint's writes is left as it is. -/
theorem observe_frame {out : List Observation} (hs : observe s e = some (u, out))
    (x : Component) (hx : x ∉ (footprint e).writes) :
    components.get x u = components.get x s := by
  simp only [observe, Option.map_eq_some_iff, Prod.mk.injEq] at hs
  obtain ⟨⟨w, calls⟩, hs, rfl, _⟩ := hs
  cases x with
  | header => exact funext fun i => step_header hs hx i
  | payload ch =>
    funext i
    change ((buffer w i ch).data, (buffer w i ch).size) =
      ((buffer s i ch).data, (buffer s i ch).size)
    cases step_buffer hs i ch with
    | keep _ same => rw [same]
    | stored mac data characteristic target =>
      exact absurd ⟨ch, (writeTarget_some target).2, Or.inl rfl⟩ hx
    | served ret slot after => rw [after]
  | ready ch =>
    funext i
    change (buffer w i ch).ready = (buffer s i ch).ready
    cases step_buffer hs i ch with
    | keep _ same => rw [same]
    | stored mac data characteristic target =>
      exact absurd ⟨ch, (writeTarget_some target).2, Or.inr (Or.inl rfl)⟩ hx
    | served ret slot after => exact absurd (Or.inr ⟨ch, rfl⟩) hx
  | target ch =>
    change w.readBufferMac ch = s.readBufferMac ch
    rw [(step_globals hs).1]
    cases e with
    | writeData mac data characteristic =>
      simp only [readBufferMacAfter]
      cases ht : writeTarget s mac characteristic with
      | none => rfl
      | some target =>
        have hc : ch ≠ target.2 := by
          rintro rfl
          exact hx ⟨target.2, (writeTarget_some ht).2, Or.inr (Or.inr rfl)⟩
        exact Function.update_of_ne hc _ _
    | _ => rfl
  | blinkWriteResp =>
    change w.blinkWriteResp = s.blinkWriteResp
    rw [(step_globals hs).2]
    cases e with
    | attRead conHandle attHandle offset valid bufferSize beyond =>
      simp only [blinkWriteRespAfter]
      cases valid with
      | false => simp
      | true =>
        by_cases sensing : attHandle = Channel.sensing.valueHandle
        · exact absurd ⟨rfl, sensing, rfl⟩ hx
        · simp [sensing]
    | canSendNow ret => exact absurd (Or.inl rfl) hx
    | _ => rfl
  | mtu =>
    apply step_mtu hs
    rintro handle mtu ret rfl
    exact hx rfl

/-! ## Locality -/

section Locality

variable (same : ∀ i, header (s.btConnections i) = header (s'.btConnections i))
include same

theorem handle_eq (i : Slot) : (s.btConnections i).handle = (s'.btConnections i).handle :=
  (Header.mk.inj (same i)).1

theorem mac_eq (i : Slot) : (s.btConnections i).mac = (s'.btConnections i).mac :=
  (Header.mk.inj (same i)).2.1

theorem hciPacketHandler_locality (p : HciPacket) :
    (hciPacketHandler s p).2 = (hciPacketHandler s' p).2 ∧
      ∀ i, header ((hciPacketHandler s p).1.btConnections i) =
        header ((hciPacketHandler s' p).1.btConnections i) := by
  cases p with
  | leConnectionComplete status handle mac =>
    by_cases hst : status = 0
    · have created := create_header same mac
      have lookup := lookup_mac_header created mac
      simp only [hciPacketHandler, hst, ne_eq, not_true_eq_false, if_false, lookup]
      cases getBtConnectionUsingMac (createBtConnection s'.btConnections mac) mac with
      | none => exact ⟨rfl, created⟩
      | some j =>
        refine ⟨rfl, ?_⟩
        intro i
        by_cases hj : i = j
        · subst j
          have h := Header.mk.inj (created i)
          simp [header, h.2]
        · simpa [hj] using created i
    · simpa [hciPacketHandler, hst] using same
  | disconnectionComplete handle =>
    have lookup := lookup_handle_header same handle
    simp only [hciPacketHandler, lookup]
    cases getBtConnectionUsingHandle s'.btConnections handle with
    | none => exact ⟨rfl, same⟩
    | some i =>
      dsimp only
      rw [mac_eq same i]
      exact ⟨rfl, delete_header same i⟩
  | other => exact ⟨rfl, same⟩

theorem writeTarget_eq (mac : Mac) (characteristic : Characteristic) :
    writeTarget s mac characteristic = writeTarget s' mac characteristic := by
  rw [writeTarget, writeTarget, lookup_mac_header same mac]

/-- A stored payload: the same request, and the same new contents where the old ones were. -/
theorem storePayload_locality {i : Slot} {mac : Mac} {data : List UInt8} {calls : List Call}
    (h : storePayload s i mac data ch = some (u, calls)) :
    ∃ u', storePayload s' i mac data ch = some (u', calls) ∧
      ∀ x, x = .payload ch ∨ x = .ready ch ∨ x = .target ch →
        components.get x s = components.get x s' → components.get x u = components.get x u' := by
  have defined : storePayload s' i mac data ch ≠ none := by
    intro hn
    rw [storePayload_none_iff] at hn
    exact absurd (storePayload_stores h).1.fits (by omega)
  obtain ⟨⟨u', calls'⟩, h'⟩ := Option.ne_none_iff_exists'.mp defined
  have requests : calls' = calls := by
    rw [(storePayload_stores h).2, (storePayload_stores h').2, handle_eq same i]
  rw [requests] at h'
  refine ⟨u', h', ?_⟩
  have stores := (storePayload_stores h).1
  have stores' := (storePayload_stores h').1
  rintro x (rfl | rfl | rfl) before
  · rw [payload_iff] at before ⊢
    intro j
    by_cases hj : j = i
    · subst j
      simp only [storePayload, Option.map_eq_some_iff, Prod.mk.injEq] at h h'
      obtain ⟨stored, hm, rfl, _⟩ := h
      obtain ⟨stored', hm', rfl, _⟩ := h'
      have old : ((s.btConnections i).readBuffer ch).data =
          ((s'.btConnections i).readBuffer ch).data := (before i).1
      rw [old, hm'] at hm
      cases hm
      constructor <;> simp [buffer, State.setReadBuffer]
    · rw [stores.others j ch (by simp [hj]), stores'.others j ch (by simp [hj])]
      exact before j
  · rw [ready_iff] at before ⊢
    intro j
    by_cases hj : j = i
    · subst j
      rw [stores.ready, stores'.ready]
    · rw [stores.others j ch (by simp [hj]), stores'.others j ch (by simp [hj])]
      exact before j
  · rw [target_iff, stores.readBufferMac, stores'.readBufferMac]
    simp

theorem attReadCallback_locality (conHandle : HciConHandle) (attHandle : UInt16) (offset : ℕ)
    (valid : Bool) (bufferSize : ℕ) (beyond : ℕ → UInt8)
    (payload : ∀ ch : Channel, attHandle = ch.valueHandle → ∀ i,
      (buffer s i ch).data = (buffer s' i ch).data ∧ (buffer s i ch).size = (buffer s' i ch).size)
    (mtu : attHandle = infoValueHandle → s.gMtuStr = s'.gMtuStr) :
    let r := attReadCallback s conHandle attHandle offset valid bufferSize beyond
    let r' := attReadCallback s' conHandle attHandle offset valid bufferSize beyond
    r.calls = r'.calls ∧ r.ret = r'.ret ∧ r.written = r'.written := by
  have lookup := lookup_handle_header same conHandle
  dsimp only
  by_cases info : attHandle = infoValueHandle
  · have value : infoValue s conHandle = infoValue s' conHandle := by
      rw [infoValue, infoValue, lookup, mtu info]
    cases valid <;> simp [attReadCallback, info, value]
  · cases hl : getBtConnectionUsingHandle s'.btConnections conHandle with
    | none => simp [attReadCallback, info, lookup, hl]
    | some i =>
      have handle := handle_eq same i
      by_cases sensing : attHandle = Channel.sensing.valueHandle
      · obtain ⟨data, size⟩ := payload .sensing sensing i
        simp only [buffer] at data size
        subst attHandle
        cases valid <;> simp [attReadCallback, info, lookup, hl, data, size, handle]
      · by_cases link : attHandle = Channel.link.valueHandle
        · obtain ⟨data, size⟩ := payload .link link i
          simp only [buffer] at data size
          subst attHandle
          cases valid <;> simp [attReadCallback, info, sensing, lookup, hl, data, size]
        · simp [attReadCallback, info, sensing, link, lookup, hl]

theorem attWriteCallback_locality (conHandle : HciConHandle) (attHandle : UInt16)
    (data : List UInt8) :
    attWriteCallback s conHandle attHandle data = attWriteCallback s' conHandle attHandle data := by
  simp only [attWriteCallback, lookup_handle_header same conHandle]
  cases getBtConnectionUsingHandle s'.btConnections conHandle with
  | none => rfl
  | some i => simp only [mac_eq same i]

theorem disconnect_locality (mac : Mac) : (disconnect s mac).2 = (disconnect s' mac).2 := by
  simp only [HmkitCoreConnectivityHal.disconnect, lookup_mac_header same mac]
  cases getBtConnectionUsingMac s'.btConnections mac with
  | none => rfl
  | some i => simp only [handle_eq same i]

theorem mtuExchangeComplete_locality (handle : HciConHandle) (mtu : UInt16) (ret : UInt32) :
    let r := mtuExchangeComplete s handle mtu ret
    let r' := mtuExchangeComplete s' handle mtu ret
    r.2 = r'.2 ∧ (components.get .mtu s = components.get .mtu s' →
      components.get .mtu r.1 = components.get .mtu r'.1) := by
  simp only [mtuExchangeComplete, lookup_handle_header same handle]
  cases getBtConnectionUsingHandle s'.btConnections handle with
  | none => exact ⟨rfl, id⟩
  | some i =>
    dsimp only
    rw [mac_eq same i]
    exact ⟨rfl, fun _ => rfl⟩

theorem servedSlot_eq (target : ∀ ch, s.readBufferMac ch = s'.readBufferMac ch) (ch : Channel) :
    servedSlot s ch = servedSlot s' ch := by
  cases ch <;> simp only [servedSlot, target, lookup_mac_header same]

theorem canSendNow_locality (buffers : ∀ i ch, buffer s i ch = buffer s' i ch)
    (target : ∀ ch, s.readBufferMac ch = s'.readBufferMac ch)
    (blink : s.blinkWriteResp = s'.blinkWriteResp) (ret : Channel → ℤ) :
    (canSendNow s ret).2 = (canSendNow s' ret).2 ∧
      (∀ i ch, buffer (canSendNow s ret).1 i ch = buffer (canSendNow s' ret).1 i ch) ∧
      (canSendNow s ret).1.blinkWriteResp = (canSendNow s' ret).1.blinkWriteResp := by
  have slots := servedSlot_eq same target
  have calls : ∀ ch, served s ch (ret ch) = served s' ch (ret ch) := by
    intro ch
    unfold served
    rw [slots ch]
    cases servedSlot s' ch with
    | none => rfl
    | some i => simp only [buffers i ch, handle_eq same i]
  have response : writeResponse s = writeResponse s' := by
    rw [writeResponse, writeResponse, slots, blink, target]
  refine ⟨?_, ?_, ?_⟩
  · rw [canSendNow_calls, canSendNow_calls, calls, calls, response]
  · intro i ch
    rw [canSendNow_buffer, canSendNow_buffer, slots, buffers]
  · rw [canSendNow_blinkWriteResp, canSendNow_blinkWriteResp, slots, blink]

end Locality

theorem observe_some {calls : List Call} (hs : step s e = some (u, calls)) :
    observe s e = some (u, readsOf s e ++ calls.map .call) := by
  simp [observe, hs]

/-! ## Inside the arrays -/

theorem observeInside_inv {out : List Observation} (h : observeInside s e = some (u, out)) :
    inside s e = true ∧ observe s e = some (u, out) := by
  unfold observeInside at h
  split at h
  · rename_i within
    exact ⟨within, h⟩
  · cases h

theorem inside_eq (same : ∀ i, header (s.btConnections i) = header (s'.btConnections i))
    (e : Event) : inside s e = inside s' e := by
  cases e with
  | attRead conHandle attHandle offset valid bufferSize beyond =>
    simp only [inside, copies, lookup_handle_header same conHandle]
  | _ => rfl

/-- What lies behind an array makes no difference to a read inside it. -/
theorem attReadCallback_beyond {conHandle : HciConHandle} {attHandle : UInt16} {offset : ℕ}
    {valid : Bool} {bufferSize : ℕ} {beyond : ℕ → UInt8}
    (within : inside s (.attRead conHandle attHandle offset valid bufferSize beyond) = true)
    (beyond' : ℕ → UInt8) :
    attReadCallback s conHandle attHandle offset valid bufferSize beyond =
      attReadCallback s conHandle attHandle offset valid bufferSize beyond' := by
  cases copied : copies s conHandle attHandle valid with
  | true =>
    have fits : offset + bufferSize ≤ readBufferLength := by simpa [inside, copied] using within
    simp only [attReadCallback, Buffer.copyOut_inside _ fits]
  | false =>
    simp only [copies, Bool.and_eq_false_iff, Option.isSome_eq_false_iff, Option.isNone_iff_eq_none,
      Bool.or_eq_false_iff, beq_eq_false_iff_ne] at copied
    rcases copied with (rfl | unknown) | ⟨link, sensing⟩
    · simp [attReadCallback]
    · simp [attReadCallback, unknown]
    · simp [attReadCallback, link, sensing]

theorem observeInside_blind : Blind observeInside erased := by
  intro s e
  cases e with
  | attRead conHandle attHandle offset valid bufferSize beyond =>
    have within : inside s (erased (.attRead conHandle attHandle offset valid bufferSize beyond)) =
        inside s (.attRead conHandle attHandle offset valid bufferSize beyond) := rfl
    unfold observeInside
    rw [within]
    split
    · rename_i within
      simp only [erased, observe, step, readsOf, attReadCallback_beyond within 0]
    · rfl
  | _ => rfl

/-- Inside the arrays the handlers read and write what their footprints say. -/
theorem hasFootprint (e : Event) : HasFootprint components observeInside e (footprint e) := by
  apply HasFootprint.of_writes
  · intro s u out hs
    exact observe_frame (observeInside_inv hs).2
  intro s s' u out agree observed
  have same : ∀ i, header (s.btConnections i) = header (s'.btConnections i) := by
    apply fun h => agree_headers agree h
    cases e <;> simp [footprint]
  obtain ⟨within, hs⟩ := observeInside_inv observed
  clear observed
  rw [inside_eq same] at within
  rw [observeInside, if_pos within]
  simp only [observe, Option.map_eq_some_iff, Prod.mk.injEq] at hs
  obtain ⟨⟨w, calls⟩, hs, rfl, rfl⟩ := hs
  cases e with
  | hci p =>
    obtain ⟨rfl, rfl⟩ := total_step hs
    obtain ⟨out, headers⟩ := hciPacketHandler_locality same p
    refine ⟨(hciPacketHandler s' p).1, by rw [observe_some rfl, out]; rfl, ?_⟩
    rintro x rfl _
    exact funext headers
  | connect mac macType ret =>
    obtain ⟨rfl, rfl⟩ := total_step hs
    refine ⟨(connect s' mac macType ret).1, observe_some rfl, ?_⟩
    rintro x rfl _
    exact funext (create_header same mac)
  | disconnect mac =>
    obtain ⟨rfl, rfl⟩ := total_step hs
    refine ⟨(disconnect s' mac).1, by rw [observe_some rfl, disconnect_locality same]; rfl, ?_⟩
    rintro x ⟨⟩
  | writeData mac data characteristic =>
    have hw := (writeData_eq s mac data characteristic).symm.trans hs
    have hw' := writeData_eq s' mac data characteristic
    rw [writeTarget_eq same] at hw
    cases ht : writeTarget s' mac characteristic with
    | none =>
      rw [ht] at hw hw'
      obtain ⟨rfl, rfl⟩ := total_step hw
      exact ⟨s', observe_some hw', fun x _ before => before⟩
    | some target =>
      obtain ⟨i, ch⟩ := target
      rw [ht] at hw hw'
      obtain ⟨u', hu', stored⟩ := storePayload_locality same hw
      refine ⟨u', observe_some (hw'.trans hu'), ?_⟩
      rintro x ⟨c, hc, hx⟩ before
      rw [(writeTarget_some ht).2] at hc
      cases hc
      exact stored x hx before
  | attRead conHandle attHandle offset valid bufferSize beyond =>
    obtain ⟨rfl, rfl⟩ := total_step hs
    obtain ⟨calls, ret, bytes⟩ := attReadCallback_locality same conHandle attHandle
      offset valid bufferSize beyond
      (fun ch hch => payload_iff.mp (agree (.payload ch) (Or.inr (Or.inr ⟨ch, hch, rfl⟩))))
      (fun info => (mtu_iff.mp (agree .mtu (Or.inr (Or.inl ⟨info, rfl⟩)))).2)
    let r' := attReadCallback s' conHandle attHandle offset valid bufferSize beyond
    refine ⟨r'.state, ?_, ?_⟩
    · rw [observe_some rfl]
      simp only [readsOf, calls, ret, bytes, r']
    · rintro x ⟨_, _, rfl⟩ before
      rw [blinkWriteResp_iff] at before ⊢
      rw [(attReadCallback_globals ..).2, (attReadCallback_globals ..).2, before,
        lookup_handle_header same]
  | attWrite conHandle attHandle data =>
    obtain ⟨rfl, rfl⟩ := total_step hs
    refine ⟨s', by rw [observe_some rfl, attWriteCallback_locality same]; rfl, ?_⟩
    rintro x ⟨⟩
  | canSendNow ret =>
    obtain ⟨rfl, rfl⟩ := total_step hs
    have read : ∀ x, x ≠ Component.mtu → components.get x s = components.get x s' :=
      fun x hx => agree x hx
    have buffers : ∀ i ch, buffer s i ch = buffer s' i ch :=
      fun i ch => buffer_eq (read (.payload ch) (by simp)) (read (.ready ch) (by simp))
    obtain ⟨calls, after, blink⟩ := canSendNow_locality same buffers
      (fun ch => target_iff.mp (read (.target ch) (by simp)))
      (blinkWriteResp_iff.mp (read .blinkWriteResp (by simp))) ret
    refine ⟨(canSendNow s' ret).1, by rw [observe_some rfl, calls]; rfl, ?_⟩
    rintro x (rfl | ⟨ch, rfl⟩) _
    · exact blinkWriteResp_iff.mpr blink
    · exact ready_iff.mpr fun i => by rw [after i ch]
  | mtuExchangeComplete handle mtu ret =>
    obtain ⟨rfl, rfl⟩ := total_step hs
    obtain ⟨out, written⟩ := mtuExchangeComplete_locality same handle mtu ret
    refine ⟨(mtuExchangeComplete s' handle mtu ret).1, by rw [observe_some rfl, out]; rfl, ?_⟩
    rintro x rfl before
    exact written before

end HalFootprints
