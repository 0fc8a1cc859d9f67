import HmkitWorkspace.FixedSlots
import HmkitWorkspace.ByteBuffers
import Mathlib.Data.Fin.VecNotation

/-! # The BLE connectivity HAL

The connection table of `hmkit_core_connectivity_hal.c` and every handler that reads or
writes it. Handlers are functions from the static data of the file to its new contents
and the calls made on the way; results of BTstack and of the core are part of the event.
C flags holding 0 or 1 are `Bool`. -/
namespace HmkitCoreConnectivityHal

open FixedSlots ByteBuffers

/-- `uint8_t mac[6]`: `memcmp` of six bytes is equality, `memset` to zero is `0`. -/
abbrev Mac := Buffer 6

abbrev HciConHandle := UInt16

/-- `hmkit_core_characteristic`, by the enumerators the source uses. -/
inductive Characteristic where
  | linkRead
  | linkWrite
  | alive
  | info
  | sensingRead
  | sensingWrite
  deriving DecidableEq, Repr

/-- The two notifying characteristics: the fields with suffix 02 and those with suffix 06. -/
inductive Channel where
  | link
  | sensing
  deriving DecidableEq, Repr

/-- Value handles of characteristics 0102 and 0106 in `hm_service_gatt.h`. -/
def Channel.valueHandle : Channel → UInt16
  | .link => 0x0003
  | .sensing => 0x000d

def Channel.characteristic : Channel → Characteristic
  | .link => .linkRead
  | .sensing => .sensingRead

/-- Value handles of characteristics 0103, 0105 and 0107. -/
def linkWriteValueHandle : UInt16 := 0x0006
def infoValueHandle : UInt16 := 0x000b
def sensingWriteValueHandle : UInt16 := 0x0010

/-- `bt_character_t`; the id is `none` until `clear_connection_data` assigns one. -/
structure BtCharacter where
  characterId : Option Characteristic
  isAvailable : Bool
  isConfigured : Bool
  deriving DecidableEq, Repr

/-- Length of `read_buffer_02` and of `read_buffer_06`. -/
abbrev readBufferLength : ℕ := 500

/-- `read_buffer_0X`, `read_buffer_0X_size` and `read_buffer_0X_ready` of one slot. -/
structure ReadBuffer where
  data : Buffer readBufferLength
  size : ℕ
  ready : Bool

/-- The bytes named by the pair `(read_buffer_0X, read_buffer_0X_size)`. -/
def ReadBuffer.value (b : ReadBuffer) : List UInt8 := b.data.bytes.take b.size

/-- `bt_connection_t`. As in the source, `isEmpty` is set in an occupied slot. -/
structure BtConnection where
  handle : HciConHandle
  mac : Mac
  characters : Fin 6 → BtCharacter
  isEmpty : Bool
  readBuffer : Channel → ReadBuffer

abbrev connectionCount : ℕ := 10

abbrev Slot := Fin connectionCount

abbrev BtConnections := Slot → BtConnection

/-- The mutable static data of the file. -/
structure State where
  btConnections : BtConnections
  blinkWriteResp : Bool
  readBufferMac : Channel → Mac
  gMtu : UInt16
  gMtuStr : Buffer 6

/-- Calls into BTstack, with the result it returned, and upcalls into the core. -/
inductive Call where
  | linkConnect (mac : Mac)
  | linkDisconnect (mac : Mac)
  | linkIncomingData (data : List UInt8) (mac : Mac) (characteristic : Characteristic)
  | linkWriteResponse (mac : Mac) (characteristic : Characteristic)
  | setMtu (mac : Mac) (mtu : UInt16) (ret : UInt32)
  | requestCanSendNow (handle : HciConHandle)
  | notify (handle : HciConHandle) (attHandle : UInt16) (value : List UInt8) (ret : ℤ)
  | gapConnect (mac : Mac) (macType : UInt8) (ret : UInt8)
  | gapDisconnect (handle : HciConHandle)
  deriving DecidableEq

/-! ## The connection table -/

def characterIds : Fin 6 → Characteristic :=
  ![.linkRead, .linkWrite, .alive, .info, .sensingRead, .sensingWrite]

def clearConnectionData (c : BtConnection) : BtConnection :=
  { c with
    mac := 0
    isEmpty := false
    handle := 0
    characters := fun i => ⟨some (characterIds i), false, false⟩ }

def getBtConnectionUsingHandle (t : BtConnections) (handle : HciConHandle) : Option Slot :=
  findSlot t fun c => c.handle == handle

def getBtConnectionUsingMac (t : BtConnections) (mac : Mac) : Option Slot :=
  findSlot t fun c => c.mac == mac

def isBtConnectionAvailable (t : BtConnections) (mac : Mac) : Bool :=
  (findSlot t fun c => c.mac == mac).isSome

/-- The slot a new connection takes: the first one whose `is_empty` is 0. -/
def firstFreeSlot (t : BtConnections) : Option Slot := findSlot t fun c => !c.isEmpty

def createBtConnection (t : BtConnections) (mac : Mac) : BtConnections :=
  if isBtConnectionAvailable t mac then t
  else
    match firstFreeSlot t with
    | some i => Function.update t i { t i with mac := mac, isEmpty := true }
    | none => t

/-- A `uint8_t *mac` argument: a pointer into the table, or a private copy. -/
inductive MacPointer where
  | slot (i : Slot)
  | copy (mac : Mac)

def MacPointer.deref (t : BtConnections) : MacPointer → Mac
  | .slot i => (t i).mac
  | .copy mac => mac

/-- The pointer is read again in every iteration, after the earlier ones have written. -/
def deleteBtConnection (t : BtConnections) (mac : MacPointer) : BtConnections :=
  forEach connectionCount (fun i t =>
    if (t i).mac = mac.deref t then Function.update t i (clearConnectionData (t i)) else t) t

def zeroSlot : BtConnection where
  handle := 0
  mac := 0
  characters := fun _ => ⟨none, false, false⟩
  isEmpty := false
  readBuffer := fun _ => ⟨0, 0, false⟩

/-- Static storage before `hmkit_core_connectivity_hal_init`. -/
def staticData : State where
  btConnections := fun _ => zeroSlot
  blinkWriteResp := false
  readBufferMac := fun _ => 0
  gMtu := 0
  gMtuStr := 0

/-- `hmkit_core_connectivity_hal_init`; starting the radio touches none of this data. -/
def init (s : State) : State :=
  { s with
    btConnections := forEach connectionCount
      (fun i t => Function.update t i (clearConnectionData (t i))) s.btConnections }

/-! ## Packets from the controller -/

/-- HCI event packets by the fields the handler reads; the remaining ones only print. -/
inductive HciPacket where
  | leConnectionComplete (status : UInt8) (handle : HciConHandle) (address : Mac)
  | disconnectionComplete (handle : HciConHandle)
  | other

def hciPacketHandler (s : State) : HciPacket → State × List Call
  | .leConnectionComplete status handle address =>
    if status ≠ 0 then (s, [])
    else
      let t := createBtConnection s.btConnections address
      match getBtConnectionUsingMac t address with
      | none => ({ s with btConnections := t }, [])
      | some i =>
        ({ s with btConnections := Function.update t i { t i with handle := handle } },
          [.linkConnect address])
  | .disconnectionComplete handle =>
    match getBtConnectionUsingHandle s.btConnections handle with
    | none => (s, [])
    | some i =>
      ({ s with btConnections := deleteBtConnection s.btConnections (.slot i) },
        [.linkDisconnect (s.btConnections i).mac])
  | .other => (s, [])

/-! ## Calls from the core -/

def State.setReadBuffer (s : State) (i : Slot) (ch : Channel) (b : ReadBuffer) : State :=
  { s with
    btConnections := Function.update s.btConnections i
      { s.btConnections i with
        readBuffer := Function.update (s.btConnections i).readBuffer ch b } }

/-- The two branches of `hmkit_core_connectivity_hal_write_data`. The length of `data` is
not compared with the array: a longer payload is undefined behaviour. -/
def storePayload (s : State) (i : Slot) (mac : Mac) (data : List UInt8) (ch : Channel) :
    Option (State × List Call) :=
  (((s.btConnections i).readBuffer ch).data.memcpy data).map fun stored =>
    ({ s.setReadBuffer i ch ⟨stored, data.length, true⟩ with
        readBufferMac := Function.update s.readBufferMac ch mac },
      [.requestCanSendNow (s.btConnections i).handle])

/-- `hmkit_core_connectivity_hal_write_data`. -/
def writeData (s : State) (mac : Mac) (data : List UInt8) (characteristic : Characteristic) :
    Option (State × List Call) :=
  match getBtConnectionUsingMac s.btConnections mac with
  | none => some (s, [])
  | some i =>
    match characteristic with
    | .sensingRead => storePayload s i mac data .sensing
    | .linkRead => storePayload s i mac data .link
    | _ => some (s, [])

/-- `hmkit_core_connectivity_hal_connect`; the result of `gap_connect` is not looked at. -/
def connect (s : State) (mac : Mac) (macType gapRet : UInt8) : State × List Call :=
  ({ s with btConnections := createBtConnection s.btConnections mac },
    [.gapConnect mac macType gapRet])

/-- `hmkit_core_connectivity_hal_disconnect`. -/
def disconnect (s : State) (mac : Mac) : State × List Call :=
  match getBtConnectionUsingMac s.btConnections mac with
  | none => (s, [])
  | some i => (s, [.gapDisconnect (s.btConnections i).handle])

/-! ## The attribute server -/

/-- What the read callback leaves behind: its return value and the bytes it stored from
`buffer[0]` on. -/
structure ReadResult where
  state : State
  calls : List Call
  ret : ℕ
  written : List UInt8

/-- `info` before the MTU is copied in: "PySdk" and zero padding. -/
def infoTemplate : List UInt8 := [0x50, 0x79, 0x53, 0x64, 0x6b, 0, 0, 0, 0, 0, 0, 0, 0, 0, 0, 0]

def infoValue (s : State) (conHandle : HciConHandle) : List UInt8 :=
  match getBtConnectionUsingHandle s.btConnections conHandle with
  | some _ => overwrite infoTemplate (15 - 6) s.gMtuStr.bytes
  | none => infoTemplate

/-- `buffer` tells whether the buffer pointer is non-NULL. The bytes copied are governed by
`bufferSize` alone, so the copy may run over the end of the array. -/
def attReadCallback (s : State) (conHandle : HciConHandle) (attHandle : UInt16) (offset : ℕ)
    (buffer : Bool) (bufferSize : ℕ) (beyond : ℕ → UInt8) : ReadResult :=
  if attHandle = infoValueHandle then
    if buffer then ⟨s, [], 16, infoValue s conHandle⟩ else ⟨s, [], 16, []⟩
  else
    match getBtConnectionUsingHandle s.btConnections conHandle with
    | none => ⟨s, [], 0, []⟩
    | some i =>
      let connection := s.btConnections i
      if attHandle = Channel.sensing.valueHandle then
        let b := connection.readBuffer .sensing
        if buffer then
          ⟨{ s with blinkWriteResp := true }, [.requestCanSendNow connection.handle],
            bufferSize, b.data.copyOut beyond offset bufferSize⟩
        else ⟨s, [], b.size, []⟩
      else if attHandle = Channel.link.valueHandle then
        let b := connection.readBuffer .link
        if buffer then ⟨s, [], bufferSize, b.data.copyOut beyond offset bufferSize⟩
        else ⟨s, [], b.size, []⟩
      else ⟨s, [], 0, []⟩

def attWriteCallback (s : State) (conHandle : HciConHandle) (attHandle : UInt16)
    (data : List UInt8) : List Call :=
  match getBtConnectionUsingHandle s.btConnections conHandle with
  | none => []
  | some i =>
    let mac := (s.btConnections i).mac
    (if attHandle = sensingWriteValueHandle then [.linkIncomingData data mac .sensingWrite]
      else []) ++
    (if attHandle = linkWriteValueHandle then [.linkIncomingData data mac .linkWrite] else [])

/-- Serves one channel of a slot: the flag falls before the notification is attempted. -/
def notifyIfReady (s : State) (i : Slot) (ch : Channel) (ret : ℤ) : State × List Call :=
  let connection := s.btConnections i
  let b := connection.readBuffer ch
  if b.ready then
    (s.setReadBuffer i ch { b with ready := false },
      [.notify connection.handle ch.valueHandle b.value ret])
  else (s, [])

/-- `attr_packet_handler` on `ATT_EVENT_CAN_SEND_NOW`; `ret ch` is what BTstack answers to a
notification on `ch`. A failed lookup returns from the handler at once. -/
def canSendNow (s : State) (ret : Channel → ℤ) : State × List Call :=
  match getBtConnectionUsingMac s.btConnections (s.readBufferMac .link) with
  | none => (s, [])
  | some i =>
    let r := notifyIfReady s i .link (ret .link)
    match getBtConnectionUsingMac r.1.btConnections (r.1.readBufferMac .sensing) with
    | none => r
    | some j =>
      let r' := notifyIfReady r.1 j .sensing (ret .sensing)
      if r'.1.blinkWriteResp then
        ({ r'.1 with blinkWriteResp := false },
          r.2 ++ r'.2 ++ [.linkWriteResponse (r'.1.readBufferMac .sensing) .linkWrite])
      else (r'.1, r.2 ++ r'.2)

/-- `'0' + x` stored in a `uint8_t`. -/
def digit (x : ℕ) : UInt8 := UInt8.ofNat (48 + x)

def convertMtuStr (mtu : UInt16) : Buffer 6 :=
  let m := mtu.toNat
  if m > 99 then ⟨[0x4d, 0x54, 0x55, digit (m / 100), digit (m % 100 / 10), digit (m % 10)], rfl⟩
  else ⟨[0x4d, 0x54, 0x55, digit 0, digit (m / 10), digit (m % 10)], rfl⟩

/-- `attr_packet_handler` on `ATT_EVENT_MTU_EXCHANGE_COMPLETE`; `ret` is what
`hmkit_core_set_mtu` returns, narrowed to 16 bits when it is stored in `g_mtu`. -/
def mtuExchangeComplete (s : State) (handle : HciConHandle) (mtu : UInt16) (ret : UInt32) :
    State × List Call :=
  match getBtConnectionUsingHandle s.btConnections handle with
  | none => (s, [])
  | some i =>
    let gMtu := if ret = 0 then mtu else ret.toUInt16
    ({ s with gMtu := gMtu, gMtuStr := convertMtuStr gMtu },
      [.setMtu (s.btConnections i).mac mtu ret])

/-! ## One event -/

inductive Event where
  | hci (packet : HciPacket)
  | connect (mac : Mac) (macType gapRet : UInt8)
  | disconnect (mac : Mac)
  | writeData (mac : Mac) (data : List UInt8) (characteristic : Characteristic)
  | attRead (conHandle : HciConHandle) (attHandle : UInt16) (offset : ℕ) (buffer : Bool)
      (bufferSize : ℕ) (beyond : ℕ → UInt8)
  | attWrite (conHandle : HciConHandle) (attHandle : UInt16) (data : List UInt8)
  | canSendNow (ret : Channel → ℤ)
  | mtuExchangeComplete (handle : HciConHandle) (mtu : UInt16) (ret : UInt32)

/-- The whole file as a system: only an oversized payload has no defined successor. -/
def step (s : State) : Event → Option (State × List Call)
  | .hci packet => some (hciPacketHandler s packet)
  | .connect mac macType gapRet => some (connect s mac macType gapRet)
  | .disconnect mac => some (disconnect s mac)
  | .writeData mac data characteristic => writeData s mac data characteristic
  | .attRead conHandle attHandle offset buffer bufferSize beyond =>
    let r := attReadCallback s conHandle attHandle offset buffer bufferSize beyond
    some (r.state, r.calls)
  | .attWrite conHandle attHandle data => some (s, attWriteCallback s conHandle attHandle data)
  | .canSendNow ret => some (canSendNow s ret)
  | .mtuExchangeComplete handle mtu ret => some (mtuExchangeComplete s handle mtu ret)

/-- The state in which the radio starts. -/
def initial : State := init staticData

end HmkitCoreConnectivityHal
