import HmkitWorkspace.GattProfile
import HmkitWorkspace.ScanFormats

/-! # Bringing up the controller

`btstack_start` and what it reads of the Raspberry Pi it runs on, up to the point where the
controller is told to go on the air. The calls of BTstack are outputs. -/
namespace BtstackStart

open TransitionRuns ByteBuffers ScanFormats GattProfile

abbrev BdAddr := Buffer 6

/-- What `raspi_get_model` tells apart. -/
inductive Model where
  | zeroW
  | other

/-- A file that cannot be opened is `none`. -/
structure Board where
  /-- /proc/device-tree/serial-number -/
  serialNumber : Option (List UInt8)
  /-- /proc/device-tree/aliases/uart0 -/
  uart0 : Option (List UInt8)
  /-- /proc/device-tree/aliases/serial1 -/
  serial1 : Option (List UInt8)
  /-- /proc/device-tree/soc/gpio@7e200000/uart0_pins/brcm,pins -/
  pins : Option (List UInt8)
  model : Model

inductive UartType where
  | invalid
  | softwareNoFlow
  | hardwareNoFlow
  | hardwareFlow

structure TransportConfig where
  baudrateInit : ℕ
  baudrateMain : ℕ
  flowcontrol : Bool
  deviceName : Option String
  deriving DecidableEq

structure UartConfig where
  baudrate : ℕ
  flowcontrol : Bool
  deviceName : Option String
  deriving DecidableEq

inductive Transport where
  | h4
  | h5
  deriving DecidableEq

inductive Call where
  | btstackMemoryInit
  | hciDumpOpen
  | btstackRunLoopInit
  | chipsetInit (config : TransportConfig)
  | chipsetSetHcdFolderPath
  | uartInit (config : UartConfig)
  | hciInit (transport : Transport) (config : TransportConfig)
  | hciSetBdAddr (addr : BdAddr)
  | hciSetChipset
  | hciAddEventHandler
  | signalSigint
  | setBtRegEnPin (pin : ℤ)
  | controlInit
  | controlOff
  | usleep
  | controlOn
  | chipsetSetDeviceName
  | downloadFirmware (baudrate : ℕ)
  | l2capInit
  | leDeviceDbInit
  | smInit
  | attServerInit (profile : List UInt8)
  | attServerRegisterPacketHandler
  | setTimer
  | addTimer
  | hciPowerOn
  deriving DecidableEq

structure State where
  transportConfig : TransportConfig
  uartConfig : UartConfig
  /-- BTstack has `phase2` to call. -/
  downloading : Bool
  /-- The timer of `heartbeat_handler` is running. -/
  heartbeat : Bool

def initial : State := ⟨⟨115200, 0, false, none⟩, ⟨0, false, none⟩, false, false⟩

/-- `fscanf` with `%*08x%*02x` and three times `%02hhx`. -/
def serialFormat : List Conversion :=
  [⟨8, false⟩, ⟨2, false⟩, ⟨2, true⟩, ⟨2, true⟩, ⟨2, true⟩]

/-- Bytes that are not converted keep the value they had. -/
def raspiGetBdAddr (board : Board) (addr : BdAddr) : BdAddr :=
  match board.serialNumber with
  | none => addr
  | some content =>
    let byte i := match (scan serialFormat content)[i]? with
      | some value => UInt8.ofNat (value % 256).toNat
      | none => addr.bytes.getD (3 + i) 0
    ⟨[0xb8, 0x27, 0xeb, byte 0 ^^^ 0xaa, byte 1 ^^^ 0xaa, byte 2 ^^^ 0xaa], rfl⟩

def raspiGetBluetoothUartType (board : Board) : UartType :=
  match board.uart0 with
  | none => .invalid
  | some uart0 =>
    match board.serial1 with
    | none => .invalid
    | some serial1 =>
      if strncmpEqual 21 (scanWord 20 uart0) (scanWord 20 serial1) then
        match board.pins with
        | none => .invalid
        | some pins =>
          if min 16 pins.length / 4 = 4 then .hardwareFlow else .hardwareNoFlow
      else .softwareNoFlow

def btstackInits : List Call :=
  [.l2capInit, .leDeviceDbInit, .smInit, .attServerInit hmProfileData,
    .attServerRegisterPacketHandler, .setTimer, .addTimer, .hciPowerOn]

/-- `btstack_start` from the chipset driver on. -/
def startWith (s : State) (config : TransportConfig) (addr : BdAddr) (btRegEnPin : ℤ) :
    State × List Call :=
  let uartConfig := ⟨config.baudrateInit, config.flowcontrol, config.deviceName⟩
  let calls := [.chipsetInit config, .chipsetSetHcdFolderPath, .uartInit uartConfig,
    .hciInit (if config.flowcontrol then .h4 else .h5) config, .hciSetBdAddr addr,
    .hciSetChipset, .hciAddEventHandler, .signalSigint,
    -- power_cycle is true in this configuration of BTstack
    .setBtRegEnPin btRegEnPin, .controlInit, .controlOff, .usleep, .controlOn]
  if config.flowcontrol then
    (⟨config, uartConfig, s.downloading, true⟩, calls ++ btstackInits)
  else
    (⟨config, uartConfig, true, s.heartbeat⟩,
      calls ++ [.chipsetSetDeviceName, .downloadFirmware config.baudrateMain])

def defaultAddr : BdAddr := ⟨[0x11, 0x22, 0x33, 0x44, 0x55, 0x66], rfl⟩

/-- The result is -1 when the UART could not be told. -/
def btstackStart (board : Board) (s : State) : State × List Call × ℤ :=
  let opening := [.btstackMemoryInit, .hciDumpOpen, .btstackRunLoopInit]
  let config := { s.transportConfig with deviceName := some "/dev/serial1" }
  let addr := raspiGetBdAddr board defaultAddr
  let go (baudrateMain : ℕ) (flowcontrol : Bool) (btRegEnPin : ℤ) :=
    let (s, calls) := startWith s
      { config with baudrateMain := baudrateMain, flowcontrol := flowcontrol } addr btRegEnPin
    (s, opening ++ calls, 0)
  match raspiGetBluetoothUartType board with
  | .invalid => ({ s with transportConfig := config }, opening, -1)
  | .softwareNoFlow => go 460800 false 128
  | .hardwareNoFlow => go 921600 false 128
  | .hardwareFlow =>
    match board.model with
    | .zeroW => go 921600 true 45
    | .other => go 3000000 true 129

inductive Event where
  | halInit
  | phase2 (status : ℤ)
  | heartbeat

/-- BTstack calls back what it was given. -/
def Enabled (s : State) : Event → Prop
  | .halInit => True
  | .phase2 _ => s.downloading = true
  | .heartbeat => s.heartbeat = true

instance (s : State) (e : Event) : Decidable (Enabled s e) := by
  cases e <;> unfold Enabled <;> infer_instance

/-- `hmkit_core_connectivity_hal_init` drops the result of the start; `phase2` only prints. -/
def step (board : Board) : StepFunction State Event Call := fun s e =>
  match e with
  | .halInit => let (s, calls, _) := btstackStart board s; some (s, calls)
  | .phase2 _ => some ({ s with downloading := false }, [])
  | .heartbeat => some (s, [.setTimer, .addTimer])

end BtstackStart
