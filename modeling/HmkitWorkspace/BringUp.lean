import HmkitWorkspace.BtstackStart
import HmkitWorkspace.JustifiedTraces

/-! # What the bring-up comes to

BTstack is called in an order that it can serve, the radio goes on air on the boards with flow
control only, and the address on air is derived from the serial number. -/
namespace BringUp

open TransitionRuns JustifiedTraces ByteBuffers ScanFormats AttDatabase GattProfile BtstackStart

/-! ## The order of the calls -/

/-- What BTstack has to have been told before a call. -/
def Ready (before : List Call) : Call → Prop
  | .chipsetInit _ => .btstackMemoryInit ∈ before ∧ .btstackRunLoopInit ∈ before
  | .hciInit transport config => .chipsetInit config ∈ before ∧
    .uartInit ⟨config.baudrateInit, config.flowcontrol, config.deviceName⟩ ∈ before ∧
    (transport = .h4 ↔ config.flowcontrol = true)
  | .hciSetBdAddr _ | .hciSetChipset | .hciAddEventHandler =>
    ∃ transport config, .hciInit transport config ∈ before
  | .controlOn => .controlOff ∈ before ∧ ∃ pin, 0 ≤ pin ∧ .setBtRegEnPin pin ∈ before
  | .downloadFirmware baudrate => .chipsetSetDeviceName ∈ before ∧ .controlOn ∈ before ∧
    ∃ config, .hciInit .h5 config ∈ before ∧ config.baudrateMain = baudrate
  | .attServerInit profile => .l2capInit ∈ before ∧ decode profile = some hmProfile
  | .attServerRegisterPacketHandler => ∃ profile, .attServerInit profile ∈ before
  | .addTimer => .setTimer ∈ before
  | .hciPowerOn => (∃ config, .hciInit .h4 config ∈ before) ∧
    (∃ addr, .hciSetBdAddr addr ∈ before) ∧ .hciSetChipset ∈ before ∧
    .hciAddEventHandler ∈ before ∧ .signalSigint ∈ before ∧ .controlOn ∈ before ∧
    .attServerRegisterPacketHandler ∈ before
  | _ => True

variable {before more : List Call} {c : Call} {board : Board} {s u : State} {e : Event}
  {out : List Call} {tr : List (Transition State Event Call)}

theorem ready_later (h : Ready before c) : Ready (more ++ before) c := by
  have later : ∀ {d}, d ∈ before → d ∈ more ++ before := List.mem_append_right more
  cases c with
  | chipsetInit config => exact ⟨later h.1, later h.2⟩
  | hciInit transport config => exact ⟨later h.1, later h.2.1, h.2.2⟩
  | hciSetBdAddr | hciSetChipset | hciAddEventHandler =>
    obtain ⟨transport, config, told⟩ := h
    exact ⟨transport, config, later told⟩
  | controlOn =>
    obtain ⟨off, pin, sign, told⟩ := h
    exact ⟨later off, pin, sign, later told⟩
  | downloadFirmware baudrate =>
    obtain ⟨name, on, config, told, rate⟩ := h
    exact ⟨later name, later on, config, later told, rate⟩
  | attServerInit profile => exact ⟨later h.1, h.2⟩
  | attServerRegisterPacketHandler =>
    obtain ⟨profile, told⟩ := h
    exact ⟨profile, later told⟩
  | addTimer => exact later h
  | hciPowerOn =>
    obtain ⟨⟨config, told⟩, ⟨addr, known⟩, chipset, handler, signal, on, served⟩ := h
    exact ⟨⟨config, later told⟩, ⟨addr, later known⟩, later chipset, later handler, later signal,
      later on, later served⟩
  | _ => trivial

theorem startWith_ready (s : State) (config : TransportConfig) (addr : BdAddr) {pin : ℤ}
    (sign : 0 ≤ pin) : JustifiedAfter Ready []
      ([.btstackMemoryInit, .hciDumpOpen, .btstackRunLoopInit] ++
        (startWith s config addr pin).2) := by
  cases flow : config.flowcontrol <;>
    simp [startWith, flow, JustifiedAfter, Ready, btstackInits, decode_hmProfileData, sign]

/-! ## The kinds of boards -/

/-- The first words, as far as 20 bytes. -/
def SameAlias (uart0 serial1 : List UInt8) : Prop :=
  cString (scanWord 20 uart0) = cString (scanWord 20 serial1)

/-- Whether the UART can be told from the files. -/
def UartKnown (board : Board) : Prop :=
  ∃ uart0 serial1, board.uart0 = some uart0 ∧ board.serial1 = some serial1 ∧
    (SameAlias uart0 serial1 → board.pins ≠ none)

def FlowControlled (board : Board) : Prop :=
  ∃ uart0 serial1 pins, board.uart0 = some uart0 ∧ board.serial1 = some serial1 ∧
    board.pins = some pins ∧ SameAlias uart0 serial1 ∧ 16 ≤ pins.length

theorem sameAlias_iff (uart0 serial1 : List UInt8) :
    strncmpEqual 21 (scanWord 20 uart0) (scanWord 20 serial1) = true ↔
      SameAlias uart0 serial1 :=
  strncmpEqual_iff (Nat.lt_succ_of_le (scanWord_length ..)) (Nat.lt_succ_of_le (scanWord_length ..))

theorem uartType_spec (board : Board) :
    (raspiGetBluetoothUartType board = .invalid ↔ ¬ UartKnown board) ∧
    (raspiGetBluetoothUartType board = .hardwareFlow ↔ FlowControlled board) := by
  rcases board with ⟨_, uart0, serial1, pins, _⟩
  cases uart0 with
  | none => simp [raspiGetBluetoothUartType, UartKnown, FlowControlled]
  | some uart0 =>
    cases serial1 with
    | none => simp [raspiGetBluetoothUartType, UartKnown, FlowControlled]
    | some serial1 =>
      by_cases same : SameAlias uart0 serial1
      · have equal := (sameAlias_iff uart0 serial1).mpr same
        cases pins with
        | none => simp [raspiGetBluetoothUartType, UartKnown, FlowControlled, equal, same]
        | some pins =>
          have four : min 16 pins.length / 4 = 4 ↔ 16 ≤ pins.length := by omega
          by_cases all : 16 ≤ pins.length
          · simp [raspiGetBluetoothUartType, UartKnown, FlowControlled, equal, same, all]
          · simp [raspiGetBluetoothUartType, UartKnown, FlowControlled, equal, four, all]
      · have differ : strncmpEqual 21 (scanWord 20 uart0) (scanWord 20 serial1) = false := by
          rw [← Bool.not_eq_true, sameAlias_iff]
          exact same
        simp [raspiGetBluetoothUartType, UartKnown, FlowControlled, differ, same]

/-! ## One start -/

/-- A start stops before the chipset driver, or goes on with what the board calls for. -/
inductive Started (board : Board) (s : State) : State → List Call → ℤ → Prop where
  | stopped (unknown : ¬ UartKnown board) (u : State) : Started board s u
      [.btstackMemoryInit, .hciDumpOpen, .btstackRunLoopInit] (-1)
  | went (known : UartKnown board) (config : TransportConfig) (pin : ℤ) (sign : 0 ≤ pin)
      (flow : config.flowcontrol = true ↔ FlowControlled board) :
      Started board s (startWith s config (raspiGetBdAddr board defaultAddr) pin).1
        ([.btstackMemoryInit, .hciDumpOpen, .btstackRunLoopInit] ++
          (startWith s config (raspiGetBdAddr board defaultAddr) pin).2) 0

theorem started (board : Board) (s : State) :
    Started board s (btstackStart board s).1 (btstackStart board s).2.1
      (btstackStart board s).2.2 := by
  obtain ⟨unknown, flow⟩ := uartType_spec board
  cases kind : raspiGetBluetoothUartType board with
  | invalid =>
    rw [btstackStart, kind]
    exact .stopped (unknown.mp kind) _
  | softwareNoFlow | hardwareNoFlow =>
    have known : UartKnown board := by
      by_contra no
      cases kind.symm.trans (unknown.mpr no)
    have plain : ¬ FlowControlled board := fun yes => by cases kind.symm.trans (flow.mpr yes)
    rw [btstackStart, kind]
    refine .went known _ 128 (by decide) ?_
    exact iff_of_false Bool.false_ne_true plain
  | hardwareFlow =>
    have known : UartKnown board := by
      by_contra no
      cases kind.symm.trans (unknown.mpr no)
    have controlled := flow.mp kind
    rw [btstackStart, kind]
    cases board.model with
    | zeroW => exact .went known _ 45 (by decide) (iff_of_true rfl controlled)
    | other => exact .went known _ 129 (by decide) (iff_of_true rfl controlled)

theorem Started.ready {result : ℤ} (h : Started board s u out result) :
    JustifiedAfter Ready [] out := by
  cases h with
  | stopped unknown u => simp [JustifiedAfter, Ready]
  | went known config pin sign flow => exact startWith_ready s config _ sign

/-- How far the board lets a start come. -/
structure Reaches (board : Board) (out : List Call) : Prop where
  handler : .signalSigint ∈ out ↔ UartKnown board
  radio : .hciPowerOn ∈ out ↔ FlowControlled board
  download : (∃ baudrate, .downloadFirmware baudrate ∈ out) ↔
    UartKnown board ∧ ¬ FlowControlled board
  address : ∀ addr, .hciSetBdAddr addr ∈ out → addr = raspiGetBdAddr board defaultAddr

theorem flowControlled_known (h : FlowControlled board) : UartKnown board := by
  obtain ⟨uart0, serial1, pins, h0, h1, hp, _⟩ := h
  exact ⟨uart0, serial1, h0, h1, fun _ gone => by simp [hp] at gone⟩

theorem Started.reaches {result : ℤ} (h : Started board s u out result) : Reaches board out := by
  cases h with
  | stopped unknown u =>
    have plain : ¬ FlowControlled board := fun yes => unknown (flowControlled_known yes)
    constructor <;> simp [unknown, plain]
  | went known config pin sign flow =>
    cases has : config.flowcontrol with
    | true =>
      have controlled := flow.mp has
      constructor <;> simp [startWith, btstackInits, has, known, controlled]
    | false =>
      have plain : ¬ FlowControlled board := fun yes => by simp [has] at flow; exact flow yes
      constructor <;> simp [startWith, has, known, plain]

/-! ## Runs -/

theorem step_spec (hs : step board s e = some (u, out)) :
    JustifiedAfter Ready [] out ∧ (e = .halInit → Reaches board out) ∧
      (e ≠ .halInit → ∀ c ∈ out, c = .setTimer ∨ c = .addTimer) := by
  cases e with
  | halInit =>
    obtain ⟨rfl, rfl⟩ := total_step hs
    have begun := started board s
    exact ⟨begun.ready, fun _ => begun.reaches, fun other => absurd rfl other⟩
  | phase2 status =>
    obtain ⟨rfl, rfl⟩ := total_step hs
    simp [JustifiedAfter]
  | heartbeat =>
    obtain ⟨rfl, rfl⟩ := total_step hs
    simp [JustifiedAfter, Ready]

theorem mem_outputs (h : Execution (step board) Enabled initial tr s)
    (start : c ≠ .setTimer ∧ c ≠ .addTimer) :
    c ∈ outputsOf tr ↔ ∃ x ∈ tr, x.event = .halInit ∧ c ∈ x.outputs := by
  constructor
  · intro called
    obtain ⟨x, hx, hc⟩ := List.mem_flatMap.mp called
    obtain ⟨_, _, _, hs⟩ := h.transition hx
    refine ⟨x, hx, ?_, hc⟩
    by_contra other
    exact ((step_spec hs).2.2 other c hc).elim start.1 start.2
  · rintro ⟨x, hx, _, hc⟩
    exact List.mem_flatMap.mpr ⟨x, hx, hc⟩

theorem calls_justified (h : Execution (step board) Enabled initial tr s) :
    Justified Ready (outputsOf tr) := by
  apply h.history_invariant (fun tr _ => Justified Ready (outputsOf tr)) justified_nil
  intro tr s e out u before _ hs
  rw [outputsOf_append, outputsOf_singleton]
  exact before.append_block ready_later (step_spec hs).1

/-! ## The address -/

/-- Sixteen hexadecimal digits, as the device tree gives the serial number. -/
structure SerialNumber where
  digits : List UInt8
  hex : IsHex digits
  length_eq : digits.length = 16

def Shows (board : Board) (n : SerialNumber) : Prop :=
  ∃ rest, board.serialNumber = some (n.digits ++ rest)

variable {board' : Board} {n n' : SerialNumber}

def SerialNumber.pair (n : SerialNumber) (i : ℕ) : List UInt8 := (n.digits.drop i).take 2

def SerialNumber.lastSix (n : SerialNumber) : ℕ := hexValue (n.digits.drop 10)

theorem SerialNumber.pair_hex (n : SerialNumber) (i : ℕ) : IsHex (n.pair i) := fun d hd =>
  n.hex d (List.mem_of_mem_drop (List.mem_of_mem_take hd))

theorem SerialNumber.pair_length (n : SerialNumber) {i : ℕ} (inside : i + 2 ≤ 16) :
    (n.pair i).length = 2 := by
  rw [pair, List.length_take, List.length_drop, n.length_eq]
  omega

theorem SerialNumber.pair_lt (n : SerialNumber) {i : ℕ} (inside : i + 2 ≤ 16) :
    hexValue (n.pair i) < 256 := by
  have bound := hexValue_lt (n.pair i)
  rwa [n.pair_length inside] at bound

theorem SerialNumber.drop_eq (n : SerialNumber) (i : ℕ) :
    n.digits.drop i = n.pair i ++ n.digits.drop (i + 2) := by
  rw [pair, ← List.drop_drop, List.take_append_drop]

theorem SerialNumber.last_eq (n : SerialNumber) : n.digits.drop 10 =
    n.pair 10 ++ (n.pair 12 ++ n.pair 14) := by
  have done : n.digits.drop 16 = [] := List.drop_eq_nil_of_le n.length_eq.le
  rw [n.drop_eq 10, n.drop_eq 12, n.drop_eq 14, done, List.append_nil]

theorem SerialNumber.lastSix_eq (n : SerialNumber) : n.lastSix =
    hexValue (n.pair 10) * 65536 + (hexValue (n.pair 12) * 256 + hexValue (n.pair 14)) := by
  rw [lastSix, n.last_eq, hexValue_append, hexValue_append, List.length_append,
    n.pair_length (by decide), n.pair_length (by decide)]
  rfl

/-- The three bytes that the format stores. -/
theorem scan_serial (n : SerialNumber) (rest : List UInt8) :
    scan serialFormat (n.digits ++ rest) =
      [(hexValue (n.pair 10) : ℤ), (hexValue (n.pair 12) : ℤ), (hexValue (n.pair 14) : ℤ)] := by
  have split : n.digits ++ rest = n.digits.take 8 ++ (n.pair 8 ++
      (n.pair 10 ++ (n.pair 12 ++ (n.pair 14 ++ rest)))) := by
    have tail : n.digits.drop 8 = n.pair 8 ++ (n.pair 10 ++ (n.pair 12 ++ n.pair 14)) := by
      rw [n.drop_eq 8, n.last_eq]
    conv_lhs => rw [← List.take_append_drop 8 n.digits, tail]
    simp only [List.append_assoc]
  have front : IsHex (n.digits.take 8) := fun d hd => n.hex d (List.mem_of_mem_take hd)
  have eight : (n.digits.take 8).length = 8 := by
    rw [List.length_take, n.length_eq]
    rfl
  rw [split, serialFormat, scan_skipped _ front eight (by decide),
    scan_skipped _ (n.pair_hex 8) (n.pair_length (by decide)) (by decide),
    scan_stored _ (n.pair_hex 10) (n.pair_length (by decide)) (by decide),
    scan_stored _ (n.pair_hex 12) (n.pair_length (by decide)) (by decide),
    scan_stored _ (n.pair_hex 14) (n.pair_length (by decide)) (by decide), scan]

def storedByte (value : ℕ) : UInt8 := UInt8.ofNat ((value : ℤ) % 256).toNat

theorem storedByte_inj {v w : ℕ} (hv : v < 256) (hw : w < 256) :
    storedByte v = storedByte w ↔ v = w := by
  have small : ∀ {x : ℕ}, x < 256 → (storedByte x).toNat = x := by
    intro x hx
    rw [storedByte, UInt8.toNat_ofNat']
    omega
  rw [← UInt8.toNat_inj, small hv, small hw]

theorem bdAddr_serial (shown : Shows board n) (addr : BdAddr) :
    (raspiGetBdAddr board addr).bytes = [0xb8, 0x27, 0xeb,
      storedByte (hexValue (n.pair 10)) ^^^ 0xaa, storedByte (hexValue (n.pair 12)) ^^^ 0xaa,
      storedByte (hexValue (n.pair 14)) ^^^ 0xaa] := by
  obtain ⟨rest, content⟩ := shown
  simp only [raspiGetBdAddr, content, scan_serial]
  rfl

theorem bdAddr_eq_iff (shown : Shows board n) (shown' : Shows board' n') (addr : BdAddr) :
    raspiGetBdAddr board addr = raspiGetBdAddr board' addr ↔ n.lastSix = n'.lastSix := by
  have first := storedByte_inj (n.pair_lt (i := 10) (by decide)) (n'.pair_lt (i := 10) (by decide))
  have second := storedByte_inj (n.pair_lt (i := 12) (by decide)) (n'.pair_lt (i := 12) (by decide))
  have third := storedByte_inj (n.pair_lt (i := 14) (by decide)) (n'.pair_lt (i := 14) (by decide))
  have bound := n.pair_lt (i := 12) (by decide)
  have bound' := n'.pair_lt (i := 12) (by decide)
  have last := n.pair_lt (i := 14) (by decide)
  have last' := n'.pair_lt (i := 14) (by decide)
  rw [Buffer.ext_iff, bdAddr_serial shown, bdAddr_serial shown', n.lastSix_eq, n'.lastSix_eq]
  simp only [List.cons.injEq, UInt8.xor_left_inj, first, second, third, true_and, and_true]
  omega

/-! ## On the air -/

/-- BTstack has nothing to call back before the HAL is initialised. -/
theorem started_first (h : Execution (step board) Enabled initial tr s) (some_event : tr ≠ []) :
    ∃ x ∈ tr, x.event = .halInit := by
  have either : (∃ x ∈ tr, x.event = .halInit) ∨ tr = [] ∧ s = initial := by
    apply h.history_invariant (fun tr s => (∃ x ∈ tr, x.event = .halInit) ∨ tr = [] ∧ s = initial)
    · exact .inr ⟨rfl, rfl⟩
    · rintro tr s e out u (⟨x, hx, start⟩ | ⟨rfl, rfl⟩) enabled hs
      · exact .inl ⟨x, List.mem_append_left _ hx, start⟩
      · cases e with
        | halInit => exact .inl ⟨_, List.mem_append_right _ (List.mem_singleton_self _), rfl⟩
        | phase2 status => exact absurd enabled Bool.false_ne_true
        | heartbeat => exact absurd enabled Bool.false_ne_true
  exact either.resolve_right fun none => some_event none.1

/-- What every start does alike is done in the run when there is one. -/
theorem called_iff {P : Prop} (h : Execution (step board) Enabled initial tr s)
    (some_event : tr ≠ []) (start : c ≠ .setTimer ∧ c ≠ .addTimer)
    (alike : ∀ out, Reaches board out → (c ∈ out ↔ P)) : c ∈ outputsOf tr ↔ P := by
  have reached : ∀ x ∈ tr, x.event = .halInit → Reaches board x.outputs := by
    intro x hx begun
    obtain ⟨_, _, _, hs⟩ := h.transition hx
    exact (step_spec hs).2.1 begun
  rw [mem_outputs h start]
  constructor
  · rintro ⟨x, hx, begun, called⟩
    exact (alike _ (reached x hx begun)).mp called
  · intro holds
    obtain ⟨x, hx, begun⟩ := started_first h some_event
    exact ⟨x, hx, begun, (alike _ (reached x hx begun)).mpr holds⟩

/-- In every run on a board, whatever is called back and however often, nothing is called before
what it needs. The HAL's SIGINT handler is set just when the UART can be told and the radio goes on
just when it has flow control: on the other boards the firmware is downloaded and that is all. The
controller gets the address derived from the serial number. -/
theorem bring_up (h : Execution (step board) Enabled initial tr s) :
    Justified Ready (outputsOf tr) ∧ (tr ≠ [] → Reaches board (outputsOf tr)) := by
  refine ⟨calls_justified h, fun some_event => ?_⟩
  constructor
  · exact called_iff h some_event (by simp) fun _ reached => reached.handler
  · exact called_iff h some_event (by simp) fun _ reached => reached.radio
  · constructor
    · rintro ⟨baudrate, called⟩
      obtain ⟨x, hx, begun, called⟩ := (mem_outputs h (by simp)).mp called
      obtain ⟨_, _, _, hs⟩ := h.transition hx
      exact ((step_spec hs).2.1 begun).download.mp ⟨baudrate, called⟩
    · intro plain
      obtain ⟨x, hx, begun⟩ := started_first h some_event
      obtain ⟨_, _, _, hs⟩ := h.transition hx
      obtain ⟨baudrate, called⟩ := ((step_spec hs).2.1 begun).download.mpr plain
      exact ⟨baudrate, (mem_outputs h (by simp)).mpr ⟨x, hx, begun, called⟩⟩
  · intro addr called
    obtain ⟨x, hx, begun, called⟩ := (mem_outputs h (by simp)).mp called
    obtain ⟨_, _, _, hs⟩ := h.transition hx
    exact ((step_spec hs).2.1 begun).address addr called

/-- A board without flow control whose serial number ends in a1b2c3. -/
def plainBoard : Board where
  serialNumber := some [48, 48, 48, 48, 48, 48, 48, 48, 48, 48, 97, 49, 98, 50, 99, 51, 0]
  uart0 := some [47, 97]
  serial1 := some [47, 98]
  pins := none
  model := .other

/-- A board with flow control whose serial number has the same last six digits. -/
def flowBoard : Board where
  serialNumber := some [49, 50, 51, 52, 53, 54, 55, 56, 57, 48, 97, 49, 98, 50, 99, 51, 0]
  uart0 := some [47, 97]
  serial1 := some [47, 97]
  pins := some (List.replicate 16 0)
  model := .other

/-- The radio goes on on one of the two boards. -/
theorem bring_up_two_boards :
    (∃ tr s, run (step plainBoard) initial [.halInit, .phase2 0] = some (tr, s) ∧
      Reaches plainBoard (outputsOf tr) ∧ .hciPowerOn ∉ outputsOf tr) ∧
    ∃ tr s, run (step flowBoard) initial [.halInit, .heartbeat] = some (tr, s) ∧
      Reaches flowBoard (outputsOf tr) ∧ .hciPowerOn ∈ outputsOf tr := by
  have plain : Execution (step plainBoard) Enabled initial _ _ :=
    execution_of_run [.halInit, .phase2 0] rfl (by decide)
  have flow : Execution (step flowBoard) Enabled initial _ _ :=
    execution_of_run [.halInit, .heartbeat] rfl (by decide)
  exact ⟨⟨_, _, rfl, (bring_up plain).2 (by simp), by decide⟩,
    _, _, rfl, (bring_up flow).2 (by simp), by decide⟩

variable {s' : State} {tr' : List (Transition State Event Call)} {addr addr' : BdAddr}

/-- Boards that go on the air, in any runs, have the same address only if the last six digits
of their serial numbers agree. -/
theorem addresses_on_air (shown : Shows board n) (shown' : Shows board' n')
    (h : Execution (step board) Enabled initial tr s)
    (h' : Execution (step board') Enabled initial tr' s')
    (set : .hciSetBdAddr addr ∈ outputsOf tr) (set' : .hciSetBdAddr addr' ∈ outputsOf tr') :
    addr.bytes.take 3 = [0xb8, 0x27, 0xeb] ∧ (addr = addr' ↔ n.lastSix = n'.lastSix) := by
  have some_event : tr ≠ [] := by
    rintro rfl
    cases set
  have some_event' : tr' ≠ [] := by
    rintro rfl
    cases set'
  rw [((bring_up h).2 some_event).address addr set,
    ((bring_up h').2 some_event').address addr' set']
  refine ⟨?_, bdAddr_eq_iff shown shown' defaultAddr⟩
  rw [bdAddr_serial shown]
  rfl

def someSerial : SerialNumber :=
  ⟨[48, 48, 48, 48, 48, 48, 48, 48, 48, 48, 97, 49, 98, 50, 99, 51], by decide, rfl⟩

def otherSerial : SerialNumber :=
  ⟨[49, 50, 51, 52, 53, 54, 55, 56, 57, 48, 97, 49, 98, 50, 99, 51], by decide, rfl⟩

theorem addresses_on_air_two_boards :
    ∃ tr s tr' s' addr addr', run (step plainBoard) initial [.halInit] = some (tr, s) ∧
      run (step flowBoard) initial [.halInit] = some (tr', s') ∧
      .hciSetBdAddr addr ∈ outputsOf tr ∧ .hciSetBdAddr addr' ∈ outputsOf tr' ∧
      addr = addr' ∧ addr.bytes.take 3 = [0xb8, 0x27, 0xeb] := by
  have shown : Shows plainBoard someSerial := ⟨[0], rfl⟩
  have shown' : Shows flowBoard otherSerial := ⟨[0], rfl⟩
  obtain ⟨tr, s, ran, set⟩ : ∃ tr s, run (step plainBoard) initial [.halInit] = some (tr, s) ∧
      .hciSetBdAddr (raspiGetBdAddr plainBoard defaultAddr) ∈ outputsOf tr :=
    ⟨_, _, rfl, by decide⟩
  obtain ⟨tr', s', ran', set'⟩ : ∃ tr s, run (step flowBoard) initial [.halInit] = some (tr, s) ∧
      .hciSetBdAddr (raspiGetBdAddr flowBoard defaultAddr) ∈ outputsOf tr :=
    ⟨_, _, rfl, by decide⟩
  have h : Execution (step plainBoard) Enabled initial tr s :=
    execution_of_run [.halInit] ran (by cases ran; decide)
  have h' : Execution (step flowBoard) Enabled initial tr' s' :=
    execution_of_run [.halInit] ran' (by cases ran'; decide)
  obtain ⟨first, same⟩ := addresses_on_air shown shown' h h' set set'
  exact ⟨tr, s, tr', s', _, _, ran, ran', set, set', same.mpr (by decide), first⟩

end BringUp
