import HmkitWorkspace.SessionBuffers

/-! # Reading a long value in chunks

BTstack hands the read callback the free space of the response and bounds the offset by the
reported length only; cutting the copy at the end of the value is left to the callback. -/
namespace LongRead

open TransitionRuns ByteBuffers HmkitCoreConnectivityHal ConnectionTableInvariant ReadBuffers
  ConnectionHistory SessionBuffers

variable {s : State} {w : World} {tr : History} {handle : HciConHandle} {attHandle : UInt16}
  {i : Slot} {ch : Channel} {p : List UInt8} {offset bufferSize n fuel : ℕ}
  {beyond : ℕ → UInt8}

/-- The read returns the part of the value from `offset` on that fits the buffer. -/
structure ReadsExactly (r : ReadResult) (value : List UInt8) (offset bufferSize : ℕ) : Prop where
  written : r.written = (value.drop offset).take bufferSize
  ret : r.ret = min bufferSize (value.length - offset)

/-- The peer's long read: chunks of `n` bytes until one is shorter. BTstack refuses an offset
above the reported length, and with it the whole read. -/
def longRead (handle : HciConHandle) (attHandle : UInt16) (beyond : ℕ → UInt8) (n : ℕ) :
    ℕ → State → ℕ → Option (List UInt8)
  | 0, _, _ => none
  | fuel + 1, s, offset =>
    if (attReadCallback s handle attHandle offset false n beyond).ret < offset then none
    else
      let r := attReadCallback s handle attHandle offset true n beyond
      if r.ret < n then some r.written
      else (longRead handle attHandle beyond n fuel r.state (offset + n)).map (r.written ++ ·)

/-- Some number of requests reads exactly `value`. -/
def Reassembles (s : State) (handle : HciConHandle) (attHandle : UInt16) (beyond : ℕ → UInt8)
    (n : ℕ) (value : List UInt8) : Prop :=
  ∃ fuel, longRead handle attHandle beyond n fuel s 0 = some value

/-! ## Characteristics 0102 and 0106 -/

theorem buffer_reads_exactly_iff (hl : getBtConnectionUsingHandle s.btConnections handle = some i)
    (value : (buffer s i ch).value = p) (size : (buffer s i ch).size = p.length)
    (bound : (buffer s i ch).size ≤ readBufferLength) (ho : offset ≤ p.length) :
    ReadsExactly (attReadCallback s handle ch.valueHandle offset true bufferSize beyond)
      p offset bufferSize ↔ bufferSize ≤ p.length - offset := by
  have bytes := attRead_bytes hl ch offset bufferSize beyond
  constructor
  · intro h
    have := bytes.2.symm.trans h.ret
    omega
  · intro hb
    refine ⟨?_, by rw [bytes.2]; omega⟩
    rw [bytes.1, Buffer.copyOut_eq (by omega) bound, ← value]
    rfl

/-- Every chunk is as long as the buffer offered, so the read goes on until it is refused. -/
theorem longRead_buffer (hl : getBtConnectionUsingHandle s.btConnections handle = some i) :
    longRead handle ch.valueHandle beyond n fuel s offset = none := by
  induction fuel generalizing s offset with
  | zero => rfl
  | succ fuel ih =>
    unfold longRead
    split
    · rfl
    · have full := (attRead_bytes hl ch offset n beyond).2
      have next : longRead handle ch.valueHandle beyond n fuel
          (attReadCallback s handle ch.valueHandle offset true n beyond).state (offset + n) =
            none := ih (by rw [attReadCallback_btConnections]; exact hl)
      simp [full, next]

/-! ## Characteristic 0105 -/

theorem length_infoValue (s : State) (handle : HciConHandle) :
    (infoValue s handle).length = 16 := by
  unfold infoValue
  split
  · rw [length_overwrite]
    · rfl
    · simp [Buffer.length_eq, infoTemplate]
  · rfl

theorem attRead_info (s : State) (handle : HciConHandle) (offset bufferSize : ℕ)
    (beyond : ℕ → UInt8) :
    attReadCallback s handle infoValueHandle offset true bufferSize beyond =
      ⟨s, [], 16, infoValue s handle⟩ := by
  simp [attReadCallback]

theorem attRead_info_length (s : State) (handle : HciConHandle) (offset bufferSize : ℕ)
    (beyond : ℕ → UInt8) :
    (attReadCallback s handle infoValueHandle offset false bufferSize beyond).ret = 16 := by
  simp [attReadCallback]

theorem info_reads_exactly_iff (ho : offset ≤ 16) :
    ReadsExactly (attReadCallback s handle infoValueHandle offset true bufferSize beyond)
      (infoValue s handle) offset bufferSize ↔ offset = 0 ∧ 16 ≤ bufferSize := by
  rw [attRead_info]
  have length := length_infoValue s handle
  constructor
  · intro h
    have ret : 16 = min bufferSize ((infoValue s handle).length - offset) := h.ret
    omega
  · intro whole
    rcases whole with ⟨rfl, hb⟩
    constructor
    · rw [List.drop_zero, List.take_of_length_le (by omega)]
    · show 16 = min bufferSize ((infoValue s handle).length - 0)
      omega

/-- A chunk of at most 16 bytes is never seen as the last one. -/
theorem longRead_info (hn : n ≤ 16) :
    longRead handle infoValueHandle beyond n fuel s offset = none := by
  induction fuel generalizing offset with
  | zero => rfl
  | succ fuel ih =>
    unfold longRead
    split
    · rfl
    · simp [attRead_info, ih, not_lt.mpr hn]

theorem info_reassembles_iff :
    Reassembles s handle infoValueHandle beyond n (infoValue s handle) ↔ 16 < n := by
  constructor
  · intro reassembles
    rcases reassembles with ⟨fuel, h⟩
    by_contra hn
    rw [longRead_info (by omega)] at h
    cases h
  · intro hn
    exact ⟨1, by simp [longRead, attRead_info, hn]⟩

/-- One read is exact when it asks for no more than the value has left (of the info value,
when it asks for all of it from the start), and a long read of a payload never ends well. -/
theorem long_read_round_trip (h : Execution World.step (fun _ _ => True) World.initial tr w) :
    (∀ handle i ch p, getBtConnectionUsingHandle w.hal.btConnections handle = some i →
      w.lastWritten i ch = some p →
      (∀ offset bufferSize beyond,
        (attReadCallback w.hal handle ch.valueHandle offset false bufferSize beyond).ret =
          p.length) ∧
      (∀ offset bufferSize beyond, offset ≤ p.length →
        (ReadsExactly (attReadCallback w.hal handle ch.valueHandle offset true bufferSize beyond)
          p offset bufferSize ↔ bufferSize ≤ p.length - offset)) ∧
      ∀ beyond n, ¬ Reassembles w.hal handle ch.valueHandle beyond n p) ∧
    ∀ handle beyond,
      (∀ offset bufferSize,
        (attReadCallback w.hal handle infoValueHandle offset false bufferSize beyond).ret =
          (infoValue w.hal handle).length) ∧
      (∀ offset bufferSize, offset ≤ (infoValue w.hal handle).length →
        (ReadsExactly
          (attReadCallback w.hal handle infoValueHandle offset true bufferSize beyond)
          (infoValue w.hal handle) offset bufferSize ↔ offset = 0 ∧ 16 ≤ bufferSize)) ∧
      ∀ n, Reassembles w.hal handle infoValueHandle beyond n (infoValue w.hal handle) ↔
        16 < n := by
  refine ⟨?_, fun handle beyond => ⟨fun offset bufferSize => ?_,
    fun offset bufferSize ho => info_reads_exactly_iff (by rwa [length_infoValue] at ho),
    fun n => info_reassembles_iff⟩⟩
  rotate_left
  · rw [attRead_info_length, length_infoValue]
  intro handle i ch p hl hp
  obtain ⟨value, size⟩ := world_buffer h i ch
  rw [hp, Option.getD_some] at value size
  refine ⟨fun _ _ _ => (attRead_length hl ch _ _ _).trans size, ?_, ?_⟩
  · intro offset bufferSize beyond ho
    exact buffer_reads_exactly_iff hl value size (world_size h i ch) ho
  · intro beyond n reassembles
    rcases reassembles with ⟨fuel, hr⟩
    rw [longRead_buffer hl] at hr
    cases hr

theorem long_read_of_three_bytes :
    ∃ tr w, run World.step World.initial
        [.hci (.leConnectionComplete 0 0x40 peerA), .writeData peerA [1, 2, 3] .linkRead] =
          some (tr, w) ∧
      ReadsExactly (attReadCallback w.hal 0x40 Channel.link.valueHandle 1 true 2 0)
        [1, 2, 3] 1 2 := by
  refine ⟨_, _, rfl, ?_⟩
  have h := execution_of_lawful [.hci (.leConnectionComplete 0 0x40 peerA),
    .writeData peerA [1, 2, 3] .linkRead] (by decide) rfl
  exact (((long_read_round_trip (h.mono fun _ _ _ => trivial)).1 0x40 0 .link [1, 2, 3]
    (by decide) (by decide)).2.1 1 2 0 (by decide)).mpr (by decide)

/-- Three bytes were written, and a default-sized request is answered with 22. -/
theorem short_value_over_read :
    ∃ tr w, Execution World.step (fun _ _ => True) World.initial tr w ∧
      w.lastWritten 0 .link = some [1, 2, 3] ∧
      (attReadCallback w.hal 0x40 Channel.link.valueHandle 0 true 22 0).ret = 22 ∧
      ¬ ReadsExactly (attReadCallback w.hal 0x40 Channel.link.valueHandle 0 true 22 0)
        [1, 2, 3] 0 22 ∧
      ¬ Reassembles w.hal 0x40 Channel.link.valueHandle 0 22 [1, 2, 3] := by
  have h := execution_of_lawful [.hci (.leConnectionComplete 0 0x40 peerA),
    .writeData peerA [1, 2, 3] .linkRead] (by decide) rfl
  refine ⟨_, _, h.mono fun _ _ _ => trivial, by decide, by decide, ?_, ?_⟩
  · intro exact_read
    exact absurd exact_read.ret (by decide)
  · intro reassembles
    rcases reassembles with ⟨fuel, hr⟩
    rw [longRead_buffer (i := 0) (by decide)] at hr
    cases hr

end LongRead
