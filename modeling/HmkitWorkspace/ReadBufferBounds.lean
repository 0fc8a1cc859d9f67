import HmkitWorkspace.ReadBuffers

/-! # Payload lengths and the 500-byte buffers

The MTU a peer negotiates, not the array, bounds what the core hands to
`hmkit_core_connectivity_hal_write_data`. -/
namespace ReadBufferBounds

open TransitionRuns ByteBuffers HmkitCoreConnectivityHal ConnectionTableInvariant ReadBuffers

variable {s u : State} {e : Event} {out : List Call} {mac : Mac} {data : List UInt8}
  {characteristic : Characteristic}

theorem writeTarget_none_iff :
    writeTarget s mac characteristic = none ↔
      getBtConnectionUsingMac s.btConnections mac = none ∨
        (characteristic ≠ .linkRead ∧ characteristic ≠ .sensingRead) := by
  unfold writeTarget
  cases getBtConnectionUsingMac s.btConnections mac with
  | none => simp
  | some i => cases characteristic <;> simp [channelOf]

theorem writeData_none_iff :
    writeData s mac data characteristic = none ↔
      (∃ target, writeTarget s mac characteristic = some target) ∧
        readBufferLength < data.length := by
  rw [writeData_eq]
  cases h : writeTarget s mac characteristic with
  | none => simp
  | some target => simp [storePayload_none_iff]

/-- An overrun is the only undefined behaviour of the file: any other event has a successor. -/
theorem step_undefined_iff :
    step s e = none ↔ ∃ mac data characteristic, e = .writeData mac data characteristic ∧
      (∃ target, writeTarget s mac characteristic = some target) ∧
        readBufferLength < data.length := by
  cases e with
  | writeData mac data characteristic =>
    refine writeData_none_iff.trans ⟨fun h => ⟨mac, data, characteristic, rfl, h⟩, ?_⟩
    intro oversized
    rcases oversized with ⟨_, _, _, he, h⟩
    cases he
    exact h
  | _ => simp [step]

/-- The call is defined, and either the payload is stored whole in the slot of its address
with every other buffer as it was, or the state is left alone. -/
def StoresOrRefuses (s : State) (mac : Mac) (data : List UInt8)
    (characteristic : Characteristic) : Prop :=
  ∃ u out, step s (.writeData mac data characteristic) = some (u, out) ∧
    ((∃ i ch, getBtConnectionUsingMac s.btConnections mac = some i ∧
      channelOf characteristic = some ch ∧ Stores s i ch mac data u) ∨ u = s)

theorem stores_or_refuses_iff :
    StoresOrRefuses s mac data characteristic ↔
      data.length ≤ readBufferLength ∨ getBtConnectionUsingMac s.btConnections mac = none ∨
        (characteristic ≠ .linkRead ∧ characteristic ≠ .sensingRead) := by
  rw [← writeTarget_none_iff]
  constructor
  · intro handled
    rcases handled with ⟨u, out, hs, _⟩
    by_contra hne
    rw [not_or, not_le] at hne
    obtain ⟨target, ht⟩ := Option.ne_none_iff_exists'.mp hne.2
    have undefined := writeData_none_iff.mpr ⟨⟨target, ht⟩, hne.1⟩
    rw [show step s (.writeData mac data characteristic) = none from undefined] at hs
    cases hs
  · intro h
    cases ht : writeTarget s mac characteristic with
    | none => exact ⟨s, [], by simp [step, writeData_eq, ht], .inr rfl⟩
    | some target =>
      obtain ⟨i, ch⟩ := target
      have fits : data.length ≤ readBufferLength := by simpa [ht] using h
      have defined : storePayload s i mac data ch ≠ none := by
        rw [Ne, storePayload_none_iff]
        omega
      obtain ⟨⟨u, out⟩, hs⟩ := Option.ne_none_iff_exists'.mp defined
      obtain ⟨lookup, channel⟩ := writeTarget_some ht
      exact ⟨u, out, by simp [step, writeData_eq, ht, hs],
        .inl ⟨i, ch, lookup, channel, (storePayload_stores hs).1⟩⟩

/-- An event has a successor unless it is a write that is neither stored nor refused. -/
theorem step_defined_iff :
    (∃ r, step s e = some r) ↔ ∀ mac data characteristic,
      e = .writeData mac data characteristic → StoresOrRefuses s mac data characteristic := by
  constructor
  · intro defined mac data characteristic he
    rw [stores_or_refuses_iff, ← writeTarget_none_iff]
    by_contra hne
    rw [not_or, not_le] at hne
    have undefined := step_undefined_iff.mpr
      ⟨mac, data, characteristic, he, Option.ne_none_iff_exists'.mp hne.2, hne.1⟩
    rcases defined with ⟨r, hr⟩
    rw [undefined] at hr
    cases hr
  · intro handled
    by_contra hne
    have undefined : step s e = none := by
      by_contra some
      exact hne (Option.ne_none_iff_exists'.mp some)
    rcases step_undefined_iff.mp undefined with ⟨mac, data, characteristic, he, target, long⟩
    have fits := stores_or_refuses_iff.mp (handled mac data characteristic he)
    rw [← writeTarget_none_iff] at fits
    rcases target with ⟨target, ht⟩
    rcases fits with fits | none
    · omega
    · rw [none] at ht
      cases ht

/-- In every reachable state the recorded sizes are within the arrays, a write is stored
whole or refused exactly when the payload fits or there is no buffer to put it in, and no
other event oversteps a buffer. -/
theorem read_buffer_bounds {tr : List (Transition State Event Call)}
    (h : Execution step (fun _ _ => True) initial tr s) :
    (∀ i ch, (buffer s i ch).size ≤ readBufferLength) ∧
    (∀ mac data characteristic, StoresOrRefuses s mac data characteristic ↔
      data.length ≤ readBufferLength ∨ getBtConnectionUsingMac s.btConnections mac = none ∨
        (characteristic ≠ .linkRead ∧ characteristic ≠ .sensingRead)) ∧
    ∀ e, (∃ r, step s e = some r) ↔ ∀ mac data characteristic,
      e = .writeData mac data characteristic → StoresOrRefuses s mac data characteristic :=
  ⟨fun i ch => reachable_size h i ch, fun _ _ _ => stores_or_refuses_iff,
    fun _ => step_defined_iff⟩

theorem read_buffer_bounds_after_connect :
    StoresOrRefuses (hciPacketHandler initial (.leConnectionComplete 0 0x40 peerA)).1 peerA
      [1, 2, 3] .linkRead :=
  ((read_buffer_bounds
    (.tail .init trivial (e := .hci (.leConnectionComplete 0 0x40 peerA)) rfl)).2.1
      peerA [1, 2, 3] .linkRead).mpr (.inl (by decide))

theorem oversized_payload_overruns :
    ∃ tr s, Execution step (fun _ _ => True) initial tr s ∧
      ¬ StoresOrRefuses s peerA (List.replicate 501 0) .linkRead := by
  refine ⟨_, _, .tail .init trivial (e := .hci (.leConnectionComplete 0 0x40 peerA)) rfl, ?_⟩
  rw [stores_or_refuses_iff, List.length_replicate]
  decide

end ReadBufferBounds
