import HmkitWorkspace.SessionBuffers

/-! # What a peer reads and what was written for it

Freeing a slot keeps its sizes and bytes, so a connection that takes the slot over reads the
last payload of its predecessor until something is written for it. -/
namespace ReadIsolation

open TransitionRuns ByteBuffers HmkitCoreConnectivityHal ConnectionTableInvariant ReadBuffers
  ConnectionHistory SessionBuffers

variable {w w' : World} {tr tr' : History} {handle handle' : HciConHandle} {k k' : Link}
  {i : Slot} {ch : Channel} {value : List UInt8}

/-- The length query and every served byte below the length are those of `value`. -/
def Serves (w : World) (handle : HciConHandle) (ch : Channel) (value : List UInt8) : Prop :=
  (∀ offset size beyond,
    (attReadCallback w.hal handle ch.valueHandle offset false size beyond).ret = value.length) ∧
  ∀ offset size beyond n, n < size → offset + n < value.length →
    (attReadCallback w.hal handle ch.valueHandle offset true size beyond).written[n]? =
      value[offset + n]?

/-- The two peers are told one length and served the same bytes below it. -/
def SameReads (w : World) (handle : HciConHandle) (w' : World) (handle' : HciConHandle)
    (ch : Channel) : Prop :=
  ∃ length, (∀ offset size beyond,
      (attReadCallback w.hal handle ch.valueHandle offset false size beyond).ret = length ∧
      (attReadCallback w'.hal handle' ch.valueHandle offset false size beyond).ret = length) ∧
    ∀ offset size beyond beyond' n, n < size → offset + n < length →
      (attReadCallback w.hal handle ch.valueHandle offset true size beyond).written[n]? =
        (attReadCallback w'.hal handle' ch.valueHandle offset true size beyond').written[n]?

/-- The payload accepted last for the connection's peer in its session, or none. -/
def lastAccepted (k : Link) (ch : Channel) : List UInt8 := (k.sent ch).getLast?.getD []

/-- In the connection's own slot something was accepted since it was established, unless
the slot was left empty. A handle that finds no slot, or finds a free one, serves a value
that has nothing to do with the session. -/
def ValueFromSession (w : World) (handle : HciConHandle) (k : Link) (ch : Channel) : Prop :=
  match getBtConnectionUsingHandle w.hal.btConnections handle with
  | none => lastAccepted k ch = []
  | some i =>
    if k.recorded = true ∧ (w.hal.btConnections i).mac = k.mac then
      k.sent ch ≠ [] ∨ (w.lastWritten i ch).getD [] = []
    else (w.lastWritten i ch).getD [] = lastAccepted k ch

theorem serves_missing (hl : getBtConnectionUsingHandle w.hal.btConnections handle = none) :
    Serves w handle ch value ↔ value = [] := by
  simp only [Serves, attRead_missing hl]
  constructor
  · intro serves
    rcases serves with ⟨length, _⟩
    exact List.length_eq_zero_iff.mp (length 0 0 0).symm
  · rintro rfl
    simp

theorem serves_found (hl : getBtConnectionUsingHandle w.hal.btConnections handle = some i)
    (bound : (buffer w.hal i ch).size ≤ readBufferLength) :
    Serves w handle ch value ↔ (buffer w.hal i ch).value = value := by
  have bytes : ∀ offset size beyond n, n < size → offset + n < (buffer w.hal i ch).size →
      (attReadCallback w.hal handle ch.valueHandle offset true size beyond).written[n]? =
        (buffer w.hal i ch).value[offset + n]? := by
    intro offset size beyond n hn hlt
    rw [(attRead_bytes hl ch offset size beyond).1, Buffer.getElem?_copyOut hn hlt bound]
    rfl
  have length : (buffer w.hal i ch).value.length = (buffer w.hal i ch).size := by
    simp [ReadBuffer.value, Buffer.length_eq, bound]
  constructor
  · intro serves
    rcases serves with ⟨hlen, served⟩
    have hlen : (buffer w.hal i ch).size = value.length := (attRead_length hl ch 0 0 0).symm.trans
      (hlen 0 0 0)
    apply List.ext_getElem?
    intro n
    by_cases hn : n < value.length
    · have hb := bytes 0 (n + 1) 0 n (by omega) (by omega)
      have hs := served 0 (n + 1) 0 n (by omega) (by omega)
      rw [Nat.zero_add] at hb hs
      exact hb.symm.trans hs
    · rw [List.getElem?_eq_none (by omega), List.getElem?_eq_none (by omega)]
  · rintro rfl
    refine ⟨fun _ _ _ => (attRead_length hl ch _ _ _).trans length.symm, ?_⟩
    intro offset size beyond n hn hlt
    exact bytes offset size beyond n hn (length ▸ hlt)

theorem serves_iff (h : Execution World.step Enabled World.initial tr w)
    (hk : w.live handle = some k) :
    Serves w handle ch (lastAccepted k ch) ↔ ValueFromSession w handle k ch := by
  unfold ValueFromSession
  cases hl : getBtConnectionUsingHandle w.hal.btConnections handle with
  | none => exact serves_missing hl
  | some i =>
    obtain ⟨value, _⟩ := world_buffer h i ch
    rw [serves_found hl (world_size h i ch), value]
    dsimp only
    split
    · rename_i own
      cases hlast : (k.sent ch).getLast? with
      | none =>
        have none : k.sent ch = [] := by simpa using hlast
        simp [lastAccepted, none]
      | some p =>
        have some : k.sent ch ≠ [] := by
          intro hnil
          simp [hnil] at hlast
        have current := sessions_hold_last h handle k i hk own.1 own.2 ch p hlast
        simp [lastAccepted, hlast, some, ← value, current.1]
    · exact Iff.rfl

theorem same_reads (h : Serves w handle ch value) (h' : Serves w' handle' ch value) :
    SameReads w handle w' handle' ch := by
  refine ⟨value.length, fun offset size beyond => ⟨h.1 _ _ _, h'.1 _ _ _⟩, ?_⟩
  intro offset size beyond beyond' n hn hlt
  rw [h.2 offset size beyond n hn hlt, h'.2 offset size beyond' n hn hlt]

/-- A connection reads the last payload accepted in its session exactly when the value comes
from it; two histories that agree on what was accepted then give the same reads. -/
theorem read_isolation (h : Execution World.step Enabled World.initial tr w)
    (h' : Execution World.step Enabled World.initial tr' w') :
    (∀ handle k ch, w.live handle = some k →
      (Serves w handle ch (lastAccepted k ch) ↔ ValueFromSession w handle k ch)) ∧
    ∀ handle handle' k k' ch, w.live handle = some k → w'.live handle' = some k' →
      k.sent ch = k'.sent ch → ValueFromSession w handle k ch →
      ValueFromSession w' handle' k' ch → SameReads w handle w' handle' ch := by
  refine ⟨fun handle k ch hk => serves_iff h hk, ?_⟩
  intro handle handle' k k' ch hk hk' agree own own'
  have reads := (serves_iff h hk).mpr own
  have reads' := (serves_iff h' hk').mpr own'
  rw [lastAccepted, ← agree] at reads'
  exact same_reads reads reads'

theorem read_isolation_one_peer :
    ∃ tr w k, run World.step World.initial
        [.hci (.leConnectionComplete 0 0x40 peerA), .writeData peerA [1, 2, 3] .linkRead] =
          some (tr, w) ∧ w.live 0x40 = some k ∧ lastAccepted k .link = [1, 2, 3] ∧
      Serves w 0x40 .link (lastAccepted k .link) ∧ SameReads w 0x40 w 0x40 .link := by
  have h := execution_of_lawful [.hci (.leConnectionComplete 0 0x40 peerA),
    .writeData peerA [1, 2, 3] .linkRead] (by decide) rfl
  have both := read_isolation h h
  refine ⟨_, _, _, rfl, rfl, by decide, (both.1 0x40 _ .link rfl).mpr ?_,
    both.2 0x40 0x40 _ _ .link rfl rfl rfl ?_ ?_⟩
  all_goals exact Or.inl (by decide)

/-- The second peer to use a slot is told the length of what the first one was sent. -/
theorem predecessor_value_served :
    ∃ tr w k, Execution World.step Enabled World.initial tr w ∧ w.live 0x41 = some k ∧
      k.mac = peerB ∧ k.sent .link = [] ∧
      (attReadCallback w.hal 0x41 Channel.link.valueHandle 0 false 0 0).ret = 3 ∧
      ¬ Serves w 0x41 .link (lastAccepted k .link) := by
  refine ⟨_, _, _, execution_of_lawful [.hci (.leConnectionComplete 0 0x40 peerA),
    .writeData peerA [1, 2, 3] .linkRead, .hci (.disconnectionComplete 0x40),
    .hci (.leConnectionComplete 0 0x41 peerB)] (by decide) rfl, rfl, rfl, rfl, by decide, ?_⟩
  intro serves
  exact absurd (serves.1 0 0 0) (by decide)

end ReadIsolation
