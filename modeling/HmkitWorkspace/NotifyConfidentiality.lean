import HmkitWorkspace.SessionBuffers

/-! # Whose payload a notification carries

Disconnecting leaves the ready flags of a slot as they are, and a later connection may take
the slot: a can-send event then sends it what was meant for the earlier one. -/
namespace NotifyConfidentiality

open TransitionRuns HmkitCoreConnectivityHal ConnectionTableInvariant ReadBuffers
  ConnectionHistory SessionBuffers

variable {w : World} {tr : History} {k : Link}

/-- Every notification to a live connection carries a payload accepted for it, on the
characteristic it was written to. -/
def Confidential (t : Transition World Event Call) : Prop :=
  ∀ handle attHandle value ret, Call.notify handle attHandle value ret ∈ t.outputs →
    ∀ k, t.pre.live handle = some k → ∃ ch, attHandle = ch.valueHandle ∧ value ∈ k.sent ch

/-- A can-send event finds no ready flag older than the connection using the slot. -/
def FlagsInSession (t : Transition World Event Call) : Prop :=
  ∀ ret, t.event = .canSendNow ret → ∀ ch i, servedSlot t.pre.hal ch = some i →
    (buffer t.pre.hal i ch).ready = true →
    ∀ k, t.pre.live (t.pre.hal.btConnections i).handle = some k → k.sent ch ≠ []

/-- The live connection a served slot sends to is the recorded one of that slot. -/
theorem recorded_of_live (ht : Tracks w.hal.btConnections w.peers) (hz : w.live 0 = none)
    {i : Slot} (hk : w.live (w.hal.btConnections i).handle = some k) :
    k.recorded = true ∧ (w.hal.btConnections i).mac = k.mac := by
  have hne : (w.hal.btConnections i).handle ≠ 0 := by
    intro h0
    rw [h0, hz] at hk
    cases hk
  have hp := ht.resolved i hne
  rw [World.peers, hk] at hp
  have he : k.toPeer = ⟨(w.hal.btConnections i).mac, true⟩ := by simpa using hp
  exact ⟨congrArg Peer.recorded he, (congrArg Peer.mac he).symm⟩

theorem valueHandle_injective {c d : Channel} (h : c.valueHandle = d.valueHandle) : c = d := by
  cases c <;> cases d <;> first | rfl | exact absurd h (by decide)

theorem confidential_iff (ht : Tracks w.hal.btConnections w.peers) (hz : w.live 0 = none)
    (last : SessionsRelated HoldsLast w) {e : Event} {v : World} {out : List Call}
    (hs : w.step e = some (v, out)) :
    Confidential ⟨w, e, out, v⟩ ↔ FlagsInSession ⟨w, e, out, v⟩ := by
  constructor
  · rintro conf ret rfl ch i slot ready k hk hnil
    obtain ⟨_, hout⟩ := total_step (step_world hs).1
    have sent : Call.notify (w.hal.btConnections i).handle ch.valueHandle
        (buffer w.hal i ch).value (ret ch) ∈ served w.hal ch (ret ch) := by
      simp [served, slot, ready]
    have issued : Call.notify (w.hal.btConnections i).handle ch.valueHandle
        (buffer w.hal i ch).value (ret ch) ∈ out := by
      rw [← hout, canSendNow_calls]
      cases ch <;> simp [sent]
    obtain ⟨c, hc, hmem⟩ := conf _ _ _ _ issued k hk
    rw [← valueHandle_injective hc, hnil] at hmem
    cases hmem
  · intro flags handle attHandle value ret hc k hk
    cases step_call (step_world hs).1 hc with
    | notified rets ch i slot ready =>
      obtain ⟨hrec, hmac⟩ := recorded_of_live ht hz hk
      have some : k.sent ch ≠ [] := flags rets rfl ch i slot ready k hk
      have current := last _ k i hk hrec hmac ch _ (List.getLast?_eq_some_getLast some)
      exact ⟨ch, rfl, current.1 ▸ List.getLast_mem some⟩

/-- A step discloses nothing exactly when no flag it acts on is left over from before the
connection, which is the case throughout a run that reuses only slots with lowered flags. -/
theorem notify_confidentiality
    (h : Execution World.step (fun w e => Enabled w e ∧ NonZeroHandle e) World.initial tr w) :
    (∀ t ∈ tr, Confidential t ↔ FlagsInSession t) ∧
    ((∀ t ∈ tr, TakesSlot (fun b => b.ready = false) t.pre t.event) →
      ∀ t ∈ tr, Confidential t) := by
  have exact_step : ∀ t ∈ tr, Confidential t ↔ FlagsInSession t := by
    intro t ht
    obtain ⟨_, hx, _, hs⟩ := h.transition ht
    have lawful := hx.mono fun _ _ he => he.1
    exact confidential_iff (world_tracks lawful) (no_live_zero_handle (fun _ _ he => he.2) hx)
      (sessions_hold_last lawful) hs
  refine ⟨exact_step, ?_⟩
  intro takes t ht
  rw [exact_step t ht]
  obtain ⟨_, hx, ⟨⟨_, _⟩, _⟩, hs⟩ := (h.restrict takes).transition ht
  have tracks := world_tracks (hx.mono fun _ _ he => he.1.1)
  have zero := no_live_zero_handle (fun _ _ he => he.1.2) hx
  have related := session_buffers readyInSession_relation
    (hx.mono fun _ _ he => ⟨he.1.1, he.2⟩)
  intro ret _ ch i _ ready k hk
  obtain ⟨hrec, hmac⟩ := recorded_of_live tracks zero hk
  exact related _ k i hk hrec hmac ch ready

theorem notify_confidentiality_one_peer :
    ∃ tr w, run World.step World.initial
        [.hci (.leConnectionComplete 0 0x40 peerA), .writeData peerA [1, 2, 3] .linkRead,
          .canSendNow fun _ => 0] = some (tr, w) ∧
      (∀ t ∈ tr, Confidential t) ∧
      outputsOf tr = [.linkConnect peerA, .requestCanSendNow 0x40,
        .notify 0x40 0x0003 [1, 2, 3] 0] := by
  refine ⟨_, _, rfl, (notify_confidentiality
    ((execution_of_lawful [.hci (.leConnectionComplete 0 0x40 peerA),
      .writeData peerA [1, 2, 3] .linkRead, .canSendNow fun _ => 0] (by decide) rfl).restrict
        (H := fun _ e => NonZeroHandle e) ?_)).2 ?_, by decide⟩
  · decide
  · rintro t (_ | ⟨_, _ | ⟨_, _ | ⟨_, ⟨⟩⟩⟩⟩)
    · intro _ i _ ch
      exact congrArg ReadBuffer.ready (initial_buffer i ch)
    · trivial
    · trivial

/-- Two peers disconnect with payloads pending; the second returns, takes the slot of the
first, and is sent what the first was to receive. -/
theorem leftover_payload_sent_to_next_peer :
    ∃ tr w, Execution World.step (fun w e => Enabled w e ∧ NonZeroHandle e) World.initial tr w ∧
      (∃ t ∈ tr, ¬ Confidential t) ∧
      outputsOf tr = [.linkConnect peerA, .linkConnect peerB, .requestCanSendNow 0x40,
        .requestCanSendNow 0x41, .linkDisconnect peerA, .linkDisconnect peerB,
        .linkConnect peerB, .notify 0x42 0x0003 [1, 2, 3] 0] := by
  refine ⟨_, _, (execution_of_lawful [.hci (.leConnectionComplete 0 0x40 peerA),
    .hci (.leConnectionComplete 0 0x41 peerB), .writeData peerA [1, 2, 3] .linkRead,
    .writeData peerB [4] .linkRead, .hci (.disconnectionComplete 0x40),
    .hci (.disconnectionComplete 0x41), .hci (.leConnectionComplete 0 0x42 peerB),
    .canSendNow fun _ => 0] (by decide) rfl).restrict (H := fun _ e => NonZeroHandle e) ?_,
    ⟨_, List.getLast_mem (List.cons_ne_nil _ _), ?_⟩, by decide⟩
  · decide
  · intro conf
    obtain ⟨ch, _, hmem⟩ := conf 0x42 0x0003 [1, 2, 3] 0 (by decide) _ rfl
    cases hmem

end NotifyConfidentiality
