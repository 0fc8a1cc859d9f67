import HmkitWorkspace.HandleResolution
import HmkitWorkspace.SessionBuffers

/-! # Slots without an owner

A slot is claimed when an outgoing connection is asked for and when a connection completes,
but released on a disconnection only: an attempt that fails keeps its slot. -/
namespace ConnectionSlotLeak

open TransitionRuns HmkitCoreConnectivityHal ConnectionTableInvariant ConnectionHistory
  HandleResolution SessionBuffers

variable {t : BtConnections} {p : PeerMap} {attempts : Finset Mac} {mac : Mac}
  {handle : HciConHandle} {i j : Slot} {w v : World} {e : Event} {out : List Call} {tr : History}

/-- Every slot is occupied exactly when its address has a live recorded connection or a
pending attempt. -/
def Accounts (t : BtConnections) (p : PeerMap) (attempts : Finset Mac) : Prop :=
  ∀ i, (t i).isEmpty = true ↔ Connected p (t i).mac ∨ (t i).mac ∈ attempts

def NoLeak (w : World) : Prop := Accounts w.hal.btConnections w.peers w.attempts

/-! ## What each event does to the account -/

theorem slotFor_other (inv : TableInvariant t) (hm : mac ≠ 0) (hs : slotFor t mac = some i)
    (hj : j ≠ i) : (t j).mac ≠ mac := by
  intro he
  rcases slotFor_cases hs with hi | ⟨absent, _⟩
  · exact hj (inv.distinct j i (he.trans hi.symm) (he ▸ hm))
  · exact absent j he

theorem slotFor_none (hs : slotFor t mac = none) :
    (∀ j, (t j).mac ≠ mac) ∧ ∀ j, (t j).isEmpty = true := by
  simp only [slotFor] at hs
  split at hs
  · cases hs
  · rename_i hl
    exact ⟨lookup_mac_none_iff.mp hl, firstFreeSlot_none_iff.mp hs⟩

theorem Accounts.accepted (h : Accounts t p attempts) (inv : TableInvariant t) (hm : mac ≠ 0) :
    Accounts (createBtConnection t mac) p (insert mac attempts) := by
  have other : ∀ j, (t j).mac ≠ mac →
      ((t j).isEmpty = true ↔ Connected p (t j).mac ∨ (t j).mac ∈ insert mac attempts) := by
    intro j hj
    rw [Finset.mem_insert, or_iff_right hj]
    exact h j
  rw [inv.createBtConnection_eq hm]
  cases hs : slotFor t mac with
  | none => exact fun j => other j ((slotFor_none hs).1 j)
  | some i =>
    intro j
    by_cases hj : j = i
    · subst j; simp
    · simpa [hj] using other j (slotFor_other inv hm hs hj)

/-- A refused attempt leaves the account and the table as they were exactly when it found
nothing to claim. -/
theorem Accounts.refused (h : Accounts t p attempts) (mac : Mac) :
    (Accounts (createBtConnection t mac) p attempts ∧ createBtConnection t mac = t) ↔
      (∃ i, (t i).mac = mac) ∨ ∀ i, (t i).isEmpty = true := by
  cases hl : getBtConnectionUsingMac t mac with
  | some i =>
    rw [createBtConnection_of_present hl]
    exact ⟨fun _ => .inl ⟨i, mac_of_lookup hl⟩, fun _ => ⟨h, rfl⟩⟩
  | none =>
    have absent : ¬ ∃ i, (t i).mac = mac := fun ⟨i, hi⟩ => lookup_mac_none_iff.mp hl i hi
    rw [or_iff_right absent, ← firstFreeSlot_none_iff, createBtConnection_of_absent hl]
    cases hf : firstFreeSlot t with
    | none => exact ⟨fun _ => rfl, fun _ => ⟨h, rfl⟩⟩
    | some i =>
      refine ⟨fun ⟨_, same⟩ => ?_, fun hn => by cases hn⟩
      have claimed := congrArg BtConnection.isEmpty (congrFun same i)
      simp [free_of_firstFreeSlot hf] at claimed

theorem Accounts.complete (h : Accounts t p attempts) (inv : TableInvariant t) (hm : mac ≠ 0)
    (fresh : p handle = none) (hs : slotFor t mac = some i) :
    Accounts (Function.update t i { t i with mac := mac, isEmpty := true, handle := handle })
      (Function.update p handle (some ⟨mac, true⟩)) (attempts.erase mac) := by
  intro j
  by_cases hj : j = i
  · subst j
    simp [connected_insert fresh]
  · have hne := slotFor_other inv hm hs hj
    simpa [hj, connected_insert fresh, hne, hne.symm] using h j

theorem Accounts.unrecorded (h : Accounts t p attempts) (fresh : p handle = none)
    (hs : slotFor t mac = none) :
    Accounts t (Function.update p handle (some ⟨mac, false⟩)) (attempts.erase mac) := by
  intro j
  simpa [connected_insert fresh, (slotFor_none hs).1 j] using h j

theorem Accounts.failed (h : Accounts t p attempts) (inv : TableInvariant t) (hm : mac ≠ 0) :
    Accounts t p (attempts.erase mac) ↔ ∀ i, (t i).mac = mac → Connected p mac := by
  constructor
  · rintro account i rfl
    have occupied := (inv.occupied_iff i).mpr hm
    simpa using (account i).mp occupied
  · intro owned i
    by_cases hi : (t i).mac = mac
    · have hc := owned i hi
      have occupied := (inv.occupied_iff i).mpr (hi ▸ hm)
      simp [hi, hc, occupied]
    · simpa [hi] using h i

theorem Accounts.release (h : Accounts t p attempts) (inv : TableInvariant t)
    (distinct : DistinctPeers p) (hz : (0 : Mac) ∉ attempts)
    (hp : p handle = some ⟨(t i).mac, true⟩) :
    Accounts (deleteBtConnection t (.slot i)) (Function.update p handle none) attempts := by
  intro j
  have idle : ¬ Connected p 0 := fun ⟨hd, hq⟩ => distinct.nonzero hd _ hq rfl
  rcases Bool.eq_false_or_eq_true (t j).isEmpty with ho | ho
  · by_cases hj : j = i
    · subst j
      simp [delete_self, clearConnectionData, connected_erase distinct hp, idle, hz]
    · have hne : (t i).mac ≠ (t j).mac := fun he =>
        hj (inv.distinct i j he (he ▸ (inv.occupied_iff j).mp ho)).symm
      rw [inv.delete_other ho hj]
      simpa [connected_erase distinct hp, hne] using h j
  · have cleared : (deleteBtConnection t (.slot i) j).isEmpty = false ∧
        (deleteBtConnection t (.slot i) j).mac = 0 := by
      rcases delete_cases t i j with he | he
      · rw [he]; exact ⟨ho, inv.free_iff.mp ho⟩
      · rw [he]; exact ⟨rfl, rfl⟩
    simp [cleared, connected_erase distinct hp, idle, hz]

theorem Accounts.forget (h : Accounts t p attempts) (distinct : DistinctPeers p)
    (hp : p handle = some ⟨mac, false⟩) : Accounts t (Function.update p handle none) attempts := by
  intro j
  simpa [connected_erase distinct hp] using h j

/-! ## Runs -/

/-- Neither the core nor the controller names the all-zero address. -/
def NonZeroAddress : Event → Prop
  | .connect mac _ _ => mac ≠ 0
  | .hci (.leConnectionComplete _ _ address) => address ≠ 0
  | _ => True

instance : DecidablePred NonZeroAddress
  | .connect mac _ _ => inferInstanceAs (Decidable (mac ≠ 0))
  | .hci (.leConnectionComplete _ _ address) => inferInstanceAs (Decidable (address ≠ 0))
  | .hci (.disconnectionComplete _) | .hci .other | .disconnect _ | .writeData _ _ _
  | .attRead _ _ _ _ _ _ | .attWrite _ _ _ | .canSendNow _ | .mtuExchangeComplete _ _ _ =>
    isTrue trivial

/-- A refused attempt leaves the table as it was. -/
def Restores (t : Transition World Event Call) : Prop :=
  ∀ mac macType ret, t.event = .connect mac macType ret → ret ≠ 0 →
    t.post.hal.btConnections = t.pre.hal.btConnections

/-- A successful connection is reported unless all slots are in real use. -/
def Reported (t : Transition World Event Call) : Prop :=
  ∀ handle address, t.event = .hci (.leConnectionComplete 0 handle address) →
    Call.linkConnect address ∈ t.outputs ∨
      ∀ i, Connected t.pre.peers (t.pre.hal.btConnections i).mac ∨
        (t.pre.hal.btConnections i).mac ∈ t.pre.attempts

/-- A refused attempt finds its address in the table or the table full; a failed connection
finds no slot of its address but that of a live recorded connection. -/
def Harmless (w : World) : Event → Prop
  | .connect mac _ ret => ret ≠ 0 →
    (∃ i, (w.hal.btConnections i).mac = mac) ∨ ∀ i, (w.hal.btConnections i).isEmpty = true
  | .hci (.leConnectionComplete status _ address) => status ≠ 0 →
    ∀ i, (w.hal.btConnections i).mac = address → Connected w.peers address
  | _ => True

def Balanced (t : Transition World Event Call) : Prop :=
  NoLeak t.post ∧ Restores t ∧ Reported t

/-- What the runs considered keep besides the account. -/
structure Sound (w : World) : Prop where
  table : TableInvariant w.hal.btConnections
  tracks : Tracks w.hal.btConnections w.peers
  attempts : (0 : Mac) ∉ w.attempts
  live : w.live 0 = none

abbrev Guard (w : World) (e : Event) : Prop := Enabled w e ∧ NonZeroHandle e ∧ NonZeroAddress e

theorem sound (h : Execution World.step Guard World.initial tr w) : Sound w := by
  have lawful := h.mono fun _ _ he => he.1
  refine ⟨world_table_invariant h, world_tracks lawful, ?_,
    no_live_zero_handle (fun _ _ he => he.2.1) h⟩
  refine h.invariant (fun w => (0 : Mac) ∉ w.attempts) (by simp [World.initial]) ?_
  intro w e out v before guard hs
  rcases guard with ⟨_, _, hm⟩
  rw [(step_world hs).2.2.1]
  cases e with
  | connect mac macType ret =>
    by_cases hr : ret = 0
    · simpa [attemptsAfter, hr, before] using hm.symm
    · simpa [attemptsAfter, hr] using before
  | hci p => cases p <;> simp [attemptsAfter, before]
  | _ => exact before

theorem balanced_complete (hw : Sound w) (account : NoLeak w) {address : Mac}
    (he : Guard w (.hci (.leConnectionComplete 0 handle address)))
    (hs : w.step (.hci (.leConnectionComplete 0 handle address)) = some (v, out)) :
    Balanced ⟨w, .hci (.leConnectionComplete 0 handle address), out, v⟩ := by
  obtain ⟨hal, hout⟩ := step_hci hs
  have hp := step_peers hs
  have ha := (step_world hs).2.2.1
  obtain ⟨fresh, hm, _⟩ := he.1 rfl
  have fresh : w.peers handle = none := by simp [World.peers, fresh]
  rw [complete_eq hw.table hm] at hal hout
  cases hsl : slotFor w.hal.btConnections address with
  | none =>
    rw [hsl] at hal hout
    refine ⟨?_, by simp [Restores], ?_⟩
    · simpa [NoLeak, hal, hp, ha, hout, peersAfter, attemptsAfter] using
        Accounts.unrecorded account fresh hsl
    · intro _ _ _
      exact .inr fun i => (account i).mp ((slotFor_none hsl).2 i)
  | some i =>
    rw [hsl] at hal hout
    refine ⟨?_, by simp [Restores], ?_⟩
    · simpa [NoLeak, hal, hp, ha, hout, peersAfter, attemptsAfter] using
        Accounts.complete account hw.table hm fresh hsl
    · rintro _ _ ⟨⟩
      exact .inl (by simp [hout])

theorem no_leak_disconnection (hw : Sound w) (account : NoLeak w)
    (he : Guard w (.hci (.disconnectionComplete handle)))
    (hs : w.step (.hci (.disconnectionComplete handle)) = some (v, out)) : NoLeak v := by
  obtain ⟨hal, _⟩ := step_hci hs
  have hp := step_peers hs
  have ha := (step_world hs).2.2.1
  obtain ⟨k, hk⟩ := he.1
  have hz : handle ≠ 0 := by
    rintro rfl
    rw [hw.live] at hk
    cases hk
  have res := (resolves_iff hw.table hw.tracks).mpr fun h0 => absurd h0 hz
  have hq : w.peers handle = some k.toPeer := by simp [World.peers, hk]
  cases hrec : k.recorded with
  | false =>
    have hq' : w.peers handle = some ⟨k.mac, false⟩ := by rw [hq, ← hrec]
    have hl := res.2 (by simp [hq'])
    simpa [NoLeak, hal, hp, ha, hciPacketHandler, hl, peersAfter, attemptsAfter] using
      Accounts.forget account hw.tracks.toDistinctPeers hq'
  | true =>
    have hq' : w.peers handle = some ⟨k.mac, true⟩ := by rw [hq, ← hrec]
    obtain ⟨i, hl, hm, _⟩ := res.1 k.mac hq'
    simpa [NoLeak, hal, hp, ha, hciPacketHandler, hl, peersAfter, attemptsAfter] using
      Accounts.release account hw.table hw.tracks.toDistinctPeers hw.attempts (hm.symm ▸ hq')

theorem no_leak_congr (account : NoLeak w)
    (same : ∀ i, SameHeader (w.hal.btConnections i) (v.hal.btConnections i))
    (hp : v.peers = w.peers) (ha : v.attempts = w.attempts) : NoLeak v := by
  intro i
  rw [(same i).isEmpty, (same i).mac, hp, ha]
  exact account i

/-- A failed complete gives up its attempt, the slot stays with the attempt's address. -/
theorem balanced_failed (hw : Sound w) (account : NoLeak w) {status : UInt8} {address : Mac}
    (hst : status ≠ 0) (he : Guard w (.hci (.leConnectionComplete status handle address)))
    (hs : w.step (.hci (.leConnectionComplete status handle address)) = some (v, out)) :
    Balanced ⟨w, .hci (.leConnectionComplete status handle address), out, v⟩ ↔
      Harmless w (.hci (.leConnectionComplete status handle address)) := by
  have hal := (step_hci hs).1
  have hp := step_peers hs
  have ha := (step_world hs).2.2.1
  have after : NoLeak v ↔ ∀ i, (w.hal.btConnections i).mac = address →
      Connected w.peers address := by
    rw [← Accounts.failed account hw.table he.2.2]
    simp [NoLeak, hal, hp, ha, hciPacketHandler, hst, peersAfter, attemptsAfter]
  constructor
  · intro balanced _
    rcases balanced with ⟨leak, _⟩
    exact after.mp leak
  · intro harmless
    refine ⟨after.mpr (harmless hst), by simp [Restores], ?_⟩
    rintro _ _ ⟨⟩
    exact absurd rfl hst

theorem balanced_connect (hw : Sound w) (account : NoLeak w) {mac : Mac} {macType ret : UInt8}
    (he : Guard w (.connect mac macType ret))
    (hs : w.step (.connect mac macType ret) = some (v, out)) :
    Balanced ⟨w, .connect mac macType ret, out, v⟩ ↔ Harmless w (.connect mac macType ret) := by
  obtain ⟨hal, _⟩ := total_step (step_world hs).1
  have hp := step_peers hs
  have ha := (step_world hs).2.2.1
  have post : v.hal.btConnections = createBtConnection w.hal.btConnections mac := by
    rw [← hal]
    rfl
  by_cases hr : ret = 0
  · subst ret
    have accepted := Accounts.accepted account hw.table he.2.2
    refine ⟨fun _ hne => absurd rfl hne, fun _ => ⟨?_, ?_, by simp [Reported]⟩⟩
    · simpa [NoLeak, post, hp, ha, peersAfter, attemptsAfter] using accepted
    · rintro _ _ _ ⟨⟩ hne
      exact absurd rfl hne
  · have refused := Accounts.refused account mac
    have leak : NoLeak v ↔
        Accounts (createBtConnection w.hal.btConnections mac) w.peers w.attempts := by
      simp [NoLeak, post, hp, ha, peersAfter, attemptsAfter, hr]
    constructor
    · intro balanced _
      rcases balanced with ⟨account', restores, _⟩
      exact refused.mp ⟨leak.mp account', post.symm.trans (restores _ _ _ rfl hr)⟩
    · intro harmless
      obtain ⟨account', same⟩ := refused.mpr (harmless hr)
      exact ⟨leak.mpr account', fun _ _ _ _ _ => post.trans same, by simp [Reported]⟩

theorem balanced_iff (hw : Sound w) (account : NoLeak w) (he : Guard w e)
    (hs : w.step e = some (v, out)) : Balanced ⟨w, e, out, v⟩ ↔ Harmless w e := by
  have hp := step_peers hs
  have ha := (step_world hs).2.2.1
  have table := step_table (step_world hs).1
  cases e with
  | hci packet =>
    cases packet with
    | leConnectionComplete status handle address =>
      by_cases hst : status = 0
      · subst status
        exact ⟨fun _ hne => absurd rfl hne, fun _ => balanced_complete hw account he hs⟩
      · exact balanced_failed hw account hst he hs
    | disconnectionComplete handle =>
      exact ⟨fun _ => trivial, fun _ => ⟨no_leak_disconnection hw account he hs,
        by simp [Restores], by simp [Reported]⟩⟩
    | other =>
      have hal := (step_hci hs).1
      exact ⟨fun _ => trivial, fun _ => ⟨no_leak_congr account
        (fun i => by rw [hal]; exact .refl _) hp ha, by simp [Restores], by simp [Reported]⟩⟩
  | connect => exact balanced_connect hw account he hs
  | _ =>
    cases table with
    | keep _ _ same => exact ⟨fun _ => trivial, fun _ => ⟨no_leak_congr account same hp ha,
        by simp [Restores], by simp [Reported]⟩⟩

theorem initial_no_leak : NoLeak World.initial := by
  intro i
  simp [World.initial, HmkitCoreConnectivityHal.initial, init_btConnections,
    clearConnectionData, Connected, World.peers]

/-- A run leaks no slot, undoes every refusal and reports every connection it has room for
exactly when no attempt fails in a slot of its own. -/
theorem connection_slots_accounted (h : Execution World.step Guard World.initial tr w) :
    (∀ t ∈ tr, Balanced t) ↔ ∀ t ∈ tr, Harmless t.pre t.event := by
  apply h.forall_iff NoLeak initial_no_leak
  · intro t balanced
    exact balanced.1
  · intro tr s e out u hx account hg hs
    exact balanced_iff (sound hx) account hg hs

theorem connection_slots_accounted_one_peer :
    ∃ tr w, run World.step World.initial [.connect peerA 0 0,
        .hci (.leConnectionComplete 0 0x40 peerA), .hci (.disconnectionComplete 0x40)] =
          some (tr, w) ∧ ∀ t ∈ tr, Balanced t := by
  refine ⟨_, _, rfl, (connection_slots_accounted ((execution_of_lawful
    [.connect peerA 0 0, .hci (.leConnectionComplete 0 0x40 peerA),
      .hci (.disconnectionComplete 0x40)] (by decide) rfl).restrict
        (H := fun _ e => NonZeroHandle e ∧ NonZeroAddress e) ?_)).mpr ?_⟩
  · decide
  · rintro t (_ | ⟨_, _ | ⟨_, _ | ⟨_, ⟨⟩⟩⟩⟩)
    · exact fun hne => absurd rfl hne
    · exact fun hne => absurd rfl hne
    · trivial

/-- An address for each of the ten slots. -/
def unreachable (n : ℕ) : Mac := ⟨[UInt8.ofNat (n + 1), 0, 0, 0, 0, 0], rfl⟩

/-- After ten refused attempts every slot is taken and a peer that connects goes unreported. -/
theorem refused_attempts_fill_table :
    ∃ tr w, Execution World.step Guard World.initial tr w ∧
      w.peers 0x40 = some ⟨peerB, false⟩ ∧ Call.linkConnect peerB ∉ outputsOf tr ∧
      (∀ i, (w.hal.btConnections i).isEmpty = true ∧ (w.hal.btConnections i).mac ∉ w.attempts) ∧
      ¬ ∀ t ∈ tr, Balanced t := by
  refine ⟨_, _, (execution_of_lawful
    ((List.range 10).map (fun n => .connect (unreachable n) 0 0x0c) ++
      [.hci (.leConnectionComplete 0 0x40 peerB)]) (by decide) rfl).restrict
        (H := fun _ e => NonZeroHandle e ∧ NonZeroAddress e) ?_, by decide, by decide,
        by decide, ?_⟩
  · decide
  · intro balanced
    rcases ((balanced _ (.head _)).1 0).mp (by decide) with ⟨_, live⟩ | pending
    · cases live
    · exact absurd pending (by decide)

end ConnectionSlotLeak
