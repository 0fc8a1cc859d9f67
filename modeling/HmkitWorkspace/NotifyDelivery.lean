import HmkitWorkspace.HandleResolution
import HmkitWorkspace.SessionBuffers
import Mathlib.Data.Set.Card

/-! # Payloads written to several peers

Each slot has its own ready flag, but one global address for each characteristic tells a
can-send event which slot to serve: a flag that the address does not point to stays up. -/
namespace NotifyDelivery

open TransitionRuns FixedSlots HmkitCoreConnectivityHal ConnectionTableInvariant ReadBuffers
  ConnectionHistory HandleResolution SessionBuffers

variable {w v w₀ w' : World} {e : Event} {out : List Call} {tr tr₀ tr' : History}
  {handle : HciConHandle} {mac : Mac} {c : Channel} {i j : Slot}

/-- A connected slot whose payload has not been notified yet. -/
def Outstanding (w : World) (c : Channel) (i : Slot) : Prop :=
  Held w i ∧ (buffer w.hal i c).ready = true

/-- Writes on one characteristic to connected peers with nothing outstanding, and can-send
events. -/
def Interleaving (c : Channel) (w : World) : Event → Prop
  | .canSendNow _ => True
  | .writeData mac _ characteristic => channelOf characteristic = some c ∧
    Connected w.peers mac ∧
    ∀ i, (w.hal.btConnections i).mac = mac → (buffer w.hal i c).ready = false
  | _ => False

def CanSend (_ : World) : Event → Prop
  | .canSendNow _ => True
  | _ => False

/-- The payloads notified on a handle and a characteristic. -/
def notified (handle : HciConHandle) (c : Channel) (calls : List Call) : List (List UInt8) :=
  calls.filterMap fun
    | .notify hd attHandle value _ =>
      if hd = handle ∧ attHandle = c.valueHandle then some value else none
    | _ => none

/-- The payload waiting in the slot of an address. -/
def pending (w : World) (mac : Mac) (c : Channel) : List (List UInt8) :=
  match getBtConnectionUsingMac w.hal.btConnections mac with
  | some i => if (buffer w.hal i c).ready then [(buffer w.hal i c).value] else []
  | none => []

def written (mac : Mac) (c : Channel) : Event → List (List UInt8)
  | .writeData m data characteristic =>
    if m = mac ∧ channelOf characteristic = some c then [data] else []
  | _ => []

/-- What was waiting for an address at the start and what was written to it since. -/
def accepted (w₀ : World) (tr : History) (mac : Mac) (c : Channel) : List (List UInt8) :=
  pending w₀ mac c ++ tr.flatMap fun t => written mac c t.event

/-- The can-send handler gets as far as the characteristic. -/
def Servable (w : World) : Channel → Prop
  | .link => True
  | .sensing =>
    ∃ i, getBtConnectionUsingMac w.hal.btConnections (w.hal.readBufferMac .link) = some i

/-- The global address points to every connected slot with something outstanding. -/
def Focused (w : World) (c : Channel) : Prop :=
  ∀ i, Outstanding w c i → servedSlot w.hal c = some i

/-- A write happens with nothing outstanding for any connected peer, and can be served. -/
def WritesAlone (c : Channel) (t : Transition World Event Call) : Prop :=
  ∀ mac data characteristic, t.event = .writeData mac data characteristic →
    (∀ i, ¬ Outstanding t.pre c i) ∧ Servable t.pre c

/-! ## Steps -/

theorem interleaving_enabled (hi : Interleaving c w e) : Enabled w e := by
  cases e <;> trivial

theorem step_headers (hi : Interleaving c w e) (hs : w.step e = some (v, out)) :
    (∀ i, SameHeader (w.hal.btConnections i) (v.hal.btConnections i)) ∧ v.peers = w.peers := by
  have hp := step_peers hs
  have table := step_table (step_world hs).1
  cases e with
  | canSendNow _ | writeData _ _ _ => cases table with | keep _ _ same => exact ⟨same, hp⟩
  | _ => exact absurd hi id

theorem held_iff (hi : Interleaving c w e) (hs : w.step e = some (v, out)) :
    Held v i ↔ Held w i := by
  obtain ⟨same, hp⟩ := step_headers hi hs
  rw [Held, Held, (same i).mac, hp]

theorem servedSlot_eq (w : World) (c : Channel) :
    servedSlot w.hal c = some i ↔ Servable w c ∧
      getBtConnectionUsingMac w.hal.btConnections (w.hal.readBufferMac c) = some i := by
  cases c with
  | link => simp [servedSlot, Servable]
  | sensing =>
    simp only [servedSlot, Servable, ← Option.isSome_iff_exists]
    split <;> simp_all

theorem write_stores {data : List UInt8} {characteristic : Characteristic}
    (inv : TableInvariant w.hal.btConnections) (ht : Tracks w.hal.btConnections w.peers)
    (hi : Interleaving c w (.writeData mac data characteristic))
    (hs : w.step (.writeData mac data characteristic) = some (v, out)) :
    ∃ i, getBtConnectionUsingMac w.hal.btConnections mac = some i ∧ Held w i ∧
      Stores w.hal i c mac data v.hal ∧
      out = [.requestCanSendNow (w.hal.btConnections i).handle] := by
  obtain ⟨channel, ⟨hd, hp⟩, _⟩ := hi
  obtain ⟨i, hm, _⟩ := ht.recorded hd mac hp
  have lookup := inv.lookup_mac (ht.nonzero hd ⟨mac, true⟩ hp) hm
  have target : writeTarget w.hal mac characteristic = some (i, c) := by
    simp [writeTarget, lookup, channel]
  have hw := (writeData_eq w.hal mac data characteristic).symm.trans (step_world hs).1
  rw [target] at hw
  obtain ⟨stores, calls⟩ := storePayload_stores hw
  exact ⟨i, lookup, ⟨hd, hm ▸ hp⟩, stores, calls⟩

theorem servable_iff (inv : TableInvariant w.hal.btConnections)
    (ht : Tracks w.hal.btConnections w.peers) (hi : Interleaving c w e)
    (hs : w.step e = some (v, out)) : Servable v c ↔ Servable w c := by
  cases c with
  | link => exact Iff.rfl
  | sensing =>
    have same := lookup_mac_congr fun i => ((step_headers hi hs).1 i).mac
    have kept : v.hal.readBufferMac .link = w.hal.readBufferMac .link := by
      cases e with
      | canSendNow ret =>
        obtain ⟨hv, _⟩ := total_step (step_world hs).1
        rw [← hv, canSendNow_readBufferMac]
      | writeData mac data characteristic =>
        obtain ⟨_, _, _, stores, _⟩ := write_stores inv ht hi hs
        simp [stores.readBufferMac]
      | _ => exact absurd hi id
    simp only [Servable, same, kept]

theorem write_servedSlot {data : List UInt8} {characteristic : Characteristic}
    (inv : TableInvariant w.hal.btConnections) (ht : Tracks w.hal.btConnections w.peers)
    (hi : Interleaving c w (.writeData mac data characteristic))
    (hs : w.step (.writeData mac data characteristic) = some (v, out))
    (lookup : getBtConnectionUsingMac w.hal.btConnections mac = some i)
    (stores : Stores w.hal i c mac data v.hal) :
    servedSlot v.hal c = some j ↔ Servable w c ∧ i = j := by
  have same := lookup_mac_congr fun i => ((step_headers hi hs).1 i).mac
  rw [servedSlot_eq, servable_iff inv ht hi hs, stores.readBufferMac, Function.update_self,
    same, lookup, Option.some.injEq]

theorem canSend_servedSlot {ret : Channel → ℤ} (hs : w.step (.canSendNow ret) = some (v, out))
    (c : Channel) : servedSlot v.hal c = servedSlot w.hal c := by
  obtain ⟨hv, _⟩ := total_step (step_world hs).1
  have same := lookup_mac_congr fun i => (canSendNow_header w.hal ret i).mac
  rw [← hv]
  cases c <;> simp [servedSlot, canSendNow_readBufferMac, same]

theorem canSend_ready {ret : Channel → ℤ} (hs : w.step (.canSendNow ret) = some (v, out))
    (i : Slot) (c : Channel) :
    (buffer v.hal i c).ready = true ↔
      (buffer w.hal i c).ready = true ∧ servedSlot w.hal c ≠ some i := by
  obtain ⟨hv, _⟩ := total_step (step_world hs).1
  rw [← hv, canSendNow_buffer]
  by_cases h : servedSlot w.hal c = some i <;> simp [h]

/-! ## A flag that is not pointed to -/

/-- Once the address points elsewhere the flag stays up, whatever is written or sent. -/
theorem stuck_step (inv : TableInvariant w.hal.btConnections)
    (ht : Tracks w.hal.btConnections w.peers) (hi : Interleaving c w e)
    (hs : w.step e = some (v, out)) (stuck : ¬ Focused w c) : ¬ Focused v c := by
  obtain ⟨j, ⟨held, ready⟩, astray⟩ : ∃ j, Outstanding w c j ∧ servedSlot w.hal c ≠ some j := by
    simpa [Focused] using stuck
  intro focused
  have held' := (held_iff hi hs).mpr held
  cases e with
  | canSendNow ret =>
    have ready' := (canSend_ready hs j c).mpr ⟨ready, astray⟩
    have served := focused j ⟨held', ready'⟩
    rw [canSend_servedSlot hs] at served
    exact astray served
  | writeData mac data characteristic =>
    obtain ⟨i, lookup, _, stores, _⟩ := write_stores inv ht hi hs
    have hij : j ≠ i := by
      rintro rfl
      rw [hi.2.2 j (mac_of_lookup lookup)] at ready
      cases ready
    have ready' : (buffer v.hal j c).ready = true := by
      rw [stores.others j c fun h => hij h.1]
      exact ready
    have served := focused j ⟨held', ready'⟩
    rw [write_servedSlot inv ht hi hs lookup stores] at served
    exact hij served.2.symm
  | _ => exact absurd hi id

theorem write_focused_iff {data : List UInt8} {characteristic : Characteristic}
    (inv : TableInvariant w.hal.btConnections) (ht : Tracks w.hal.btConnections w.peers)
    (hi : Interleaving c w (.writeData mac data characteristic))
    (hs : w.step (.writeData mac data characteristic) = some (v, out)) :
    Focused v c ↔ (∀ i, ¬ Outstanding w c i) ∧ Servable w c := by
  obtain ⟨i, lookup, held, stores, _⟩ := write_stores inv ht hi hs
  have others : ∀ j, j ≠ i → (buffer v.hal j c = buffer w.hal j c) :=
    fun j hj => stores.others j c fun h => hj h.1
  constructor
  · intro focused
    have served := focused i ⟨(held_iff hi hs).mpr held, stores.ready⟩
    rw [write_servedSlot inv ht hi hs lookup stores] at served
    refine ⟨?_, served.1⟩
    intro j outstanding
    rcases outstanding with ⟨hj, ready⟩
    have hji : j ≠ i := by
      rintro rfl
      rw [hi.2.2 j (mac_of_lookup lookup)] at ready
      cases ready
    have astray := focused j ⟨(held_iff hi hs).mpr hj, by rw [others j hji]; exact ready⟩
    rw [write_servedSlot inv ht hi hs lookup stores] at astray
    exact hji astray.2.symm
  · intro clear j outstanding
    rcases clear with ⟨alone, servable⟩
    rcases outstanding with ⟨hj, ready⟩
    rw [write_servedSlot inv ht hi hs lookup stores]
    refine ⟨servable, ?_⟩
    by_contra hij
    rw [others j (Ne.symm hij)] at ready
    exact alone j ⟨(held_iff hi hs).mp hj, ready⟩

/-- A step keeps the address pointed to all that is outstanding exactly when it is not a
write beside another outstanding payload. -/
theorem focused_step (inv : TableInvariant w.hal.btConnections)
    (ht : Tracks w.hal.btConnections w.peers) (hi : Interleaving c w e)
    (hs : w.step e = some (v, out)) :
    Focused v c ↔ Focused w c ∧ WritesAlone c ⟨w, e, out, v⟩ := by
  cases e with
  | canSendNow ret =>
    have alone : WritesAlone c ⟨w, .canSendNow ret, out, v⟩ := by simp [WritesAlone]
    refine ⟨fun h => ⟨?_, alone⟩, ?_⟩
    · by_contra stuck
      exact stuck_step inv ht hi hs stuck h
    · intro before i outstanding
      rcases before with ⟨focused, _⟩
      rcases outstanding with ⟨held, ready⟩
      have before := (canSend_ready hs i c).mp ready
      exact absurd (focused i ⟨(held_iff hi hs).mp held, before.1⟩) before.2
  | writeData mac data characteristic =>
    rw [write_focused_iff inv ht hi hs]
    constructor
    · intro clear
      rcases clear with ⟨alone, servable⟩
      refine ⟨fun i hi => absurd hi (alone i), ?_⟩
      rintro _ _ _ ⟨⟩
      exact ⟨alone, servable⟩
    · intro both
      rcases both with ⟨_, h⟩
      exact h mac data characteristic rfl
  | _ => exact absurd hi id

/-! ## Conservation of payloads -/

theorem notified_append (handle : HciConHandle) (c : Channel) (a b : List Call) :
    notified handle c (a ++ b) = notified handle c a ++ notified handle c b :=
  List.filterMap_append

theorem notified_served {ret : Channel → ℤ} (hs : w.step (.canSendNow ret) = some (v, out))
    (hh : (w.hal.btConnections i).handle = handle) (slot : servedSlot w.hal c = some i)
    (ready : (buffer w.hal i c).ready = true) :
    [(buffer w.hal i c).value].Sublist (notified handle c out) := by
  obtain ⟨_, hout⟩ := total_step (step_world hs).1
  have own : notified handle c (served w.hal c (ret c)) = [(buffer w.hal i c).value] := by
    simp [notified, served, slot, ready, hh]
  rw [← hout, canSendNow_calls, List.singleton_sublist]
  simp only [notified_append, List.mem_append]
  cases c <;> simp [own]

theorem pending_eq (lookup : getBtConnectionUsingMac w.hal.btConnections mac = some i) :
    pending w mac c =
      if (buffer w.hal i c).ready then [(buffer w.hal i c).value] else [] := by
  simp [pending, lookup]

/-- What was waiting or is written now is notified now or waits on. -/
theorem conservation_step (inv : TableInvariant w.hal.btConnections)
    (ht : Tracks w.hal.btConnections w.peers) (hi : Interleaving c w e)
    (hs : w.step e = some (v, out)) (hp : w.peers handle = some ⟨mac, true⟩) :
    (pending w mac c ++ written mac c e).Sublist (notified handle c out ++ pending v mac c) := by
  obtain ⟨i, hm, hh⟩ := ht.recorded handle mac hp
  have lookup := inv.lookup_mac (ht.nonzero handle ⟨mac, true⟩ hp) hm
  have same := lookup_mac_congr fun i => ((step_headers hi hs).1 i).mac
  rw [pending_eq lookup, pending_eq ((same mac).trans lookup)]
  cases e with
  | canSendNow ret =>
    have after := canSendNow_buffer w.hal ret i c
    obtain ⟨hv, _⟩ := total_step (step_world hs).1
    have hbuf : buffer (canSendNow w.hal ret).1 i c = buffer v.hal i c := by rw [← hv]
    rw [hbuf] at after
    by_cases slot : servedSlot w.hal c = some i
    · by_cases ready : (buffer w.hal i c).ready = true
      · simpa [after, slot, ready, written] using notified_served hs hh slot ready
      · simp [ready, written]
    · simp [after, slot, written]
  | writeData m data characteristic =>
    obtain ⟨j, lookup', _, stores, rfl⟩ := write_stores inv ht hi hs
    by_cases hmm : m = mac
    · subst m
      have hij : i = j := Option.some.inj (lookup.symm.trans lookup')
      subst j
      have empty := hi.2.2 i hm
      simp [written, hi.1, empty, stores.ready, stores.value, notified]
    · have hij : i ≠ j := by
        rintro rfl
        exact hmm ((mac_of_lookup lookup').symm.trans hm)
      have kept := stores.others i c fun h => hij h.1
      simp [written, hmm, kept, notified]
  | _ => exact absurd hi id

/-! ## Runs -/

theorem reached (h₀ : Execution World.step Enabled World.initial tr₀ w₀)
    (h : Execution World.step (Interleaving c) w₀ tr w) :
    TableInvariant w.hal.btConnections ∧ Tracks w.hal.btConnections w.peers := by
  have whole := h₀.append (h.mono fun _ _ hi => interleaving_enabled hi)
  exact ⟨world_table_invariant whole, world_tracks whole⟩

theorem focused_run (h₀ : Execution World.step Enabled World.initial tr₀ w₀)
    (h : Execution World.step (Interleaving c) w₀ tr w) :
    Focused w c ↔ Focused w₀ c ∧ ∀ t ∈ tr, WritesAlone c t := by
  apply h.state_iff (fun w => Focused w c)
  intro tr s e out u hx hi hs
  obtain ⟨inv, ht⟩ := reached h₀ hx
  exact focused_step inv ht hi hs

theorem conservation_run (h₀ : Execution World.step Enabled World.initial tr₀ w₀)
    (h : Execution World.step (Interleaving c) w₀ tr w)
    (hp : w₀.peers handle = some ⟨mac, true⟩) :
    w.peers = w₀.peers ∧
      (accepted w₀ tr mac c).Sublist (notified handle c (outputsOf tr) ++ pending w mac c) := by
  induction h with
  | init => simp [accepted, notified]
  | @tail tr s e out u hx hi hs ih =>
    obtain ⟨inv, ht⟩ := reached h₀ hx
    obtain ⟨peers, before⟩ := ih
    refine ⟨(step_headers hi hs).2.trans peers, ?_⟩
    have now := conservation_step inv ht hi hs (peers ▸ hp)
    have later : (accepted w₀ tr mac c ++ written mac c e).Sublist
        (notified handle c (outputsOf tr) ++ pending s mac c ++ written mac c e) :=
      before.append_right _
    rw [List.append_assoc] at later
    have all := later.trans (now.append_left (notified handle c (outputsOf tr)))
    simpa [accepted, notified_append, List.append_assoc] using all

theorem canSend_interleaving (hc : CanSend w e) : Interleaving c w e := by
  cases e <;> trivial

theorem drained_step (focused : Focused w c) (hc : CanSend w e)
    (hs : w.step e = some (v, out)) : ∀ i, ¬ Outstanding v c i := by
  cases e with
  | canSendNow ret =>
    intro i outstanding
    rcases outstanding with ⟨held, ready⟩
    have before := (canSend_ready hs i c).mp ready
    have hi : Interleaving c w (.canSendNow ret) := trivial
    exact before.2 (focused i ⟨(held_iff hi hs).mp held, before.1⟩)
  | _ => exact absurd hc id

theorem focused_drain (h₀ : Execution World.step Enabled World.initial tr₀ w₀)
    (drain : Execution World.step CanSend w₀ tr w) : Focused w c ↔ Focused w₀ c := by
  rw [focused_run h₀ (drain.mono fun _ _ hc => canSend_interleaving hc)]
  apply and_iff_left
  intro t ht mac data characteristic he
  obtain ⟨_, _, hc, _⟩ := drain.transition ht
  rw [he] at hc
  exact absurd hc id

theorem drained_iff (h₀ : Execution World.step Enabled World.initial tr₀ w₀)
    (drain : Execution World.step CanSend w₀ tr w)
    (enough : Set.ncard {i | Outstanding w₀ c i} ≤ tr.length) :
    (∀ i, ¬ Outstanding w c i) ↔ Focused w₀ c := by
  constructor
  · intro none
    exact (focused_drain h₀ drain).mp fun i hi => absurd hi (none i)
  · intro focused
    cases drain with
    | init =>
      intro i hi
      have some : 0 < Set.ncard {i | Outstanding w c i} :=
        (Set.ncard_pos (Set.toFinite _)).mpr ⟨i, hi⟩
      rw [List.length_nil] at enough
      omega
    | tail hx hc hs => exact drained_step ((focused_drain h₀ hx).mpr focused) hc hs

/-- Everything accepted was notified on the handle of its peer, in order, and no flag of a
connected slot is up. -/
def Delivered (w₀ : World) (tr tr' : History) (w' : World) (c : Channel) : Prop :=
  (∀ handle mac, w₀.peers handle = some ⟨mac, true⟩ →
    (accepted w₀ tr mac c).Sublist (notified handle c (outputsOf (tr ++ tr')))) ∧
  ∀ i, ¬ Outstanding w' c i

/-- After as many can-send events as there are outstanding payloads all is delivered exactly
when every write happened with nothing else outstanding. -/
theorem interleaved_delivery (h₀ : Execution World.step Enabled World.initial tr₀ w₀)
    (h : Execution World.step (Interleaving c) w₀ tr w)
    (drain : Execution World.step CanSend w tr' w')
    (enough : Set.ncard {i | Outstanding w c i} ≤ tr'.length) :
    Delivered w₀ tr tr' w' c ↔ Focused w₀ c ∧ ∀ t ∈ tr, WritesAlone c t := by
  have whole := h₀.append (h.mono fun _ _ hi => interleaving_enabled hi)
  have drained := drained_iff whole drain enough
  rw [← focused_run h₀ h, ← drained]
  apply and_iff_right_of_imp
  intro none handle mac hp
  have sends : Execution World.step (Interleaving c) w tr' w' :=
    drain.mono fun _ _ hc => canSend_interleaving hc
  obtain ⟨peers, conserved⟩ := conservation_run h₀ (h.append sends) hp
  obtain ⟨inv, ht⟩ := reached h₀ (h.append sends)
  have hp' : w'.peers handle = some ⟨mac, true⟩ := peers ▸ hp
  obtain ⟨i, hm, _⟩ := ht.recorded handle mac hp'
  have ready : ¬ (buffer w'.hal i c).ready = true := fun hr => none i ⟨⟨handle, hm ▸ hp'⟩, hr⟩
  have lookup := inv.lookup_mac (ht.nonzero handle ⟨mac, true⟩ hp') hm
  rw [pending_eq lookup, if_neg ready, List.append_nil] at conserved
  refine (List.Sublist.trans ?_ conserved)
  simp [accepted]

theorem outstanding_count_le (slots : Finset Slot)
    (h : ∀ i, (buffer w.hal i c).ready = true → i ∈ slots) :
    Set.ncard {i | Outstanding w c i} ≤ slots.card := by
  rw [← Set.ncard_coe_finset]
  exact Set.ncard_le_ncard (fun i hi => h i hi.2) slots.finite_toSet

theorem interleaved_delivery_one_at_a_time :
    ∃ tr₀ w₀ tr w tr' w',
      run World.step World.initial [.hci (.leConnectionComplete 0 0x40 peerA),
        .hci (.leConnectionComplete 0 0x41 peerB)] = some (tr₀, w₀) ∧
      run World.step w₀ [.writeData peerA [1] .linkRead, .canSendNow fun _ => 0,
        .writeData peerB [2] .linkRead] = some (tr, w) ∧
      run World.step w [.canSendNow fun _ => 0] = some (tr', w') ∧
      Delivered w₀ tr tr' w' .link := by
  refine ⟨_, _, _, _, _, _, rfl, rfl, rfl, (interleaved_delivery (execution_of_lawful
    [.hci (.leConnectionComplete 0 0x40 peerA),
      .hci (.leConnectionComplete 0 0x41 peerB)] (by decide) rfl)
    (execution_of_run [.writeData peerA [1] .linkRead, .canSendNow fun _ => 0,
      .writeData peerB [2] .linkRead] rfl ?_)
    (execution_of_run [.canSendNow fun _ => 0] rfl ?_) ?_).mpr ⟨?_, ?_⟩⟩
  · rintro t (_ | ⟨_, _ | ⟨_, _ | ⟨_, ⟨⟩⟩⟩⟩)
    · exact ⟨rfl, ⟨0x40, rfl⟩, by decide⟩
    · trivial
    · exact ⟨rfl, ⟨0x41, rfl⟩, by decide⟩
  · rintro t (_ | ⟨_, ⟨⟩⟩)
    trivial
  · exact outstanding_count_le {1} (by decide)
  · rintro i ⟨-, ready⟩
    revert i
    decide
  · rintro t (_ | ⟨_, _ | ⟨_, _ | ⟨_, ⟨⟩⟩⟩⟩) mac data characteristic ⟨⟩
    all_goals
      refine ⟨?_, trivial⟩
      rintro i ⟨-, ready⟩
      revert i
      decide

/-- Payloads for two peers are outstanding at once: the one written first is never sent. -/
theorem earlier_payload_never_sent :
    ∃ tr₀ w₀ tr w tr' w', Execution World.step Enabled World.initial tr₀ w₀ ∧
      Execution World.step (Interleaving .link) w₀ tr w ∧
      Execution World.step CanSend w tr' w' ∧
      Set.ncard {i | Outstanding w .link i} ≤ tr'.length ∧
      outputsOf (tr ++ tr') = [.requestCanSendNow 0x40, .requestCanSendNow 0x41,
        .notify 0x41 0x0003 [2] 0] ∧
      ¬ Delivered w₀ tr tr' w' .link := by
  refine ⟨_, _, _, _, _, _, execution_of_lawful [.hci (.leConnectionComplete 0 0x40 peerA),
      .hci (.leConnectionComplete 0 0x41 peerB)] (by decide) rfl,
    execution_of_run [.writeData peerA [1] .linkRead, .writeData peerB [2] .linkRead] rfl
      ?_, execution_of_run [.canSendNow fun _ => 0, .canSendNow fun _ => 0] rfl ?_,
    ?_, by decide, ?_⟩
  · rintro t (_ | ⟨_, _ | ⟨_, ⟨⟩⟩⟩)
    · exact ⟨rfl, ⟨0x40, rfl⟩, by decide⟩
    · exact ⟨rfl, ⟨0x41, rfl⟩, by decide⟩
  · rintro t (_ | ⟨_, _ | ⟨_, ⟨⟩⟩⟩) <;> trivial
  · exact outstanding_count_le {0, 1} (by decide)
  · intro delivered
    exact delivered.2 0 ⟨⟨0x40, rfl⟩, by decide⟩

end NotifyDelivery
