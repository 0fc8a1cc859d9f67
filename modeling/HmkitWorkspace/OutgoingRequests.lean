import HmkitWorkspace.ConnectionHistory
import HmkitWorkspace.JustifiedTraces

/-! # The link on which a request for an address acts

A slot with a non-zero handle belongs to the connection its address completed last, and that
connection is live. Handle zero is what a free slot and a pending attempt hold as well. -/
namespace OutgoingRequests

open TransitionRuns JustifiedTraces HmkitCoreConnectivityHal ConnectionTableInvariant
  ReadBuffers ConnectionHistory

variable {w v : World} {e : Event} {out : List Call} {tr : History} {handle hd : HciConHandle}
  {mac : Mac} {i : Slot}

/-- Handles are distinct among live connections and peer addresses are not zero; one address
may complete a second connection while the first is live. -/
def FreshHandle (w : World) : Event → Prop
  | .hci (.leConnectionComplete status handle address) =>
    status = 0 → w.live handle = none ∧ address ≠ 0
  | _ => True

def completed (mac : Mac) (t : Transition World Event Call) : Option HciConHandle :=
  match t.event with
  | .hci (.leConnectionComplete status handle address) =>
    if status = 0 ∧ address = mac then some handle else none
  | _ => none

/-- The handle in the latest connection-complete event of an address. -/
def latestHandle (mac : Mac) (tr : History) : Option HciConHandle :=
  (tr.filterMap (completed mac)).getLast?

/-- The handle was assigned to the address last, and the connection is live. -/
def Assigned (tr : History) (w : World) (mac : Mac) (handle : HciConHandle) : Prop :=
  latestHandle mac tr = some handle ∧ ∃ recorded, w.peers handle = some ⟨mac, recorded⟩

/-- What the requests of a step are for is what they act on. -/
def RightLink (tr : History) (t : Transition World Event Call) : Prop :=
  match t.event with
  | .disconnect mac => ∀ handle, .gapDisconnect handle ∈ t.outputs → Assigned tr t.pre mac handle
  | .writeData mac _ _ =>
    ∀ handle, .requestCanSendNow handle ∈ t.outputs → Assigned tr t.pre mac handle
  | .canSendNow _ =>
    ∀ handle attHandle value ret, .notify handle attHandle value ret ∈ t.outputs →
      ∃ ch, attHandle = ch.valueHandle ∧ Assigned tr t.pre (t.pre.hal.readBufferMac ch) handle
  | _ => True

/-- The slot has a handle of its own: not zero, or the zero that its address was assigned. -/
def HasHandle (tr : History) (w : World) (i : Slot) : Prop :=
  (w.hal.btConnections i).handle ≠ 0 ∨ Assigned tr w (w.hal.btConnections i).mac 0

/-- Every slot that the step makes a request for has a handle of its own. -/
def SlotsConnected (tr : History) (t : Transition World Event Call) : Prop :=
  match t.event with
  | .disconnect mac =>
    ∀ i, getBtConnectionUsingMac t.pre.hal.btConnections mac = some i → HasHandle tr t.pre i
  | .writeData mac _ characteristic =>
    ∀ i ch, writeTarget t.pre.hal mac characteristic = some (i, ch) → HasHandle tr t.pre i
  | .canSendNow _ =>
    ∀ i ch, servedSlot t.pre.hal ch = some i → (buffer t.pre.hal i ch).ready = true →
      HasHandle tr t.pre i
  | _ => True

structure Resolves (tr : History) (w : World) : Prop where
  nonzero : ∀ handle q, w.peers handle = some q → q.mac ≠ 0
  assigned : ∀ i, (w.hal.btConnections i).handle ≠ 0 →
    Assigned tr w (w.hal.btConnections i).mac (w.hal.btConnections i).handle

/-! ## Preservation -/

theorem enabled_freshHandle (h : Enabled w e) : FreshHandle w e := by
  cases e with
  | hci p =>
    cases p with
    | leConnectionComplete status handle address =>
      intro hst
      exact ⟨(h hst).1, (h hst).2.1⟩
    | _ => trivial
  | _ => trivial

theorem latestHandle_concat (mac : Mac) (tr : History) (t : Transition World Event Call) :
    latestHandle mac (tr ++ [t]) = (completed mac t).or (latestHandle mac tr) := by
  cases hc : completed mac t <;> simp [latestHandle, List.filterMap_append, hc]

theorem Resolves.idle (h : Resolves tr w) (hi : (w.hal.btConnections i).mac = 0) :
    (w.hal.btConnections i).handle = 0 := by
  by_contra hne
  obtain ⟨_, recorded, hp⟩ := h.assigned i hne
  exact h.nonzero _ _ hp hi

/-- An assignment lasts until the connection ends or its address completes another one. -/
theorem Assigned.step (h : Assigned tr w mac hd) (he : FreshHandle w e)
    (hs : w.step e = some (v, out)) (connected : e ≠ .hci (.disconnectionComplete hd))
    (latest : completed mac ⟨w, e, out, v⟩ = none) :
    Assigned (tr ++ [⟨w, e, out, v⟩]) v mac hd := by
  obtain ⟨assigned, recorded, hp⟩ := h
  refine ⟨by rw [latestHandle_concat, latest]; exact assigned, recorded, ?_⟩
  apply peer_stays hs hp _ connected
  rintro address rfl
  simp [World.peers, (he rfl).1] at hp

theorem nonzero_step (h : ∀ handle q, w.peers handle = some q → q.mac ≠ 0)
    (he : FreshHandle w e) (hs : w.step e = some (v, out)) :
    ∀ handle q, v.peers handle = some q → q.mac ≠ 0 := by
  intro hd q hq
  rcases peer_origin hs hq with before | rfl
  · exact h hd q before
  · exact (he rfl).2

/-- A slot that keeps a non-zero handle keeps the assignment behind it. -/
theorem Resolves.carry (h : Resolves tr w) (he : FreshHandle w e)
    (hs : w.step e = some (v, out)) (connected : ∀ handle,
      e = .hci (.disconnectionComplete handle) → (w.hal.btConnections i).handle ≠ handle)
    (latest : completed (w.hal.btConnections i).mac ⟨w, e, out, v⟩ = none)
    (handle : (v.hal.btConnections i).handle = (w.hal.btConnections i).handle)
    (mac : (v.hal.btConnections i).mac = (w.hal.btConnections i).mac)
    (hi : (v.hal.btConnections i).handle ≠ 0) :
    Assigned (tr ++ [⟨w, e, out, v⟩]) v (v.hal.btConnections i).mac
      (v.hal.btConnections i).handle := by
  rw [handle] at hi
  rw [handle, mac]
  apply (h.assigned i hi).step he hs _ latest
  intro hdis
  exact connected _ hdis rfl

theorem complete_assigned (h : Resolves tr w) (inv : TableInvariant w.hal.btConnections)
    (he : FreshHandle w (.hci (.leConnectionComplete 0 handle mac)))
    (hs : w.step (.hci (.leConnectionComplete 0 handle mac)) = some (v, out))
    (hi : (v.hal.btConnections i).handle ≠ 0) :
    Assigned (tr ++ [⟨w, .hci (.leConnectionComplete 0 handle mac), out, v⟩]) v
      (v.hal.btConnections i).mac (v.hal.btConnections i).handle := by
  obtain ⟨_, hm⟩ := he rfl
  have unrelated : (w.hal.btConnections i).mac ≠ mac →
      completed (w.hal.btConnections i).mac
        ⟨w, .hci (.leConnectionComplete 0 handle mac), out, v⟩ = none := by
    intro hne
    simp [completed, Ne.symm hne]
  obtain ⟨hv, _⟩ := step_hci hs
  rw [complete_eq inv hm] at hv
  cases hsl : slotFor w.hal.btConnections mac with
  | none =>
    rw [hsl] at hv
    have absent : (w.hal.btConnections i).mac ≠ mac := by
      intro hmi
      simp [slotFor, inv.lookup_mac hm hmi] at hsl
    exact h.carry he hs (by simp) (unrelated absent) (by rw [hv]) (by rw [hv]) hi
  | some j =>
    rw [hsl] at hv
    by_cases hij : i = j
    · subst j
      have own : (v.hal.btConnections i).mac = mac ∧ (v.hal.btConnections i).handle = handle := by
        simp [hv]
      rw [own.1, own.2]
      refine ⟨by simp [latestHandle_concat, completed], decide (Call.linkConnect mac ∈ out), ?_⟩
      simp [step_peers hs, peersAfter]
    · have same : v.hal.btConnections i = w.hal.btConnections i := by simp [hv, hij]
      have absent : (w.hal.btConnections i).mac ≠ mac := by
        intro hmi
        rcases slotFor_cases hsl with hmj | ⟨absent, _⟩
        · exact hij (inv.distinct i j (hmi.trans hmj.symm) (hmi ▸ hm))
        · exact absent i hmi
      exact h.carry he hs (by simp) (unrelated absent) (by rw [same]) (by rw [same]) hi

theorem release_assigned (h : Resolves tr w) (inv : TableInvariant w.hal.btConnections)
    (hs : w.step (.hci (.disconnectionComplete handle)) = some (v, out))
    (hi : (v.hal.btConnections i).handle ≠ 0) :
    Assigned (tr ++ [⟨w, .hci (.disconnectionComplete handle), out, v⟩]) v
      (v.hal.btConnections i).mac (v.hal.btConnections i).handle := by
  have he : FreshHandle w (.hci (.disconnectionComplete handle)) := trivial
  obtain ⟨hv, _⟩ := step_hci hs
  cases hl : getBtConnectionUsingHandle w.hal.btConnections handle with
  | none =>
    have same : v.hal.btConnections = w.hal.btConnections := by simp [hv, hciPacketHandler, hl]
    refine h.carry he hs ?_ rfl (by rw [same]) (by rw [same]) hi
    rintro _ ⟨⟩
    exact lookup_handle_none_iff.mp hl i
  | some j =>
    have hj := handle_of_lookup hl
    have table : v.hal.btConnections = deleteBtConnection w.hal.btConnections (.slot j) := by
      simp [hv, hciPacketHandler, hl]
    rcases delete_cases w.hal.btConnections j i with kept | cleared
    · rw [← table] at kept
      refine h.carry he hs ?_ rfl (by rw [kept]) (by rw [kept]) hi
      rintro _ ⟨⟩ hh
      -- Two slots with one non-zero handle are slots of one address, hence slot `j`.
      rw [kept, hh] at hi
      obtain ⟨_, _, hpi⟩ := h.assigned i (hh.symm ▸ hi)
      obtain ⟨_, _, hpj⟩ := h.assigned j (hj.symm ▸ hi)
      rw [hh] at hpi
      rw [hj, hpi] at hpj
      have hmac : (w.hal.btConnections i).mac = (w.hal.btConnections j).mac := by
        simpa using congrArg (Option.map Peer.mac) hpj
      obtain rfl := inv.distinct i j hmac (h.nonzero _ _ hpi)
      rw [table, delete_self] at kept
      rw [← hh, ← kept] at hi
      exact hi rfl
    · simp [table, cleared, clearConnectionData] at hi

theorem create_handle (t : BtConnections) (mac : Mac) (i : Slot) :
    (createBtConnection t mac i).handle = (t i).handle := by
  rcases createBtConnection_slot t mac i with same | ⟨_, claimed⟩
  · rw [same]
  · rw [claimed]

theorem resolves_step (h : Resolves tr w) (inv : TableInvariant w.hal.btConnections)
    (he : FreshHandle w e) (hs : w.step e = some (v, out)) :
    Resolves (tr ++ [⟨w, e, out, v⟩]) v := by
  refine ⟨nonzero_step h.nonzero he hs, ?_⟩
  intro i hi
  have table := step_table (step_world hs).1
  cases e with
  | hci p =>
    cases p with
    | leConnectionComplete status handle address =>
      by_cases hst : status = 0
      · subst status
        exact complete_assigned h inv he hs hi
      · obtain ⟨hv, _⟩ := step_hci hs
        have same : v.hal = w.hal := by simp [hv, hciPacketHandler, hst]
        exact h.carry he hs (by simp) (by simp [completed, hst]) (by rw [same]) (by rw [same]) hi
    | disconnectionComplete handle => exact release_assigned h inv hs hi
    | other =>
      obtain ⟨hv, _⟩ := step_hci hs
      have same : v.hal = w.hal := by simp [hv, hciPacketHandler]
      exact h.carry he hs (by simp) rfl (by rw [same]) (by rw [same]) hi
  | connect mac macType ret =>
    obtain ⟨hu, _⟩ := total_step (step_world hs).1
    have created : v.hal.btConnections = createBtConnection w.hal.btConnections mac := by
      rw [← hu]
      rfl
    rw [created, create_handle] at hi
    have occupied : (w.hal.btConnections i).isEmpty = true := by
      apply (inv.occupied_iff i).mpr
      intro hz
      exact hi (h.idle hz)
    have same : v.hal.btConnections i = w.hal.btConnections i := by
      rw [created, create_occupied occupied]
    exact h.carry he hs (by simp) rfl (by rw [same]) (by rw [same]) (by rwa [same])
  | _ =>
    cases table with
    | keep _ _ same => exact h.carry he hs (by simp) rfl (same i).handle (same i).mac hi

/-! ## Requests -/

theorem Resolves.assigned_iff (h : Resolves tr w) (hm : (w.hal.btConnections i).mac = mac) :
    Assigned tr w mac (w.hal.btConnections i).handle ↔ HasHandle tr w i := by
  unfold HasHandle
  subst mac
  by_cases hz : (w.hal.btConnections i).handle = 0
  · simp [hz]
  · simp [hz, h.assigned i hz]

theorem disconnect_right (h : Resolves tr w) (hs : w.step (.disconnect mac) = some (v, out)) :
    RightLink tr ⟨w, .disconnect mac, out, v⟩ ↔ SlotsConnected tr ⟨w, .disconnect mac, out, v⟩ := by
  obtain ⟨_, rfl⟩ := total_step (step_world hs).1
  simp only [RightLink, SlotsConnected, HmkitCoreConnectivityHal.disconnect]
  cases hl : getBtConnectionUsingMac w.hal.btConnections mac with
  | none => simp
  | some i => simp [h.assigned_iff (mac_of_lookup hl)]

theorem write_right (h : Resolves tr w) {data : List UInt8} {characteristic : Characteristic}
    (hs : w.step (.writeData mac data characteristic) = some (v, out)) :
    RightLink tr ⟨w, .writeData mac data characteristic, out, v⟩ ↔
      SlotsConnected tr ⟨w, .writeData mac data characteristic, out, v⟩ := by
  have hw := (writeData_eq w.hal mac data characteristic).symm.trans (step_world hs).1
  simp only [RightLink, SlotsConnected]
  cases ht : writeTarget w.hal mac characteristic with
  | none =>
    rw [ht] at hw
    obtain ⟨_, rfl⟩ := total_step hw
    simp
  | some target =>
    obtain ⟨i, ch⟩ := target
    rw [ht] at hw
    obtain ⟨_, rfl⟩ := storePayload_stores hw
    simp [h.assigned_iff (mac_of_lookup (writeTarget_some ht).1)]

theorem servedSlot_mac {s : State} {ch : Channel} (h : servedSlot s ch = some i) :
    (s.btConnections i).mac = s.readBufferMac ch := by
  cases ch with
  | link => exact mac_of_lookup h
  | sensing =>
    simp only [servedSlot] at h
    split at h
    · exact mac_of_lookup h
    · cases h

theorem canSend_right (h : Resolves tr w) {ret : Channel → ℤ}
    (hs : w.step (.canSendNow ret) = some (v, out)) :
    RightLink tr ⟨w, .canSendNow ret, out, v⟩ ↔ SlotsConnected tr ⟨w, .canSendNow ret, out, v⟩ := by
  obtain ⟨_, hout⟩ := total_step (step_world hs).1
  constructor
  · intro right i ch slot ready
    have own : Call.notify (w.hal.btConnections i).handle ch.valueHandle (buffer w.hal i ch).value
        (ret ch) ∈ out.filter (onChannel ch) := by
      rw [← hout, canSendNow_onChannel]
      simp [served, slot, ready]
    obtain ⟨c, hc, assigned⟩ := right _ _ _ _ (List.mem_of_mem_filter own)
    have hcc : c = ch := by
      cases c <;> cases ch <;> simp [Channel.valueHandle] at hc ⊢
    subst c
    exact (h.assigned_iff (servedSlot_mac slot)).mp assigned
  · intro connected hd attHandle value r hc
    cases step_call (step_world hs).1 hc with
    | notified _ ch i slot ready =>
      exact ⟨ch, rfl, (h.assigned_iff (servedSlot_mac slot)).mpr (connected i ch slot ready)⟩

theorem right_iff (h : Resolves tr w) (hs : w.step e = some (v, out)) :
    RightLink tr ⟨w, e, out, v⟩ ↔ SlotsConnected tr ⟨w, e, out, v⟩ := by
  cases e with
  | disconnect mac => exact disconnect_right h hs
  | writeData mac data characteristic => exact write_right h hs
  | canSendNow ret => exact canSend_right h hs
  | _ => exact Iff.rfl

theorem initial_resolves : Resolves [] World.initial := by
  constructor
  · intro _ _ hp
    simp [World.peers, World.initial] at hp
  · intro i hi
    simp [World.initial, HmkitCoreConnectivityHal.initial, init_btConnections,
      clearConnectionData] at hi

/-- At every step of a run, each request for an address is made on the live connection that
the address completed last exactly when each slot it is made for has a handle of its own. -/
theorem outgoing_requests (h : Execution World.step FreshHandle World.initial tr w) :
    ∀ before t after, tr = before ++ t :: after →
      (RightLink before t ↔ SlotsConnected before t) := by
  have all := h.history_invariant
    (fun tr w => Justified (fun before t => RightLink before t ↔ SlotsConnected before t) tr ∧
      TableInvariant w.hal.btConnections ∧ Resolves tr w)
    ⟨justified_nil, ConnectionTableInvariant.initial_invariant, initial_resolves⟩ ?_
  · exact all.1
  · intro tr w e out v before he hs
    rcases before with ⟨earlier, inv, resolves⟩
    refine ⟨justified_concat.mpr ⟨earlier, right_iff resolves hs⟩, ?_, ?_⟩
    · exact (step_table (step_world hs).1).preserves inv
    · exact resolves_step resolves inv he hs

theorem outgoing_requests_one_peer :
    ∃ before t w, run World.step World.initial [.hci (.leConnectionComplete 0 0x40 peerA),
        .writeData peerA [1] .linkRead, .disconnect peerA] = some (before ++ [t], w) ∧
      t.outputs = [.gapDisconnect 0x40] ∧ RightLink before t := by
  refine ⟨[_, _], _, _, rfl, by decide, ?_⟩
  refine (outgoing_requests ((execution_of_lawful [.hci (.leConnectionComplete 0 0x40 peerA),
    .writeData peerA [1] .linkRead, .disconnect peerA] (by decide) rfl).mono
      fun _ _ => enabled_freshHandle) _ _ [] rfl).mpr ?_
  intro i hi
  obtain rfl : i = 0 := by revert i; decide
  exact Or.inl (by decide)

/-- A disconnect for an address whose attempt is pending ends the link of another peer. -/
theorem pending_disconnect_ends_other_link :
    ∃ before t w, Execution World.step FreshHandle World.initial (before ++ [t]) w ∧
      t.event = .disconnect peerA ∧ t.outputs = [.gapDisconnect 0] ∧
      t.pre.peers 0 = some ⟨peerB, true⟩ ∧ ¬ RightLink before t := by
  refine ⟨[_, _], _, _, (execution_of_lawful [.hci (.leConnectionComplete 0 0 peerB),
    .connect peerA 0 0, .disconnect peerA] (by decide) rfl).mono fun _ _ => enabled_freshHandle,
    rfl, by decide, rfl, ?_⟩
  intro right
  obtain ⟨_, _, hp⟩ := right 0 (by decide)
  have same : some peerB = some peerA := congrArg (Option.map Peer.mac) hp
  exact absurd same (by decide)

end OutgoingRequests
