import HmkitWorkspace.ConnectionHistory
import Mathlib.Data.List.Chain

/-! # Which slot a connection handle resolves to

Non-zero handles resolve as the controller means them in every run. The cleared handle of
free and pending slots is itself a legal handle: a lookup of zero may find such a slot. -/
namespace HandleResolution

open TransitionRuns FixedSlots HmkitCoreConnectivityHal ConnectionTableInvariant ReadBuffers
  ConnectionHistory

variable {w v : World} {e : Event} {out : List Call} {tr : History} {handle : HciConHandle}
  {t : BtConnections} {p : PeerMap} {mac : Mac} {i : Slot}

/-- `get_bt_connection_using_handle` finds the slot of the live, recorded connection with
this handle, and nothing when there is none. -/
def Resolves (w : World) (handle : HciConHandle) : Prop :=
  (∀ mac, w.peers handle = some ⟨mac, true⟩ →
    ∃ i, getBtConnectionUsingHandle w.hal.btConnections handle = some i ∧
      (w.hal.btConnections i).mac = mac ∧ (w.hal.btConnections i).isEmpty = true) ∧
  ((∀ mac, w.peers handle ≠ some ⟨mac, true⟩) →
    getBtConnectionUsingHandle w.hal.btConnections handle = none)

/-- The slot belongs to a live connection that the HAL recorded. -/
def Held (w : World) (i : Slot) : Prop :=
  ∃ handle, w.peers handle = some ⟨(w.hal.btConnections i).mac, true⟩

/-- No slot without a connection of its own comes before the slot of the handle's owner.
Such slots carry handle zero, so this says nothing about the other handles. -/
def Unshadowed (w : World) (handle : HciConHandle) : Prop :=
  handle = 0 → ∀ i, ¬ Held w i →
    ∃ j < i, w.peers handle = some ⟨(w.hal.btConnections j).mac, true⟩

theorem cleared_of_not_held (h : Tracks w.hal.btConnections w.peers) (hi : ¬ Held w i) :
    (w.hal.btConnections i).handle = 0 := by
  by_contra hne
  exact hi ⟨_, h.resolved i hne⟩

theorem handle_of_peer (inv : TableInvariant w.hal.btConnections)
    (h : Tracks w.hal.btConnections w.peers)
    (hp : w.peers handle = some ⟨(w.hal.btConnections i).mac, true⟩) :
    (w.hal.btConnections i).handle = handle := by
  obtain ⟨j, hm, hh⟩ := h.recorded handle _ hp
  have hji := inv.distinct j i hm (hm ▸ h.nonzero _ _ hp)
  rwa [hji] at hh

theorem lookup_owner (inv : TableInvariant w.hal.btConnections)
    (h : Tracks w.hal.btConnections w.peers) (hu : Unshadowed w handle)
    (hp : w.peers handle = some ⟨mac, true⟩) :
    ∃ i, getBtConnectionUsingHandle w.hal.btConnections handle = some i ∧
      (w.hal.btConnections i).mac = mac ∧ (w.hal.btConnections i).isEmpty = true := by
  obtain ⟨i, hm, hh⟩ := h.recorded handle mac hp
  have hz : mac ≠ 0 := h.nonzero _ _ hp
  have owner : ∀ j, w.peers handle = some ⟨(w.hal.btConnections j).mac, true⟩ → j = i := by
    intro j hj
    have same : (w.hal.btConnections j).mac = mac := by
      rw [hp] at hj
      exact (congrArg Peer.mac (Option.some.inj hj)).symm
    exact inv.distinct j i (same.trans hm.symm) (same ▸ hz)
  refine ⟨i, findSlot_of_first (by simpa using hh) ?_, hm, (inv.occupied_iff i).mpr (hm ▸ hz)⟩
  intro j hj
  by_contra hne
  have hjh : (w.hal.btConnections j).handle = handle := by simpa using hne
  by_cases held : Held w j
  · obtain ⟨hd, hq⟩ := held
    have hhd := handle_of_peer inv h hq
    exact hj.ne (owner j (by rwa [← hjh, hhd]))
  · have hzero : handle = 0 := hjh.symm.trans (cleared_of_not_held h held)
    obtain ⟨k, hkj, hk⟩ := hu hzero j held
    exact (hkj.trans hj).ne (owner k hk)

theorem lookup_stray (inv : TableInvariant w.hal.btConnections)
    (h : Tracks w.hal.btConnections w.peers) (hu : Unshadowed w handle)
    (hp : ∀ mac, w.peers handle ≠ some ⟨mac, true⟩) :
    getBtConnectionUsingHandle w.hal.btConnections handle = none := by
  rw [lookup_handle_none_iff]
  intro i hi
  by_cases held : Held w i
  · obtain ⟨hd, hq⟩ := held
    rw [← handle_of_peer inv h hq, hi] at hq
    exact hp _ hq
  · obtain ⟨j, _, hj⟩ := hu (hi.symm.trans (cleared_of_not_held h held)) i held
    exact hp _ hj

/-- An unheld slot carries handle zero and is found first unless the owner precedes it. -/
theorem unshadowed_of_resolves (h : Tracks w.hal.btConnections w.peers)
    (res : Resolves w handle) : Unshadowed w handle := by
  rintro rfl i hi
  have cleared := cleared_of_not_held h hi
  by_cases live : ∃ mac, w.peers 0 = some ⟨mac, true⟩
  · obtain ⟨mac, hp⟩ := live
    obtain ⟨j, hl, hm, _⟩ := res.1 mac hp
    rcases lt_trichotomy j i with hj | rfl | hj
    · exact ⟨j, hj, hm ▸ hp⟩
    · exact absurd ⟨0, hm ▸ hp⟩ hi
    · have := findSlot_first hl i hj
      simp [cleared] at this
  · have hl := res.2 fun mac hp => live ⟨mac, hp⟩
    exact absurd cleared (lookup_handle_none_iff.mp hl i)

theorem resolves_iff (inv : TableInvariant w.hal.btConnections)
    (h : Tracks w.hal.btConnections w.peers) : Resolves w handle ↔ Unshadowed w handle :=
  ⟨unshadowed_of_resolves h,
    fun hu => ⟨fun _ => lookup_owner inv h hu, lookup_stray inv h hu⟩⟩

/-! ## Upcalls -/

/-- The handle on which data or a disconnection is reported. -/
def reportedOn : Event → Option HciConHandle
  | .attWrite handle _ _ => some handle
  | .hci (.disconnectionComplete handle) => some handle
  | _ => none

/-- Every data or disconnect upcall of the transition names the peer owning the handle. -/
def NamesOwner (t : Transition World Event Call) : Prop :=
  ∀ mac, (Call.linkDisconnect mac ∈ t.outputs ∨
      ∃ data characteristic, Call.linkIncomingData data mac characteristic ∈ t.outputs) →
    ∃ handle, reportedOn t.event = some handle ∧ t.pre.peers handle = some ⟨mac, true⟩

/-- How an upcall looks to the link layer of the core, for one address. -/
def linkEvent (mac : Mac) : Call → Option Bool
  | .linkConnect m => if m = mac then some true else none
  | .linkDisconnect m => if m = mac then some false else none
  | _ => none

def linkEvents (mac : Mac) (calls : List Call) : List Bool := calls.filterMap (linkEvent mac)

/-- Connect, disconnect, connect, ... in strict alternation. -/
def Alternates (l : List Bool) : Prop := l.IsChain (· ≠ ·) ∧ l.head? ≠ some false

/-- Calls that neither open nor close a link and carry no received data. -/
def Silent (c : Call) : Prop :=
  (∀ mac, linkEvent mac c = none) ∧
    ∀ data mac characteristic, c ≠ .linkIncomingData data mac characteristic

/-- Only packets from the controller and attribute writes reach the link layer of the core. -/
theorem step_silent {s u : State} (hs : step s e = some (u, out)) (hci : ∀ p, e ≠ .hci p)
    (write : ∀ handle attHandle data, e ≠ .attWrite handle attHandle data) :
    ∀ c ∈ out, Silent c := by
  intro c hc
  cases step_call hs hc with
  | linkConnect _ _ | linkDisconnect _ _ _ => exact absurd rfl (hci _)
  | incoming _ _ _ _ _ _ => exact absurd rfl (write _ _ _)
  | _ => simp [Silent, linkEvent]

theorem step_upcalls {s u : State} (hs : step s e = some (u, out))
    (hc : Call.linkDisconnect mac ∈ out ∨
      ∃ data characteristic, Call.linkIncomingData data mac characteristic ∈ out) :
    ∃ handle i, reportedOn e = some handle ∧
      getBtConnectionUsingHandle s.btConnections handle = some i ∧
      (s.btConnections i).mac = mac := by
  rcases hc with hc | ⟨data, characteristic, hc⟩
  · cases step_call hs hc with
    | linkDisconnect handle i found => exact ⟨handle, i, rfl, found, rfl⟩
  · cases step_call hs hc with
    | incoming handle attHandle data i characteristic found =>
      exact ⟨handle, i, rfl, found, rfl⟩

theorem names_owner_of_step (hs : w.step e = some (v, out))
    (res : ∀ handle, reportedOn e = some handle → Resolves w handle) :
    NamesOwner ⟨w, e, out, v⟩ := by
  intro mac hc
  obtain ⟨handle, i, hr, hl, hm⟩ := step_upcalls (step_world hs).1 hc
  refine ⟨handle, hr, ?_⟩
  by_cases live : ∃ mac', w.peers handle = some ⟨mac', true⟩
  · obtain ⟨mac', hp⟩ := live
    obtain ⟨j, hj, hm', _⟩ := (res handle hr).1 mac' hp
    rw [hl] at hj
    cases hj
    rwa [← hm, hm']
  · have none := (res handle hr).2 fun mac' hp => live ⟨mac', hp⟩
    rw [hl] at none
    cases none

/-! ## Alternation of link upcalls -/

theorem Alternates.connect {l : List Bool} (h : Alternates l) (hl : l.getLast? ≠ some true) :
    Alternates (l ++ [true]) := by
  constructor
  · rw [List.isChain_append]
    refine ⟨h.1, .singleton _, ?_⟩
    intro x hx y hy he
    simp only [List.head?_cons, Option.mem_some_iff] at hy
    subst he hy
    exact hl hx
  · cases l with
    | nil => simp
    | cons x l => exact h.2

theorem Alternates.disconnect {l : List Bool} (h : Alternates l) (hl : l.getLast? = some true) :
    Alternates (l ++ [false]) := by
  constructor
  · rw [List.isChain_append]
    refine ⟨h.1, .singleton _, ?_⟩
    intro x hx y hy he
    simp only [List.head?_cons, Option.mem_some_iff] at hy
    subst he hy
    rw [hl] at hx
    cases hx
  · cases l with
    | nil => simp at hl
    | cons x l => exact h.2

/-- The address has a live connection that the HAL recorded. -/
def Connected (p : PeerMap) (mac : Mac) : Prop := ∃ handle, p handle = some ⟨mac, true⟩

theorem connected_insert {q : Peer} (fresh : p handle = none) :
    Connected (Function.update p handle (some q)) mac ↔ Connected p mac ∨ q = ⟨mac, true⟩ := by
  constructor
  · intro connected
    rcases connected with ⟨hd, hp⟩
    by_cases hh : hd = handle
    · subst hd; exact Or.inr (by simpa using hp)
    · exact Or.inl ⟨hd, by simpa [hh] using hp⟩
  · intro cases
    rcases cases with ⟨hd, hp⟩ | rfl
    · have hh : hd ≠ handle := by
        rintro rfl
        rw [fresh] at hp
        cases hp
      exact ⟨hd, by simpa [hh] using hp⟩
    · exact ⟨handle, by simp⟩

theorem connected_erase {q : Peer} (h : DistinctPeers p) (hq : p handle = some q) :
    Connected (Function.update p handle none) mac ↔ Connected p mac ∧ q ≠ ⟨mac, true⟩ := by
  constructor
  · intro connected
    rcases connected with ⟨hd, hp⟩
    have hh : hd ≠ handle := by
      intro he
      simp [he] at hp
    rw [Function.update_of_ne hh] at hp
    refine ⟨⟨hd, hp⟩, ?_⟩
    rintro rfl
    exact hh (h.distinct _ _ _ _ hp hq rfl)
  · intro connected
    rcases connected with ⟨⟨hd, hp⟩, hne⟩
    have hh : hd ≠ handle := by
      rintro rfl
      rw [hp] at hq
      exact hne (Option.some.inj hq).symm
    exact ⟨hd, by simpa [hh] using hp⟩

/-- The core's view of one address agrees with the controller's at the end of a history. -/
def LinkRecord (mac : Mac) (tr : History) (w : World) : Prop :=
  Alternates (linkEvents mac (outputsOf tr)) ∧
    ((linkEvents mac (outputsOf tr)).getLast? = some true ↔ Connected w.peers mac)

theorem linkEvents_append (mac : Mac) (a b : List Call) :
    linkEvents mac (a ++ b) = linkEvents mac a ++ linkEvents mac b := List.filterMap_append

theorem linkEvents_silent (h : ∀ c ∈ out, linkEvent mac c = none) : linkEvents mac out = [] :=
  List.filterMap_eq_nil_iff.mpr h

theorem LinkRecord.silent (h : LinkRecord mac tr w) (ho : linkEvents mac out = [])
    (hp : Connected v.peers mac ↔ Connected w.peers mac) :
    LinkRecord mac (tr ++ [⟨w, e, out, v⟩]) v := by
  unfold LinkRecord
  rw [outputsOf_append, outputsOf_singleton, linkEvents_append, ho, List.append_nil, hp]
  exact h

theorem link_record_complete {status : UInt8} {address : Mac} (h : LinkRecord mac tr w)
    (inv : TableInvariant w.hal.btConnections)
    (he : Enabled w (.hci (.leConnectionComplete status handle address)))
    (hs : w.step (.hci (.leConnectionComplete status handle address)) = some (v, out)) :
    LinkRecord mac (tr ++ [⟨w, .hci (.leConnectionComplete status handle address), out, v⟩])
      v := by
  have hp := step_peers hs
  obtain ⟨_, hout⟩ := step_hci hs
  by_cases hst : status = 0
  · subst status
    obtain ⟨fresh, hm, apart⟩ := he rfl
    have fresh : w.peers handle = none := by simp [World.peers, fresh]
    have absent : ¬ Connected w.peers address := by
      rintro ⟨hd, hq⟩
      obtain ⟨k, hk, hkq⟩ := Option.map_eq_some_iff.mp hq
      exact apart hd k hk (congrArg Peer.mac hkq)
    rw [complete_eq inv hm] at hout
    cases hsl : slotFor w.hal.btConnections address with
    | none =>
      rw [hsl] at hout
      apply h.silent (by simp [hout, linkEvents])
      rw [hp, hout]
      simp [peersAfter, connected_insert fresh]
    | some i =>
      rw [hsl] at hout
      by_cases hmac : address = mac
      · subst address
        have last : (linkEvents mac (outputsOf tr)).getLast? ≠ some true := fun hl =>
          absent (h.2.mp hl)
        have next : linkEvents mac out = [true] := by simp [hout, linkEvents, linkEvent]
        unfold LinkRecord
        rw [outputsOf_append, outputsOf_singleton, linkEvents_append, next, hp]
        refine ⟨h.1.connect last, ?_⟩
        simp [hout, peersAfter, connected_insert fresh]
      · apply h.silent (by simp [hout, linkEvents, linkEvent, hmac])
        rw [hp, hout]
        simp [peersAfter, connected_insert fresh, hmac]
  · apply h.silent (by simp [hout, hciPacketHandler, hst, linkEvents])
    rw [hp]
    simp [peersAfter, hst]

theorem link_record_disconnection (h : LinkRecord mac tr w)
    (distinct : DistinctPeers w.peers) (res : Resolves w handle)
    (he : Enabled w (.hci (.disconnectionComplete handle)))
    (hs : w.step (.hci (.disconnectionComplete handle)) = some (v, out)) :
    LinkRecord mac (tr ++ [⟨w, .hci (.disconnectionComplete handle), out, v⟩]) v := by
  have hp := step_peers hs
  obtain ⟨_, hout⟩ := step_hci hs
  obtain ⟨k, hk⟩ := he
  have hq : w.peers handle = some k.toPeer := by simp [World.peers, hk]
  have after : Connected v.peers mac ↔ Connected w.peers mac ∧ k.toPeer ≠ ⟨mac, true⟩ := by
    rw [hp]
    exact connected_erase distinct hq
  cases hrec : k.recorded with
  | false =>
    have hl := res.2 (by intro m hm; simp [hq, Peer.ext_iff, hrec] at hm)
    apply h.silent (by simp [hout, hciPacketHandler, hl, linkEvents])
    simp [after, Peer.ext_iff, hrec]
  | true =>
    have hq' : w.peers handle = some ⟨k.mac, true⟩ := by rw [hq, ← hrec]
    obtain ⟨i, hl, hm, _⟩ := res.1 k.mac hq'
    by_cases hmac : k.mac = mac
    · have next : linkEvents mac out = [false] := by
        simp [hout, hciPacketHandler, hl, linkEvents, linkEvent, hm, hmac]
      have last : (linkEvents mac (outputsOf tr)).getLast? = some true :=
        h.2.mpr ⟨handle, hmac ▸ hq'⟩
      unfold LinkRecord
      rw [outputsOf_append, outputsOf_singleton, linkEvents_append, next]
      refine ⟨h.1.disconnect last, ?_⟩
      simp [after, Peer.ext_iff, hrec, hmac]
    · apply h.silent (by simp [hout, hciPacketHandler, hl, linkEvents, linkEvent, hm, hmac])
      simp [after, Peer.ext_iff, hmac]

theorem attWrite_linkEvents {s : State} {attHandle : UInt16} {data : List UInt8} (mac : Mac) :
    linkEvents mac (attWriteCallback s handle attHandle data) = [] := by
  apply linkEvents_silent
  intro c hc
  cases attWriteCallback_call hc
  rfl

theorem link_record_step (h : LinkRecord mac tr w) (inv : TableInvariant w.hal.btConnections)
    (distinct : DistinctPeers w.peers) (he : Enabled w e)
    (res : ∀ handle, reportedOn e = some handle → Resolves w handle)
    (hs : w.step e = some (v, out)) : LinkRecord mac (tr ++ [⟨w, e, out, v⟩]) v := by
  have quiet : linkEvents mac out = [] → v.peers = w.peers →
      LinkRecord mac (tr ++ [⟨w, e, out, v⟩]) v := fun ho hp => h.silent ho (by rw [hp])
  cases e with
  | hci p =>
    cases p with
    | leConnectionComplete status handle address => exact link_record_complete h inv he hs
    | disconnectionComplete handle =>
      exact link_record_disconnection h distinct (res handle rfl) he hs
    | other => exact quiet (by simp [(step_hci hs).2, hciPacketHandler, linkEvents]) (step_peers hs)
  | attWrite conHandle attHandle data =>
    obtain ⟨_, hout⟩ := total_step (step_world hs).1
    exact quiet (hout ▸ attWrite_linkEvents mac) (step_peers hs)
  | _ =>
    have calls := step_silent (step_world hs).1 (by simp) (by simp)
    exact quiet (linkEvents_silent fun c hc => (calls c hc).1 mac) (step_peers hs)

/-- Lookups by handle are exactly right where no unheld slot comes before the owner's, and a
run in which every report meets that condition upcalls only to owners, in alternation. -/
theorem handle_resolution (h : Execution World.step Enabled World.initial tr w) :
    (∀ handle, Resolves w handle ↔ Unshadowed w handle) ∧
    ((∀ t ∈ tr, ∀ handle, reportedOn t.event = some handle → Unshadowed t.pre handle) →
      (∀ t ∈ tr, NamesOwner t) ∧ ∀ mac, Alternates (linkEvents mac (outputsOf tr))) := by
  refine ⟨fun handle => resolves_iff (world_table_invariant h) (world_tracks h), ?_⟩
  intro met
  constructor
  · intro t ht
    obtain ⟨_, hx, _, hs⟩ := h.transition ht
    have inv := world_table_invariant hx
    exact names_owner_of_step hs fun handle hr =>
      (resolves_iff inv (world_tracks hx)).mpr (met t ht handle hr)
  · intro mac
    have guarded := h.restrict
      (H := fun w e => ∀ handle, reportedOn e = some handle → Unshadowed w handle) met
    have all := guarded.history_invariant
      (fun tr w => (TableInvariant w.hal.btConnections ∧
        Tracks w.hal.btConnections w.peers) ∧ LinkRecord mac tr w)
      ⟨⟨ConnectionTableInvariant.initial_invariant, initial_tracks⟩, ?_⟩ ?_
    · exact all.2.1
    · simp [LinkRecord, Alternates, linkEvents, Connected, World.peers, World.initial]
    · intro tr w e out v before guard hs
      rcases before with ⟨⟨inv, ht⟩, rec⟩
      rcases guard with ⟨he, hu⟩
      refine ⟨⟨(step_table (step_world hs).1).preserves inv, step_tracks inv ht he hs⟩, ?_⟩
      exact link_record_step rec inv ht.toDistinctPeers he
        (fun handle hr => (resolves_iff inv ht).mpr (hu handle hr)) hs

theorem handle_resolution_one_peer :
    ∃ tr w, run World.step World.initial
        [.hci (.leConnectionComplete 0 0x40 peerA), .attWrite 0x40 linkWriteValueHandle [7],
          .hci (.disconnectionComplete 0x40)] = some (tr, w) ∧
      (∀ t ∈ tr, NamesOwner t) ∧ Alternates (linkEvents peerA (outputsOf tr)) ∧
      outputsOf tr = [.linkConnect peerA, .linkIncomingData [7] peerA .linkWrite,
        .linkDisconnect peerA] := by
  refine ⟨_, _, rfl, ?_⟩
  have h := (handle_resolution (execution_of_lawful
    [.hci (.leConnectionComplete 0 0x40 peerA), .attWrite 0x40 linkWriteValueHandle [7],
      .hci (.disconnectionComplete 0x40)] (by decide) rfl)).2 ?_
  · exact ⟨h.1, h.2 peerA, by decide⟩
  · rintro t ht handle hr rfl
    exfalso
    revert t
    decide

/-- A live peer with handle zero writes after the slot before its own was freed: the data is
reported under the all-zero address. -/
theorem zero_handle_resolves_to_free_slot :
    ∃ tr w, Execution World.step Enabled World.initial tr w ∧
      outputsOf tr = [.linkConnect peerA, .linkConnect peerB, .linkDisconnect peerA,
        .linkIncomingData [7] 0 .linkWrite] ∧
      w.peers 0 = some ⟨peerB, true⟩ ∧ ¬ Resolves w 0 ∧ ∃ t ∈ tr, ¬ NamesOwner t := by
  refine ⟨_, _, execution_of_lawful
    [.hci (.leConnectionComplete 0 0x40 peerA), .hci (.leConnectionComplete 0 0 peerB),
      .hci (.disconnectionComplete 0x40), .attWrite 0 linkWriteValueHandle [7]]
    (by decide) rfl, by decide, by decide, ?_, ?_⟩
  · intro res
    obtain ⟨i, hl, hm, _⟩ := res.1 peerB (by decide)
    have first : some (0 : Slot) = some i := hl
    cases first
    exact absurd hm (by decide)
  · refine ⟨_, .tail _ (.tail _ (.tail _ (.head _))), ?_⟩
    intro owned
    obtain ⟨handle, hr, hp⟩ := owned 0 (.inr ⟨[7], .linkWrite, by decide⟩)
    cases hr
    exact absurd hp (by decide)

end HandleResolution
