import HmkitWorkspace.TransitionRuns
import HmkitWorkspace.HmkitCoreConnectivityHal

/-! # The representation invariant of the connection table

What each handler does to the slots is said once here; the invariant and all later
modules are derived from these equations. Events are unrestricted: any address, any
handle, any order. -/
namespace ConnectionTableInvariant

open TransitionRuns FixedSlots ByteBuffers HmkitCoreConnectivityHal

variable {t : BtConnections} {s u : State} {e : Event} {out : List Call} {i j : Slot}
  {mac : Mac} {handle : HciConHandle}

structure TableInvariant (t : BtConnections) : Prop where
  occupied_iff : ∀ i, (t i).isEmpty = true ↔ (t i).mac ≠ 0
  distinct : ∀ i j, (t i).mac = (t j).mac → (t i).mac ≠ 0 → i = j

/-! ## Lookups -/

theorem mac_of_lookup (h : getBtConnectionUsingMac t mac = some i) : (t i).mac = mac := by
  simpa using findSlot_passes h

theorem handle_of_lookup (h : getBtConnectionUsingHandle t handle = some i) :
    (t i).handle = handle := by
  simpa using findSlot_passes h

theorem free_of_firstFreeSlot (h : firstFreeSlot t = some i) : (t i).isEmpty = false := by
  simpa using findSlot_passes h

theorem lookup_mac_none_iff : getBtConnectionUsingMac t mac = none ↔ ∀ i, (t i).mac ≠ mac := by
  simp [getBtConnectionUsingMac, findSlot_eq_none_iff]

theorem lookup_handle_none_iff :
    getBtConnectionUsingHandle t handle = none ↔ ∀ i, (t i).handle ≠ handle := by
  simp [getBtConnectionUsingHandle, findSlot_eq_none_iff]

theorem firstFreeSlot_none_iff : firstFreeSlot t = none ↔ ∀ i, (t i).isEmpty = true := by
  simp [firstFreeSlot, findSlot_eq_none_iff]

theorem TableInvariant.lookup_mac (inv : TableInvariant t) (hm : mac ≠ 0)
    (hi : (t i).mac = mac) : getBtConnectionUsingMac t mac = some i := by
  apply findSlot_of_unique (by simpa using hi)
  intro j hj
  have hj : (t j).mac = mac := by simpa using hj
  exact inv.distinct j i (hj.trans hi.symm) (by rwa [hj])

theorem TableInvariant.lookup_mac_iff (inv : TableInvariant t) (hm : mac ≠ 0) :
    getBtConnectionUsingMac t mac = some i ↔ (t i).mac = mac :=
  ⟨mac_of_lookup, inv.lookup_mac hm⟩

theorem TableInvariant.free_iff (inv : TableInvariant t) :
    (t i).isEmpty = false ↔ (t i).mac = 0 := by
  have h := inv.occupied_iff i
  cases hb : (t i).isEmpty <;> simp_all

/-- The slot an address occupies, or else the one `create_bt_connection` would take. -/
def slotFor (t : BtConnections) (mac : Mac) : Option Slot :=
  match getBtConnectionUsingMac t mac with
  | some i => some i
  | none => firstFreeSlot t

/-- What a slot is apart from its buffers. -/
structure SameHeader (c d : BtConnection) : Prop where
  handle : d.handle = c.handle
  mac : d.mac = c.mac
  isEmpty : d.isEmpty = c.isEmpty
  characters : d.characters = c.characters

theorem SameHeader.refl (c : BtConnection) : SameHeader c c := ⟨rfl, rfl, rfl, rfl⟩

theorem SameHeader.trans {c d f : BtConnection} (h : SameHeader c d) (k : SameHeader d f) :
    SameHeader c f :=
  ⟨k.handle.trans h.handle, k.mac.trans h.mac, k.isEmpty.trans h.isEmpty,
    k.characters.trans h.characters⟩

/-! ## The functions on the table -/

theorem createBtConnection_of_present (h : getBtConnectionUsingMac t mac = some i) :
    createBtConnection t mac = t := by
  have : isBtConnectionAvailable t mac = true := by
    simpa [isBtConnectionAvailable, getBtConnectionUsingMac] using congrArg Option.isSome h
  simp [createBtConnection, this]

theorem createBtConnection_of_absent (h : getBtConnectionUsingMac t mac = none) :
    createBtConnection t mac =
      match firstFreeSlot t with
      | some i => Function.update t i { t i with mac := mac, isEmpty := true }
      | none => t := by
  have : isBtConnectionAvailable t mac = false := by
    simpa [isBtConnectionAvailable, getBtConnectionUsingMac] using congrArg Option.isSome h
  cases hf : firstFreeSlot t <;> simp [createBtConnection, this, hf]

/-- Creating a connection leaves a slot as it is, or claims it where it was free. -/
theorem createBtConnection_slot (t : BtConnections) (mac : Mac) (i : Slot) :
    createBtConnection t mac i = t i ∨ (t i).isEmpty = false ∧
      createBtConnection t mac i = { t i with mac := mac, isEmpty := true } := by
  cases hl : getBtConnectionUsingMac t mac with
  | some j =>
    rw [createBtConnection_of_present hl]
    exact Or.inl rfl
  | none =>
    rw [createBtConnection_of_absent hl]
    cases hf : firstFreeSlot t with
    | none => exact Or.inl rfl
    | some j =>
      by_cases hj : i = j
      · subst j
        exact Or.inr ⟨free_of_firstFreeSlot hf, by simp⟩
      · exact Or.inl (by simp [hj])

/-- Creating a connection for the zero address finds a free slot "available" already. -/
theorem TableInvariant.createBtConnection_zero (inv : TableInvariant t) :
    createBtConnection t 0 = t := by
  cases h : getBtConnectionUsingMac t 0 with
  | some i => exact createBtConnection_of_present h
  | none =>
    have full : firstFreeSlot t = none := by
      rw [firstFreeSlot_none_iff]
      intro i
      exact (inv.occupied_iff i).mpr (lookup_mac_none_iff.mp h i)
    rw [createBtConnection_of_absent h, full]

theorem TableInvariant.createBtConnection_eq (inv : TableInvariant t) (hm : mac ≠ 0) :
    createBtConnection t mac =
      match slotFor t mac with
      | some i => Function.update t i { t i with mac := mac, isEmpty := true }
      | none => t := by
  cases h : getBtConnectionUsingMac t mac with
  | some i =>
    have hi := mac_of_lookup h
    have ho : (t i).isEmpty = true := (inv.occupied_iff i).mpr (by rwa [hi])
    have same : ({ t i with mac := mac, isEmpty := true } : BtConnection) = t i := by
      rw [← hi, ← ho]
    simp [createBtConnection_of_present h, slotFor, h, same]
  | none => simp [createBtConnection_of_absent h, slotFor, h]

/-- Iterations up to slot `i` compare with its mac, the later ones with the zeros that
clearing it leaves behind the pointer. -/
theorem deleteBtConnection_slot (t : BtConnections) (i : Slot) :
    deleteBtConnection t (.slot i) = fun j =>
      if (t j).mac = (if j ≤ i then (t i).mac else 0) then clearConnectionData (t j)
      else t j := by
  apply forEach_pointwise
  intro k
  have key : (if i < k then (if (t i).mac = (if i ≤ i then (t i).mac else 0)
      then clearConnectionData (t i) else t i) else t i).mac =
      if k ≤ i then (t i).mac else 0 := by
    by_cases hk : i < k
    · simp [hk, not_le.mpr hk, clearConnectionData]
    · simp [hk, not_lt.mp hk]
  simp only [MacPointer.deref, lt_irrefl, if_false, key]
  funext j
  rcases lt_trichotomy j k with hj | rfl | hj
  · by_cases hc : (t k).mac = if k ≤ i then (t i).mac else 0 <;>
      simp [hc, hj, hj.le, hj.ne]
  · by_cases hc : (t j).mac = if j ≤ i then (t i).mac else 0 <;> simp [hc]
  · by_cases hc : (t k).mac = if k ≤ i then (t i).mac else 0 <;>
      simp [hc, hj.not_gt, hj.not_ge, hj.ne']

theorem init_btConnections (s : State) :
    (init s).btConnections = fun i => clearConnectionData (s.btConnections i) := by
  apply forEach_pointwise
  intro k
  funext j
  rcases lt_trichotomy j k with hj | rfl | hj
  · simp [hj, hj.le, hj.ne]
  · simp
  · simp [hj.not_gt, hj.not_ge, hj.ne']

theorem TableInvariant.delete_other (inv : TableInvariant t) (hj : (t j).isEmpty = true)
    (hne : j ≠ i) : deleteBtConnection t (.slot i) j = t j := by
  have hm := (inv.occupied_iff j).mp hj
  have : ¬ (t j).mac = (if j ≤ i then (t i).mac else 0) := by
    intro h
    split at h
    · exact hne (inv.distinct j i h hm)
    · exact hm h
  rw [deleteBtConnection_slot]
  simp [this]

theorem delete_self (t : BtConnections) (i : Slot) :
    deleteBtConnection t (.slot i) i = clearConnectionData (t i) := by
  simp [deleteBtConnection_slot]

theorem delete_cases (t : BtConnections) (i j : Slot) :
    deleteBtConnection t (.slot i) j = t j ∨
      deleteBtConnection t (.slot i) j = clearConnectionData (t j) := by
  rw [deleteBtConnection_slot]
  by_cases h : (t j).mac = (if j ≤ i then (t i).mac else 0)
  · exact Or.inr (by simp [h])
  · exact Or.inl (by simp [h])

/-! ## What one event does to the table -/

inductive TableStep (t : BtConnections) : Event → BtConnections → Prop where
  | keep (e : Event) (t' : BtConnections) (same : ∀ i, SameHeader (t i) (t' i)) :
      TableStep t e t'
  | claim (mac : Mac) (macType ret : UInt8) :
      TableStep t (.connect mac macType ret) (createBtConnection t mac)
  | complete (handle : HciConHandle) (mac : Mac) (i : Slot)
      (found : getBtConnectionUsingMac (createBtConnection t mac) mac = some i) :
      TableStep t (.hci (.leConnectionComplete 0 handle mac))
        (Function.update (createBtConnection t mac) i
          { createBtConnection t mac i with handle := handle })
  | release (handle : HciConHandle) (i : Slot)
      (found : getBtConnectionUsingHandle t handle = some i) :
      TableStep t (.hci (.disconnectionComplete handle)) (deleteBtConnection t (.slot i))

theorem setReadBuffer_header (s : State) (i : Slot) (ch : Channel) (b : ReadBuffer) (j : Slot) :
    SameHeader (s.btConnections j) ((s.setReadBuffer i ch b).btConnections j) := by
  by_cases h : j = i
  · subst j
    constructor <;> simp [State.setReadBuffer]
  · constructor <;> simp [State.setReadBuffer, h]

theorem storePayload_header {data : List UInt8} {ch : Channel}
    (h : storePayload s i mac data ch = some (u, out)) (j : Slot) :
    SameHeader (s.btConnections j) (u.btConnections j) := by
  simp only [storePayload, Option.map_eq_some_iff, Prod.mk.injEq] at h
  obtain ⟨stored, _, rfl, _⟩ := h
  exact setReadBuffer_header s i ch _ j

theorem notifyIfReady_header (s : State) (i : Slot) (ch : Channel) (ret : ℤ) (j : Slot) :
    SameHeader (s.btConnections j) ((notifyIfReady s i ch ret).1.btConnections j) := by
  simp only [notifyIfReady]
  split
  · exact setReadBuffer_header s i ch _ j
  · exact .refl _

theorem canSendNow_header (s : State) (ret : Channel → ℤ) (j : Slot) :
    SameHeader (s.btConnections j) ((canSendNow s ret).1.btConnections j) := by
  unfold canSendNow
  split
  · exact .refl _
  · rename_i i _
    have first := notifyIfReady_header s i .link (ret .link) j
    dsimp only
    split
    · exact first
    · rename_i k _
      have second := first.trans (notifyIfReady_header _ k .sensing (ret .sensing) j)
      split <;> exact second

theorem attReadCallback_btConnections (s : State) (conHandle : HciConHandle)
    (attHandle : UInt16) (offset : ℕ) (buffer : Bool) (bufferSize : ℕ) (beyond : ℕ → UInt8) :
    (attReadCallback s conHandle attHandle offset buffer bufferSize beyond).state.btConnections =
      s.btConnections := by
  simp only [attReadCallback]
  repeat' split
  all_goals rfl

theorem mtuExchangeComplete_btConnections (s : State) (handle : HciConHandle) (mtu : UInt16)
    (ret : UInt32) :
    (mtuExchangeComplete s handle mtu ret).1.btConnections = s.btConnections := by
  unfold mtuExchangeComplete
  split <;> rfl

theorem disconnect_state (s : State) (mac : Mac) : (disconnect s mac).1 = s := by
  unfold disconnect
  split <;> rfl

theorem writeData_header {data : List UInt8} {ch : Characteristic}
    (h : writeData s mac data ch = some (u, out)) (j : Slot) :
    SameHeader (s.btConnections j) (u.btConnections j) := by
  unfold writeData at h
  split at h
  · cases h
    exact .refl _
  · split at h
    · exact storePayload_header h j
    · exact storePayload_header h j
    · cases h
      exact .refl _

theorem create_of_lookup_none
    (h : getBtConnectionUsingMac (createBtConnection t mac) mac = none) :
    createBtConnection t mac = t := by
  cases hp : getBtConnectionUsingMac t mac with
  | some i => exact createBtConnection_of_present hp
  | none =>
    rw [createBtConnection_of_absent hp] at h ⊢
    cases hf : firstFreeSlot t with
    | none => rfl
    | some i =>
      rw [hf] at h
      have := lookup_mac_none_iff.mp h i
      simp at this

theorem hciPacketHandler_table (s : State) (p : HciPacket) :
    TableStep s.btConnections (.hci p) (hciPacketHandler s p).1.btConnections := by
  cases p with
  | leConnectionComplete status handle mac =>
    by_cases hst : status = 0
    · subst status
      cases hl : getBtConnectionUsingMac (createBtConnection s.btConnections mac) mac with
      | none =>
        apply TableStep.keep
        intro i
        simp only [hciPacketHandler, ne_eq, not_true_eq_false, if_false, hl]
        rw [create_of_lookup_none hl]
        exact .refl _
      | some i => simpa [hciPacketHandler, hl] using TableStep.complete handle mac i hl
    · exact .keep _ _ fun i => by simp [hciPacketHandler, hst, SameHeader.refl]
  | disconnectionComplete handle =>
    cases hl : getBtConnectionUsingHandle s.btConnections handle with
    | none => exact .keep _ _ fun i => by simp [hciPacketHandler, hl, SameHeader.refl]
    | some i => simpa [hciPacketHandler, hl] using TableStep.release handle i hl
  | other => exact .keep _ _ fun i => .refl _

theorem step_table (h : step s e = some (u, out)) :
    TableStep s.btConnections e u.btConnections := by
  cases e with
  | hci p =>
    obtain ⟨hu, _⟩ := total_step h
    exact hu ▸ hciPacketHandler_table s p
  | connect mac macType ret =>
    obtain ⟨hu, _⟩ := total_step h
    exact hu ▸ TableStep.claim mac macType ret
  | disconnect mac =>
    obtain ⟨hu, _⟩ := total_step h
    exact .keep _ _ fun i => by rw [← hu, disconnect_state]; exact .refl _
  | writeData mac data ch => exact .keep _ _ (writeData_header h)
  | attRead conHandle attHandle offset buffer bufferSize beyond =>
    obtain ⟨hu, _⟩ := total_step h
    apply TableStep.keep
    intro i
    rw [← hu, attReadCallback_btConnections]
    exact .refl _
  | attWrite conHandle attHandle data =>
    obtain ⟨hu, _⟩ := total_step h
    exact .keep _ _ fun i => hu ▸ .refl _
  | canSendNow ret =>
    obtain ⟨hu, _⟩ := total_step h
    exact .keep _ _ fun i => hu ▸ canSendNow_header s ret i
  | mtuExchangeComplete handle mtu ret =>
    obtain ⟨hu, _⟩ := total_step h
    apply TableStep.keep
    intro i
    rw [← hu, mtuExchangeComplete_btConnections]
    exact .refl _

/-! ## Preservation -/

theorem TableInvariant.congr (inv : TableInvariant t) {t' : BtConnections}
    (mac : ∀ i, (t' i).mac = (t i).mac) (isEmpty : ∀ i, (t' i).isEmpty = (t i).isEmpty) :
    TableInvariant t' := by
  constructor
  · intro i
    rw [mac, isEmpty]
    exact inv.occupied_iff i
  · intro i j
    rw [mac, mac]
    exact inv.distinct i j

theorem slotFor_cases (h : slotFor t mac = some i) :
    (t i).mac = mac ∨ ((∀ j, (t j).mac ≠ mac) ∧ (t i).isEmpty = false) := by
  simp only [slotFor] at h
  split at h
  · rename_i hl
    cases h
    exact Or.inl (mac_of_lookup hl)
  · rename_i hl
    exact Or.inr ⟨lookup_mac_none_iff.mp hl, free_of_firstFreeSlot h⟩

theorem TableInvariant.assign (inv : TableInvariant t) (hs : slotFor t mac = some i)
    {c : BtConnection} (hc : c.mac = mac) (hm : mac ≠ 0) (ho : c.isEmpty = true) :
    TableInvariant (Function.update t i c) := by
  have other : ∀ j, j ≠ i → (t j).mac ≠ mac := by
    intro j hj he
    rcases slotFor_cases hs with hi | ⟨absent, _⟩
    · exact hj (inv.distinct j i (he.trans hi.symm) (by rwa [he]))
    · exact absent j he
  constructor
  · intro j
    by_cases hj : j = i
    · subst j; simp [hc, hm, ho]
    · simpa [hj] using inv.occupied_iff j
  · intro j k
    by_cases hj : j = i <;> by_cases hk : k = i
    · intro _ _; rw [hj, hk]
    · subst j; intro he; exact absurd (by simpa [hk, hc] using he.symm) (other k hk)
    · subst k; intro he; exact absurd (by simpa [hj, hc] using he) (other j hj)
    · simpa [hj, hk] using inv.distinct j k

theorem TableInvariant.create (inv : TableInvariant t) (mac : Mac) :
    TableInvariant (createBtConnection t mac) := by
  by_cases hm : mac = 0
  · subst mac
    rwa [inv.createBtConnection_zero]
  · rw [inv.createBtConnection_eq hm]
    cases hs : slotFor t mac with
    | none => exact inv
    | some i => exact inv.assign hs rfl hm rfl

theorem TableInvariant.clear (inv : TableInvariant t) {t' : BtConnections}
    (h : ∀ j, t' j = t j ∨ t' j = clearConnectionData (t j)) : TableInvariant t' := by
  have mac_of : ∀ j, (t' j).mac ≠ 0 → (t' j).mac = (t j).mac := by
    intro j hj
    rcases h j with he | he
    · rw [he]
    · simp [he, clearConnectionData] at hj
  constructor
  · intro j
    rcases h j with he | he
    · rw [he]; exact inv.occupied_iff j
    · simp [he, clearConnectionData]
  · intro j k he hj
    have hk : (t' k).mac ≠ 0 := he ▸ hj
    exact inv.distinct j k (by rw [← mac_of j hj, he, mac_of k hk]) (mac_of j hj ▸ hj)

theorem TableStep.preserves {t' : BtConnections} (h : TableStep t e t')
    (inv : TableInvariant t) : TableInvariant t' := by
  cases h with
  | keep _ _ same => exact inv.congr (fun i => (same i).mac) (fun i => (same i).isEmpty)
  | claim mac => exact inv.create mac
  | complete handle mac i =>
    refine (inv.create mac).congr (fun j => ?_) (fun j => ?_) <;>
      by_cases hj : j = i <;> simp [hj]
  | release handle i => exact inv.clear fun j => delete_cases t i j

theorem initial_invariant : TableInvariant initial.btConnections := by
  constructor <;> simp [initial, init_btConnections, clearConnectionData]

theorem reachable_invariant {G : State → Event → Prop} {tr : List (Transition State Event Call)}
    (h : Execution step G initial tr s) : TableInvariant s.btConnections :=
  h.invariant (fun s => TableInvariant s.btConnections) initial_invariant
    fun inv _ hs => (step_table hs).preserves inv

/-! ## Lifetime of an occupied slot -/

/-- A disconnection whose handle lookup resolves to slot `i`. -/
def Frees (s : State) (e : Event) (i : Slot) : Prop :=
  ∃ handle, e = .hci (.disconnectionComplete handle) ∧
    getBtConnectionUsingHandle s.btConnections handle = some i

theorem create_occupied (hi : (t i).isEmpty = true) (mac : Mac) :
    createBtConnection t mac i = t i := by
  rcases createBtConnection_slot t mac i with same | ⟨free, _⟩
  · exact same
  · rw [hi] at free
    cases free

theorem step_occupied (inv : TableInvariant s.btConnections) (hs : step s e = some (u, out))
    (hi : (s.btConnections i).isEmpty = true) (hf : ¬ Frees s e i) :
    (u.btConnections i).isEmpty = true ∧
      (u.btConnections i).mac = (s.btConnections i).mac := by
  have h := step_table hs
  generalize u.btConnections = t' at h ⊢
  cases h with
  | keep _ _ same => exact ⟨(same i).isEmpty.trans hi, (same i).mac⟩
  | claim mac => rw [create_occupied hi]; exact ⟨hi, rfl⟩
  | complete handle mac j =>
    by_cases hj : i = j
    · subst j; simp [create_occupied hi, hi]
    · simp [hj, create_occupied hi, hi]
  | release handle j found =>
    by_cases hj : i = j
    · subst j; exact absurd ⟨handle, rfl, found⟩ hf
    · rw [inv.delete_other hi hj]; exact ⟨hi, rfl⟩

theorem frees_other (inv : TableInvariant s.btConnections) (hs : step s e = some (u, out))
    (hf : Frees s e i) (hj : (s.btConnections j).isEmpty = true) (hne : j ≠ i) :
    u.btConnections j = s.btConnections j := by
  obtain ⟨handle, rfl, found⟩ := hf
  obtain ⟨hu, _⟩ := total_step hs
  rw [← hu]
  simp only [hciPacketHandler, found]
  exact inv.delete_other hj hne

/-- Occupancy is a non-zero mac, occupied macs are distinct, lookups by mac find the one slot
of that mac, and a slot lasts until a disconnection resolves to it. -/
theorem connection_table_representation {tr : List (Transition State Event Call)}
    (h : Execution step (fun _ _ => True) initial tr s) :
    (∀ i, (s.btConnections i).isEmpty = true ↔ (s.btConnections i).mac ≠ 0) ∧
    (∀ i j, i ≠ j → (s.btConnections i).isEmpty = true → (s.btConnections j).isEmpty = true →
      (s.btConnections i).mac ≠ (s.btConnections j).mac) ∧
    (∀ mac, mac ≠ 0 →
      (∀ i, getBtConnectionUsingMac s.btConnections mac = some i ↔
        (s.btConnections i).mac = mac) ∧
      (isBtConnectionAvailable s.btConnections mac = true ↔
        ∃ i, (s.btConnections i).mac = mac)) ∧
    (∀ i, (s.btConnections i).isEmpty = true →
      (∀ tr' u, Execution step (fun s e => ¬ Frees s e i) s tr' u →
        (u.btConnections i).isEmpty = true ∧
          (u.btConnections i).mac = (s.btConnections i).mac) ∧
      (∀ e u out, Frees s e i → step s e = some (u, out) →
        ∀ j, j ≠ i → (s.btConnections j).isEmpty = true →
          u.btConnections j = s.btConnections j)) := by
  have inv := reachable_invariant h
  refine ⟨inv.occupied_iff, ?_, ?_, ?_⟩
  · intro i j hne hi _ he
    exact hne (inv.distinct i j he ((inv.occupied_iff i).mp hi))
  · intro mac hm
    refine ⟨fun i => inv.lookup_mac_iff hm, ?_⟩
    simp [isBtConnectionAvailable, findSlot_isSome_iff]
  · intro i hi
    constructor
    · intro tr' u hx
      have kept := hx.invariant
        (fun v => TableInvariant v.btConnections ∧ (v.btConnections i).isEmpty = true ∧
          (v.btConnections i).mac = (s.btConnections i).mac) ⟨inv, hi, rfl⟩ ?_
      · exact kept.2
      · intro v e out w before hf hs
        rcases before with ⟨hv, ho, hm⟩
        have next := step_occupied hv hs ho hf
        exact ⟨(step_table hs).preserves hv, next.1, next.2.trans hm⟩
    · intro e u out hf hs j hne hj
      exact frees_other inv hs hf hj hne

/-- Two peer addresses, for runs on concrete input. -/
def peerA : Mac := ⟨[0xa0, 1, 2, 3, 4, 5], rfl⟩
def peerB : Mac := ⟨[0xb0, 1, 2, 3, 4, 5], rfl⟩

theorem connection_table_after_connect :
    getBtConnectionUsingMac
      (hciPacketHandler initial (.leConnectionComplete 0 0x40 peerA)).1.btConnections peerA =
        some 0 :=
  (((connection_table_representation
    (.tail .init trivial (e := .hci (.leConnectionComplete 0 0x40 peerA)) rfl)).2.2.1
      peerA (by decide)).1 0).mpr (by decide)

end ConnectionTableInvariant
