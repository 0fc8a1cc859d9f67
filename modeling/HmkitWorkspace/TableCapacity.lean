import HmkitWorkspace.KeyedSlots
import HmkitWorkspace.ReadBuffers

/-! # The connection table as a set of ten addresses

Which addresses hold a slot can be told from the calls alone: the table is the bounded set
that connects insert into and reported disconnections erase from. -/
namespace TableCapacity

open TransitionRuns FixedSlots KeyedSlots HmkitCoreConnectivityHal ConnectionTableInvariant
  ReadBuffers

variable {t : BtConnections} {s u : State} {e : Event} {out : List Call} {mac : Mac} {i j : Slot}
  {H : Finset Mac}

/-- The addresses that hold a slot. -/
def addresses (t : BtConnections) : Finset Mac := keys (fun i => (t i).mac) 0

/-- A non-zero address enters the set unless the set is full without it. -/
def reserve (mac : Mac) (H : Finset Mac) : Finset Mac :=
  if mac ≠ 0 ∧ (mac ∈ H ∨ H.card < connectionCount) then insert mac H else H

def addressesAfter (H : Finset Mac) : Call → Finset Mac
  | .gapConnect mac _ _ => reserve mac H
  | .linkConnect mac => reserve mac H
  | .linkDisconnect mac => H.erase mac
  | _ => H

theorem distinct_macs (inv : TableInvariant t) : Distinct (fun i => (t i).mac) 0 := inv.distinct

theorem mem_addresses : mac ∈ addresses t ↔ mac ≠ 0 ∧ ∃ i, (t i).mac = mac := mem_keys

theorem card_addresses_le (inv : TableInvariant t) : (addresses t).card ≤ connectionCount :=
  card_keys_le (distinct_macs inv)

theorem card_addresses_lt_iff (inv : TableInvariant t) :
    (addresses t).card < connectionCount ↔ ∃ i, firstFreeSlot t = some i := by
  rw [addresses, card_keys_lt_iff (distinct_macs inv), ← Option.isSome_iff_exists, firstFreeSlot,
    findSlot_isSome_iff]
  apply exists_congr
  intro i
  simpa using (inv.free_iff (i := i)).symm

/-- The address an address-keyed lookup finds is in the set. -/
theorem lookup_isSome_iff (hm : mac ≠ 0) :
    (getBtConnectionUsingMac t mac).isSome ↔ mac ∈ addresses t := by
  rw [mem_addresses, getBtConnectionUsingMac, findSlot_isSome_iff]
  simp [hm]

theorem create_addresses (inv : TableInvariant t) (mac : Mac) :
    addresses (createBtConnection t mac) = reserve mac (addresses t) := by
  by_cases hm : mac = 0
  · subst mac
    simp [inv.createBtConnection_zero, reserve]
  · cases hl : getBtConnectionUsingMac t mac with
    | some i =>
      have held : mac ∈ addresses t := (lookup_isSome_iff hm).mp (by simp [hl])
      simp [createBtConnection_of_present hl, reserve, hm, held]
    | none =>
      have fresh : mac ∉ addresses t := fun held => by
        have := (lookup_isSome_iff hm).mpr held
        simp [hl] at this
      rw [createBtConnection_of_absent hl]
      cases hf : firstFreeSlot t with
      | none =>
        have full : ¬ (addresses t).card < connectionCount := by
          rw [card_addresses_lt_iff inv, hf]
          simp
        simp [reserve, hm, fresh, full]
      | some i =>
        have room : (addresses t).card < connectionCount :=
          (card_addresses_lt_iff inv).mpr ⟨i, hf⟩
        have vacant : (t i).mac = 0 := inv.free_iff.mp (free_of_firstFreeSlot hf)
        have macs :
            (fun j => (Function.update t i { t i with mac := mac, isEmpty := true } j).mac) =
              Function.update (fun j => (t j).mac) i mac := by
          funext j
          by_cases hj : j = i
          · subst j
            simp
          · simp [hj]
        rw [reserve, if_pos ⟨hm, Or.inr room⟩, addresses, macs, keys_claim vacant hm]
        rfl

/-- Whatever the pointer names while the loop runs, the slots of its first address are freed. -/
theorem delete_mac (inv : TableInvariant t) (i j : Slot) :
    (deleteBtConnection t (.slot i) j).mac = if (t j).mac = (t i).mac then 0 else (t j).mac := by
  rw [deleteBtConnection_slot]
  dsimp only
  by_cases hj : j ≤ i
  · by_cases same : (t j).mac = (t i).mac <;> simp [hj, same, clearConnectionData]
  · simp only [hj, if_false]
    by_cases zero : (t j).mac = 0
    · simp [zero, clearConnectionData]
    · have other : (t j).mac ≠ (t i).mac := fun same => hj (inv.distinct j i same zero).le
      simp [zero, other]

theorem delete_addresses (inv : TableInvariant t) (i : Slot) :
    addresses (deleteBtConnection t (.slot i)) = (addresses t).erase (t i).mac :=
  keys_release (delete_mac inv i)

theorem addresses_congr {t' : BtConnections} (same : ∀ i, (t' i).mac = (t i).mac) :
    addresses t' = addresses t := by
  rw [addresses, addresses, funext same]

/-! ## Runs -/

theorem addressesAfter_of_others (others : ∀ c ∈ out, ∀ H, addressesAfter H c = H) :
    out.foldl addressesAfter H = H := by
  induction out generalizing H with
  | nil => rfl
  | cons c out ih =>
    rw [List.foldl_cons, others c (List.mem_cons_self ..) H]
    exact ih fun d hd => others d (List.mem_cons_of_mem _ hd)

theorem complete_addresses (inv : TableInvariant s.btConnections) (status : UInt8)
    (handle : HciConHandle) (mac : Mac) :
    addresses (hciPacketHandler s (.leConnectionComplete status handle mac)).1.btConnections =
      (hciPacketHandler s (.leConnectionComplete status handle mac)).2.foldl addressesAfter
        (addresses s.btConnections) := by
  by_cases hst : status = 0
  · simp only [hciPacketHandler, hst, ne_eq, not_true_eq_false, if_false]
    cases hl : getBtConnectionUsingMac (createBtConnection s.btConnections mac) mac with
    | none => exact congrArg addresses (create_of_lookup_none hl)
    | some i =>
      apply Eq.trans _ (create_addresses inv mac)
      apply addresses_congr
      intro j
      by_cases hj : j = i
      · subst j
        simp
      · simp [hj]
  · simp [hciPacketHandler, hst]

theorem step_addresses (inv : TableInvariant s.btConnections) (hs : step s e = some (u, out)) :
    addresses u.btConnections = out.foldl addressesAfter (addresses s.btConnections) := by
  cases e with
  | hci p =>
    obtain ⟨rfl, rfl⟩ := total_step hs
    cases p with
    | leConnectionComplete status handle mac => exact complete_addresses inv status handle mac
    | disconnectionComplete handle =>
      simp only [hciPacketHandler]
      cases getBtConnectionUsingHandle s.btConnections handle with
      | none => simp only [List.foldl_nil]
      | some i => simp only [List.foldl_cons, List.foldl_nil, addressesAfter, delete_addresses inv]
    | other => simp only [hciPacketHandler, List.foldl_nil]
  | connect mac macType ret =>
    obtain ⟨rfl, rfl⟩ := total_step hs
    simp only [HmkitCoreConnectivityHal.connect, List.foldl_cons, List.foldl_nil, addressesAfter,
      create_addresses inv]
  | _ =>
    have kept : addresses u.btConnections = addresses s.btConnections := by
      apply addresses_congr
      have table := step_table hs
      generalize u.btConnections = t' at table ⊢
      cases table with
      | keep _ _ same => exact fun i => (same i).mac
    rw [kept, addressesAfter_of_others]
    intro c hc H
    cases step_call hs hc <;> rfl

theorem initial_addresses : addresses initial.btConnections = ∅ := by
  ext mac
  rw [mem_addresses]
  simp [initial, init_btConnections, clearConnectionData, eq_comm]

/-- In every run the table holds the addresses that a bounded set driven by the calls holds, at
most ten; and a completed connection of a non-zero address is reported exactly when the
address is held already or there is room for it. -/
theorem table_is_bounded_set {tr : List (Transition State Event Call)}
    (h : Execution step (fun _ _ => True) initial tr s) :
    addresses s.btConnections = (outputsOf tr).foldl addressesAfter ∅ ∧
    (addresses s.btConnections).card ≤ connectionCount ∧
    ∀ handle mac, mac ≠ 0 →
      (hciPacketHandler s (.leConnectionComplete 0 handle mac)).2 =
        if mac ∈ addresses s.btConnections ∨
          (addresses s.btConnections).card < connectionCount then [.linkConnect mac] else [] := by
  have inv := reachable_invariant h
  refine ⟨?_, card_addresses_le inv, ?_⟩
  · have replayed := h.history_invariant
      (fun tr s => TableInvariant s.btConnections ∧
        addresses s.btConnections = (outputsOf tr).foldl addressesAfter ∅)
      ⟨initial_invariant, by rw [initial_addresses, outputsOf_nil, List.foldl_nil]⟩ ?_
    · exact replayed.2
    · intro tr s e out u before _ hs
      rcases before with ⟨inv, held⟩
      refine ⟨(step_table hs).preserves inv, ?_⟩
      rw [step_addresses inv hs, held, outputsOf_append, List.foldl_append, outputsOf_singleton]
  · intro handle mac hm
    have found := lookup_isSome_iff (t := createBtConnection s.btConnections mac) hm
    rw [create_addresses inv] at found
    simp only [hciPacketHandler, ne_eq, not_true_eq_false, if_false]
    by_cases room : mac ∈ addresses s.btConnections ∨
        (addresses s.btConnections).card < connectionCount
    · rw [if_pos room]
      rw [reserve, if_pos ⟨hm, room⟩] at found
      obtain ⟨i, hi⟩ := Option.isSome_iff_exists.mp (found.mpr (Finset.mem_insert_self ..))
      simp [hi]
    · rw [if_neg room]
      rw [reserve, if_neg fun both => room both.2] at found
      have missing : ¬ mac ∈ addresses s.btConnections := fun held => room (Or.inl held)
      rw [← found, Option.not_isSome_iff_eq_none] at missing
      simp [missing]

theorem table_is_bounded_set_two_peers :
    ∃ tr s, Execution step (fun _ _ => True) initial tr s ∧
      addresses s.btConnections = (outputsOf tr).foldl addressesAfter ∅ ∧
      (addresses s.btConnections).card ≤ connectionCount := by
  have h : Execution step (fun _ _ => True) initial _ _ := execution_of_run [.connect peerA 0 0,
    .hci (.leConnectionComplete 0 0x40 peerB), .hci (.disconnectionComplete 0x40)] rfl
    fun _ _ => trivial
  exact ⟨_, _, h, (table_is_bounded_set h).1, (table_is_bounded_set h).2.1⟩

end TableCapacity
