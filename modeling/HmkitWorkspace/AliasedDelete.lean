import HmkitWorkspace.ConnectionTableInvariant

/-! # Deleting through a pointer into the table

The disconnection handler passes the address of the slot it is about to clear. From then on
the loop compares with zeros, and clears every later free slot once more: a free slot must be
as clearing leaves it. -/
namespace AliasedDelete

open TransitionRuns FixedSlots HmkitCoreConnectivityHal ConnectionTableInvariant

variable {t t' : BtConnections} {s u : State} {e : Event} {out : List Call} {i j : Slot}
  {mac : Mac} {c d : BtConnection} {tr : List (Transition State Event Call)}

/-- Connections that complete are with non-zero peer addresses. -/
def NonZeroPeer : Event → Prop
  | .hci (.leConnectionComplete status _ address) => status = 0 → address ≠ 0
  | _ => True

/-- Clearing the slot changes nothing. -/
def Idle (c : BtConnection) : Prop := clearConnectionData c = c

def FreeIdle (t : BtConnections) : Prop := ∀ i, (t i).isEmpty = false → Idle (t i)

/-! ## The two loops -/

theorem deleteBtConnection_copy (t : BtConnections) (mac : Mac) :
    deleteBtConnection t (.copy mac) = fun j =>
      if (t j).mac = mac then clearConnectionData (t j) else t j := by
  apply forEach_pointwise
  intro k
  simp only [MacPointer.deref, lt_irrefl, if_false]
  funext j
  rcases lt_trichotomy j k with hj | rfl | hj
  · by_cases hc : (t k).mac = mac <;> simp [hc, hj, hj.le, hj.ne]
  · by_cases hc : (t j).mac = mac <;> simp [hc]
  · by_cases hc : (t k).mac = mac <;> simp [hc, hj.not_gt, hj.not_ge, hj.ne']

/-- By value, an occupied slot is cleared alone. -/
theorem delete_copy_eq (inv : TableInvariant t) (hi : (t i).isEmpty = true) :
    deleteBtConnection t (.copy (t i).mac) = Function.update t i (clearConnectionData (t i)) := by
  have hm := (inv.occupied_iff i).mp hi
  rw [deleteBtConnection_copy]
  funext j
  by_cases hj : j = i
  · subst j
    simp
  · have other : (t j).mac ≠ (t i).mac := by
      intro same
      exact hj (inv.distinct j i same (same ▸ hm))
    simp [hj, other]

/-- Through the pointer, every free slot behind the cleared one is cleared as well. -/
theorem delete_slot_eq (inv : TableInvariant t) (hi : (t i).isEmpty = true) (j : Slot) :
    deleteBtConnection t (.slot i) j =
      if j = i ∨ i < j ∧ (t j).isEmpty = false then clearConnectionData (t j) else t j := by
  by_cases hj : j = i
  · subst j
    simp [delete_self]
  · cases occupied : (t j).isEmpty with
    | true => simp [inv.delete_other occupied hj, hj]
    | false =>
      have hz := inv.free_iff.mp occupied
      have hm := (inv.occupied_iff i).mp hi
      rw [deleteBtConnection_slot]
      by_cases behind : i < j
      · simp [hz, behind, behind.not_ge]
      · have le : j ≤ i := not_lt.mp behind
        simp [hj, hz, behind, le, hm.symm]

/-- The two loops agree exactly when every free slot behind the cleared one is idle. -/
theorem delete_agree_iff (inv : TableInvariant t) (hi : (t i).isEmpty = true) :
    deleteBtConnection t (.slot i) = deleteBtConnection t (.copy (t i).mac) ↔
      ∀ j, i < j → (t j).isEmpty = false → Idle (t j) := by
  rw [delete_copy_eq inv hi]
  constructor
  · intro same j behind free
    have at_j := congrFun same j
    rwa [delete_slot_eq inv hi, if_pos (Or.inr ⟨behind, free⟩),
      Function.update_of_ne behind.ne'] at at_j
  · intro idle
    funext j
    rw [delete_slot_eq inv hi]
    by_cases hj : j = i
    · subst j
      simp
    · by_cases later : i < j ∧ (t j).isEmpty = false
      · rw [if_pos (Or.inr later), Function.update_of_ne hj]
        exact idle j later.1 later.2
      · rw [if_neg (by simp only [hj, later, or_self, not_false_eq_true]),
          Function.update_of_ne hj]

/-! ## What free slots contain -/

theorem idle_clear (c : BtConnection) : Idle (clearConnectionData c) := rfl

/-- Being idle is a matter of the header. -/
theorem Idle.congr (h : Idle c) (same : SameHeader c d) : Idle d := by
  have handle : d.handle = 0 := same.handle.trans (congrArg BtConnection.handle h).symm
  have mac : d.mac = 0 := same.mac.trans (congrArg BtConnection.mac h).symm
  have free : d.isEmpty = false := same.isEmpty.trans (congrArg BtConnection.isEmpty h).symm
  have characters := same.characters.trans (congrArg BtConnection.characters h).symm
  obtain ⟨_, _, _, _, _⟩ := d
  cases handle
  cases mac
  cases free
  cases characters
  rfl

theorem freeIdle_create (h : FreeIdle t) (mac : Mac) : FreeIdle (createBtConnection t mac) := by
  intro i free
  rcases createBtConnection_slot t mac i with same | ⟨_, claimed⟩
  · rw [same] at free ⊢
    exact h i free
  · rw [claimed] at free
    cases free

theorem freeIdle_step (inv : TableInvariant t) (h : FreeIdle t) (step : TableStep t e t')
    (he : NonZeroPeer e) : FreeIdle t' := by
  intro i free
  cases step with
  | keep _ _ same =>
    rw [(same i).isEmpty] at free
    exact (h i free).congr (same i)
  | claim mac => exact freeIdle_create h mac i free
  | complete handle mac j found =>
    by_cases hj : i = j
    · subst i
      -- the slot found has the peer's address, so it is not free
      have hm := mac_of_lookup found
      have occupied := ((inv.create mac).occupied_iff j).mpr (by rw [hm]; exact he rfl)
      simp [occupied] at free
    · rw [Function.update_of_ne hj] at free ⊢
      exact freeIdle_create h mac i free
  | release handle j =>
    rcases delete_cases t j i with same | cleared
    · rw [same] at free ⊢
      exact h i free
    · rw [cleared]
      exact idle_clear (t i)

theorem reachable_freeIdle (h : Execution step (fun _ e => NonZeroPeer e) initial tr s) :
    FreeIdle s.btConnections := by
  have both := h.invariant
    (fun s => TableInvariant s.btConnections ∧ FreeIdle s.btConnections)
    ⟨initial_invariant, ?_⟩ ?_
  · exact both.2
  · intro i _
    simp only [initial, init_btConnections]
    exact idle_clear _
  · intro s e out u before he hs
    rcases before with ⟨inv, idle⟩
    exact ⟨(step_table hs).preserves inv, freeIdle_step inv idle (step_table hs) he⟩

/-- Deleting an occupied slot through the pointer to its own address does what deleting by
value does: the slot is cleared and every other one is as it was. -/
theorem aliased_delete (h : Execution step (fun _ e => NonZeroPeer e) initial tr s)
    (hi : (s.btConnections i).isEmpty = true) :
    deleteBtConnection s.btConnections (.slot i) =
        deleteBtConnection s.btConnections (.copy (s.btConnections i).mac) ∧
      deleteBtConnection s.btConnections (.slot i) =
        Function.update s.btConnections i (clearConnectionData (s.btConnections i)) := by
  have inv := reachable_invariant h
  have idle := reachable_freeIdle h
  have agree := (delete_agree_iff inv hi).mpr fun j _ free => idle j free
  exact ⟨agree, agree.trans (delete_copy_eq inv hi)⟩

/-- The first of two peers leaves, its slot before the other's and before all free ones. -/
theorem aliased_delete_first_of_two :
    ∃ tr s, run step initial [.hci (.leConnectionComplete 0 0x40 peerA),
        .hci (.leConnectionComplete 0 0x41 peerB)] = some (tr, s) ∧
      (s.btConnections 0).mac = peerA ∧ (s.btConnections 1).mac = peerB ∧
      deleteBtConnection s.btConnections (.slot 0) =
        deleteBtConnection s.btConnections (.copy peerA) := by
  refine ⟨_, _, rfl, by decide, by decide, ?_⟩
  refine (aliased_delete (execution_of_run [.hci (.leConnectionComplete 0 0x40 peerA),
    .hci (.leConnectionComplete 0 0x41 peerB)] rfl ?_) (by decide)).1
  rintro t (_ | ⟨_, _ | ⟨_, ⟨⟩⟩⟩)
  · intro _
    decide
  · intro _
    decide

end AliasedDelete
