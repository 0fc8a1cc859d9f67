import HmkitWorkspace.ReadBuffers
import Mathlib.Algebra.BigOperators.Group.Finset.Basic
import Mathlib.Algebra.Order.Group.Multiset

/-! # Where every accepted payload goes

A payload stored for a channel is either attempted as a notification, written over before a
can-send event came to it, or still waiting. Once a can-send event has been handled the next
one finds nothing to do. -/
namespace NotifyAccounting

open TransitionRuns HmkitCoreConnectivityHal ConnectionTableInvariant ReadBuffers

variable {s u : State} {e : Event} {out : List Call} {i : Slot} {ch : Channel}
  {tr : List (Transition State Event Call)}

abbrev Payloads := Multiset (List UInt8)

/-- What a buffer still has to send. -/
def waiting (b : ReadBuffer) : Payloads := if b.ready then {b.value} else 0

def pending (s : State) (ch : Channel) : Payloads := ∑ i, waiting (buffer s i ch)

/-- The payload a write stores for the channel. -/
def acceptedBy (ch : Channel) (t : Transition State Event Call) : Payloads :=
  match t.event with
  | .writeData mac data characteristic =>
    match writeTarget t.pre mac characteristic with
    | some (_, c) => if c = ch then {data} else 0
    | none => 0
  | _ => 0

/-- The unsent payload that a write to the channel replaces. -/
def overwrittenBy (ch : Channel) (t : Transition State Event Call) : Payloads :=
  match t.event with
  | .writeData mac _ characteristic =>
    match writeTarget t.pre mac characteristic with
    | some (i, c) => if c = ch then waiting (buffer t.pre i ch) else 0
    | none => 0
  | _ => 0

def attempted (ch : Channel) : Call → Payloads
  | .notify _ attHandle value _ => if attHandle = ch.valueHandle then {value} else 0
  | _ => 0

/-- Everything the notifications among some calls carry. -/
def attemptedBy (ch : Channel) (calls : List Call) : Payloads := (calls.map (attempted ch)).sum

def total (f : Transition State Event Call → Payloads) (tr : List (Transition State Event Call)) :
    Payloads := (tr.map f).sum

/-- Only one slot has to be looked at when the others keep their buffers. -/
theorem pending_exchange (others : ∀ j, j ≠ i → buffer u j ch = buffer s j ch) :
    waiting (buffer s i ch) + pending u ch = waiting (buffer u i ch) + pending s ch := by
  have split : ∀ v : State, pending v ch =
      waiting (buffer v i ch) + ∑ j ∈ Finset.univ.erase i, waiting (buffer v j ch) :=
    fun v => (Finset.add_sum_erase _ _ (Finset.mem_univ i)).symm
  have rest : ∑ j ∈ Finset.univ.erase i, waiting (buffer u j ch) =
      ∑ j ∈ Finset.univ.erase i, waiting (buffer s j ch) := by
    apply Finset.sum_congr rfl
    intro j hj
    rw [others j (Finset.ne_of_mem_erase hj)]
  rw [split u, split s, rest]
  exact add_left_comm ..

theorem pending_congr (same : ∀ i, buffer u i ch = buffer s i ch) :
    pending u ch = pending s ch := by
  rw [pending, pending]
  exact Finset.sum_congr rfl fun i _ => by rw [same i]

theorem served_attempted (s : State) (c ch : Channel) (ret : ℤ) :
    attemptedBy ch (served s c ret) =
      match servedSlot s c with
      | some i => if c = ch then waiting (buffer s i c) else 0
      | none => 0 := by
  unfold served
  cases servedSlot s c with
  | none => rfl
  | some i =>
    by_cases ready : (buffer s i c).ready = true
    · cases c <;> cases ch <;>
        simp [ready, attemptedBy, attempted, waiting, Channel.valueHandle]
    · simp [ready, attemptedBy, waiting]

theorem attemptedBy_append (ch : Channel) (calls calls' : List Call) :
    attemptedBy ch (calls ++ calls') = attemptedBy ch calls + attemptedBy ch calls' := by
  simp [attemptedBy]

theorem writeResponse_attempted (s : State) (ch : Channel) :
    attemptedBy ch (writeResponse s) = 0 := by
  unfold writeResponse
  split <;> simp [attemptedBy, attempted]

theorem canSendNow_attempted (s : State) (ret : Channel → ℤ) (ch : Channel) :
    attemptedBy ch (canSendNow s ret).2 =
      match servedSlot s ch with
      | some i => waiting (buffer s i ch)
      | none => 0 := by
  rw [canSendNow_calls, attemptedBy_append, attemptedBy_append, served_attempted,
    served_attempted, writeResponse_attempted, add_zero]
  cases ch <;> cases servedSlot s .link <;> cases servedSlot s .sensing <;> simp

/-- A can-send event moves what it finds ready from the waiting to the attempted payloads. -/
theorem canSendNow_pending (s : State) (ret : Channel → ℤ) (ch : Channel) :
    pending s ch = attemptedBy ch (canSendNow s ret).2 + pending (canSendNow s ret).1 ch := by
  have after := canSendNow_buffer s ret
  rw [canSendNow_attempted]
  cases hs : servedSlot s ch with
  | none =>
    rw [zero_add]
    exact (pending_congr fun i => by simp [after, hs]).symm
  | some i =>
    have others : ∀ j, j ≠ i → buffer (canSendNow s ret).1 j ch = buffer s j ch := by
      intro j hj
      simp [after, hs, hj.symm]
    have sent : waiting (buffer (canSendNow s ret).1 i ch) = 0 := by simp [after, hs, waiting]
    have exchanged := pending_exchange others
    rw [sent, zero_add] at exchanged
    exact exchanged.symm

/-- Events other than writes and can-send events attempt nothing. -/
theorem attemptedBy_silent (hs : step s e = some (u, out)) (h : ∀ ret, e ≠ .canSendNow ret) :
    attemptedBy ch out = 0 := by
  apply List.sum_eq_zero
  intro p hp
  obtain ⟨c, hc, rfl⟩ := List.mem_map.mp hp
  cases step_call hs hc with
  | notified ret => exact absurd rfl (h ret)
  | _ => rfl

theorem step_accounting (hs : step s e = some (u, out)) (ch : Channel) :
    acceptedBy ch ⟨s, e, out, u⟩ + pending s ch =
      attemptedBy ch out + overwrittenBy ch ⟨s, e, out, u⟩ + pending u ch := by
  rcases sends_or_silent e with ⟨ret, rfl⟩ | silent
  · obtain ⟨rfl, rfl⟩ := total_step hs
    rw [canSendNow_pending s ret ch]
    simp [acceptedBy, overwrittenBy]
  · rw [attemptedBy_silent hs silent, zero_add]
    cases e with
    | writeData mac data characteristic =>
      have hw := (writeData_eq s mac data characteristic).symm.trans hs
      simp only [acceptedBy, overwrittenBy]
      cases ht : writeTarget s mac characteristic with
      | none =>
        rw [ht] at hw
        obtain ⟨rfl, _⟩ := total_step hw
        rfl
      | some target =>
        obtain ⟨i, c⟩ := target
        rw [ht] at hw
        have stores := (storePayload_stores hw).1
        by_cases hc : c = ch
        · subst hc
          have others : ∀ j, j ≠ i → buffer u j c = buffer s j c :=
            fun j hj => stores.others j c (by simp [hj])
          have exchanged := pending_exchange others
          have stored : waiting (buffer u i c) = {data} := by
            simp [waiting, stores.ready, stores.value]
          simp only [if_true]
          rw [exchanged, stored]
        · have same : pending u ch = pending s ch :=
            pending_congr fun j => stores.others j ch fun h => hc h.2.symm
          simp [hc, same]
    | canSendNow ret => exact absurd rfl (silent ret)
    | _ =>
      have same : pending u ch = pending s ch := by
        apply pending_congr
        intro i
        cases step_buffer hs i ch with
        | keep _ same => exact same
      simp [acceptedBy, overwrittenBy, same]

theorem initial_pending (ch : Channel) : pending initial ch = 0 := by
  simp [pending, initial_buffer, waiting]

/-- In every run, the payloads accepted for a channel are those attempted, those overwritten
unsent and those still waiting, each counted as often as it occurs. -/
theorem payload_accounting {G : State → Event → Prop} (h : Execution step G initial tr s)
    (ch : Channel) :
    total (acceptedBy ch) tr =
      attemptedBy ch (outputsOf tr) + total (overwrittenBy ch) tr + pending s ch := by
  refine h.history_invariant (fun tr s => total (acceptedBy ch) tr =
    attemptedBy ch (outputsOf tr) + total (overwrittenBy ch) tr + pending s ch) ?_ ?_
  · simp [total, attemptedBy, initial_pending]
  · intro tr s e out u before _ hs
    have one := step_accounting hs ch
    simp only [total, List.map_append, List.map_singleton, List.sum_append, List.sum_singleton,
      outputsOf_append, outputsOf_singleton, attemptedBy_append] at before ⊢
    calc
      _ = attemptedBy ch (outputsOf tr) + (tr.map (overwrittenBy ch)).sum +
          (acceptedBy ch ⟨s, e, out, u⟩ + pending s ch) := by rw [before]; ac_rfl
      _ = attemptedBy ch (outputsOf tr) + (tr.map (overwrittenBy ch)).sum +
          (attemptedBy ch out + overwrittenBy ch ⟨s, e, out, u⟩ + pending u ch) := by rw [one]
      _ = _ := by ac_rfl

theorem payload_accounting_overwritten_write :
    ∃ tr s, Execution step (fun _ _ => True) initial tr s ∧ tr.length = 4 ∧
      total (acceptedBy .link) tr = attemptedBy .link (outputsOf tr) +
        total (overwrittenBy .link) tr + pending s .link := by
  have h : Execution step (fun _ _ => True) initial _ _ := execution_of_run
    [.hci (.leConnectionComplete 0 0x40 peerA), .writeData peerA [1] .linkRead,
      .writeData peerA [2] .linkRead, .canSendNow fun _ => 0] rfl fun _ _ => trivial
  exact ⟨_, _, h, rfl, payload_accounting h .link⟩

/-! ## Nothing left to do -/

/-- No can-send event would notify or respond. -/
structure Drained (s : State) : Prop where
  sent : ∀ ch i, servedSlot s ch = some i → (buffer s i ch).ready = false
  responded : (servedSlot s .sensing).isSome → s.blinkWriteResp = false

/-- Events that give a can-send event nothing new to do: no write that is accepted, no data read
of 106 by a known connection, and nothing that changes the address of a slot. -/
structure Calm (s : State) (e : Event) : Prop where
  refused : ∀ mac data characteristic, e = .writeData mac data characteristic →
    writeTarget s mac characteristic = none
  unread : ∀ handle offset bufferSize beyond,
    e = .attRead handle Channel.sensing.valueHandle offset true bufferSize beyond →
      getBtConnectionUsingHandle s.btConnections handle = none
  addresses : ∀ u out, step s e = some (u, out) →
    ∀ i, (u.btConnections i).mac = (s.btConnections i).mac

theorem servedSlot_congr (mac : ∀ i, (u.btConnections i).mac = (s.btConnections i).mac)
    (target : u.readBufferMac = s.readBufferMac) (ch : Channel) :
    servedSlot u ch = servedSlot s ch := by
  cases ch <;> simp only [servedSlot, target, lookup_mac_congr mac]

theorem canSendNow_servedSlot (s : State) (ret : Channel → ℤ) (ch : Channel) :
    servedSlot (canSendNow s ret).1 ch = servedSlot s ch :=
  servedSlot_congr (fun i => (canSendNow_header s ret i).mac) (canSendNow_readBufferMac s ret) ch

theorem canSendNow_drained (s : State) (ret : Channel → ℤ) : Drained (canSendNow s ret).1 := by
  constructor
  · intro ch i hi
    rw [canSendNow_servedSlot] at hi
    simp [canSendNow_buffer, hi]
  · intro reached
    rw [canSendNow_servedSlot] at reached
    rw [canSendNow_blinkWriteResp, Option.isNone_eq_false_iff.mpr reached, Bool.and_false]

theorem Drained.silent (h : Drained s) (ret : Channel → ℤ) : (canSendNow s ret).2 = [] := by
  have nothing : ∀ ch, served s ch (ret ch) = [] := by
    intro ch
    unfold served
    cases hi : servedSlot s ch with
    | none => rfl
    | some i => simp [h.sent ch i hi]
  have response : writeResponse s = [] := by
    rw [writeResponse, if_neg]
    rintro ⟨reached, blink⟩
    rw [h.responded reached] at blink
    cases blink
  rw [canSendNow_calls, nothing, nothing, response]
  rfl

theorem Calm.readBufferMac (calm : Calm s e) : readBufferMacAfter s e = s.readBufferMac := by
  cases e with
  | writeData mac data characteristic =>
    simp only [readBufferMacAfter, calm.refused mac data characteristic rfl]
  | _ => rfl

theorem Calm.blinkWriteResp (calm : Calm s e) (h : s.blinkWriteResp = false) :
    blinkWriteRespAfter s e = false := by
  cases e with
  | attRead handle attHandle offset valid bufferSize beyond =>
    simp only [blinkWriteRespAfter, h, Bool.false_or]
    by_cases read : valid = true ∧ attHandle = Channel.sensing.valueHandle
    · obtain ⟨rfl, rfl⟩ := read
      simp [calm.unread handle offset bufferSize beyond rfl]
    · cases valid <;> simp_all
  | canSendNow ret => simp [blinkWriteRespAfter, h]
  | _ => exact h

theorem Drained.step (h : Drained s) (calm : Calm s e) (hs : step s e = some (u, out)) :
    Drained u := by
  rcases sends_or_silent e with ⟨ret, rfl⟩ | silent
  · obtain ⟨rfl, _⟩ := total_step hs
    exact canSendNow_drained s ret
  · have buffers : ∀ i ch, buffer u i ch = buffer s i ch := by
      intro i ch
      cases step_buffer hs i ch with
      | keep _ same => exact same
      | stored mac data characteristic target =>
        rw [calm.refused mac data characteristic rfl] at target
        cases target
      | served ret => exact absurd rfl (silent ret)
    obtain ⟨target, blink⟩ := step_globals hs
    have slots := servedSlot_congr (calm.addresses u out hs) (target.trans calm.readBufferMac)
    constructor
    · intro ch i hi
      rw [slots] at hi
      rw [buffers]
      exact h.sent ch i hi
    · intro reached
      rw [slots] at reached
      rw [blink]
      exact calm.blinkWriteResp (h.responded reached)

/-- After a can-send event, and until a write is accepted, 106 is read or a slot changes its
address, further can-send events make no call, whatever BTstack would have answered. -/
theorem can_send_drains (s : State) (ret : Channel → ℤ)
    (h : Execution step Calm (canSendNow s ret).1 tr u) :
    (∀ ret', (canSendNow u ret').2 = []) ∧
      ∀ t ∈ tr, ∀ ret', t.event = .canSendNow ret' → t.outputs = [] := by
  have drained : ∀ {tr u}, Execution step Calm (canSendNow s ret).1 tr u → Drained u :=
    fun h => h.invariant Drained (canSendNow_drained s ret) Drained.step
  refine ⟨(drained h).silent, ?_⟩
  intro t ht ret' he
  obtain ⟨earlier, before, _, hs⟩ := h.transition ht
  rw [he] at hs
  obtain ⟨_, hout⟩ := total_step hs
  rw [← hout]
  exact (drained before).silent ret'

/-- A completion that failed and a data read of 102 come before the next can-send event. -/
theorem can_send_drains_one_peer :
    ∃ tr₀ s tr u, Execution step (fun _ _ => True) initial tr₀ s ∧
      (canSendNow s fun _ => 0).2 = [.notify 0x40 0x0003 [1, 2] 0] ∧
      Execution step Calm (canSendNow s fun _ => 0).1 tr u ∧ tr.length = 3 ∧
      ∀ ret', (canSendNow u ret').2 = [] := by
  have first : ∃ tr₀ s, Execution step (fun _ _ => True) initial tr₀ s ∧
      (canSendNow s fun _ => 0).2 = [.notify 0x40 0x0003 [1, 2] 0] :=
    ⟨_, _, execution_of_run [.hci (.leConnectionComplete 0 0x40 peerA),
      .writeData peerA [1, 2] .linkRead] rfl fun _ _ => trivial, by decide⟩
  obtain ⟨tr₀, s, first, calls⟩ := first
  have h : Execution step Calm (canSendNow s fun _ => 0).1 _ _ := execution_of_run
    [.hci (.leConnectionComplete 1 0x41 peerB), .attRead 0x40 0x0003 0 true 4 0,
      .canSendNow fun _ => 1] rfl (by
    rintro t (_ | ⟨_, _ | ⟨_, _ | ⟨_, ⟨⟩⟩⟩⟩)
    · exact ⟨by rintro _ _ _ ⟨⟩, by rintro _ _ _ _ ⟨⟩, by rintro _ _ ⟨⟩ i; rfl⟩
    · refine ⟨by rintro _ _ _ ⟨⟩, by rintro _ _ _ _ ⟨⟩, ?_⟩
      rintro u out hs i
      obtain ⟨rfl, _⟩ := total_step hs
      rw [attReadCallback_btConnections]
    · refine ⟨by rintro _ _ _ ⟨⟩, by rintro _ _ _ _ ⟨⟩, ?_⟩
      rintro u out hs i
      obtain ⟨rfl, _⟩ := total_step hs
      exact (canSendNow_header _ _ i).mac)
  exact ⟨tr₀, s, _, _, first, calls, h, rfl, (can_send_drains s _ h).1⟩

end NotifyAccounting
