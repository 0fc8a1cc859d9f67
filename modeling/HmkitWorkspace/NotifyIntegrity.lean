import HmkitWorkspace.ReadBuffers
import HmkitWorkspace.JustifiedTraces

/-! # What a notification carries

For each slot and characteristic the run is reduced to the writes that were stored and the
notifications attempted from there: an attempt comes right after the write it sends. -/
namespace NotifyIntegrity

open TransitionRuns JustifiedTraces HmkitCoreConnectivityHal ConnectionTableInvariant ReadBuffers

variable {s u : State} {e : Event} {out : List Call} {tr : List (Transition State Event Call)}
  {i : Slot} {ch : Channel}

inductive Mark where
  | wrote (data : List UInt8)
  | attempted (value : List UInt8)

def attempt : Call → Option Mark
  | .notify _ _ value _ => some (.attempted value)
  | _ => none

/-- The writes stored in a slot and the attempts made from it, on one characteristic. -/
def marks (i : Slot) (ch : Channel) (t : Transition State Event Call) : List Mark :=
  match t.event with
  | .writeData mac data characteristic =>
    if writeTarget t.pre mac characteristic = some (i, ch) then [.wrote data] else []
  | .canSendNow _ =>
    if servedSlot t.pre ch = some i then (t.outputs.filter (onChannel ch)).filterMap attempt
    else []
  | _ => []

def marksOf (i : Slot) (ch : Channel) (tr : List (Transition State Event Call)) : List Mark :=
  tr.flatMap (marks i ch)

/-- An attempt sends what the mark right before it wrote. -/
def SendsLast (before : List Mark) : Mark → Prop
  | .attempted value => before.getLast? = some (.wrote value)
  | .wrote _ => True

/-- What is waiting was written last, and nothing was attempted since. -/
def Waiting (marks : List Mark) (b : ReadBuffer) : Prop :=
  b.ready = true → marks.getLast? = some (.wrote b.value)

theorem marksOf_concat (tr : List (Transition State Event Call))
    (t : Transition State Event Call) :
    marksOf i ch (tr ++ [t]) = marksOf i ch tr ++ marks i ch t := by
  simp [marksOf]

theorem marks_canSendNow {ret : Channel → ℤ} (hs : step s (.canSendNow ret) = some (u, out)) :
    marks i ch ⟨s, .canSendNow ret, out, u⟩ =
      if servedSlot s ch = some i ∧ (buffer s i ch).ready then
        [.attempted (buffer s i ch).value]
      else [] := by
  obtain ⟨_, rfl⟩ := total_step hs
  by_cases slot : servedSlot s ch = some i
  · by_cases ready : (buffer s i ch).ready = true
    · simp [marks, canSendNow_onChannel, served, slot, ready, attempt]
    · simp [marks, canSendNow_onChannel, served, slot, ready]
  · simp [marks, slot]

theorem marks_keep (hs : step s e = some (u, out)) (sends : ∀ ret, e ≠ .canSendNow ret)
    (unwritten : ∀ mac data characteristic, e = .writeData mac data characteristic →
      writeTarget s mac characteristic ≠ some (i, ch)) : marks i ch ⟨s, e, out, u⟩ = [] := by
  cases e with
  | writeData mac data characteristic =>
    simp [marks, unwritten mac data characteristic rfl]
  | canSendNow ret => exact absurd rfl (sends ret)
  | _ => rfl

theorem waiting_step (hs : step s e = some (u, out)) {before : List Mark}
    (justified : Justified SendsLast before) (waiting : Waiting before (buffer s i ch)) :
    Justified SendsLast (before ++ marks i ch ⟨s, e, out, u⟩) ∧
      Waiting (before ++ marks i ch ⟨s, e, out, u⟩) (buffer u i ch) := by
  rcases sends_or_silent e with ⟨ret, rfl⟩ | silent
  · have after := canSendNow_buffer s ret i ch
    obtain ⟨hu, _⟩ := total_step hs
    rw [marks_canSendNow hs]
    replace after : buffer u i ch =
        if servedSlot s ch = some i then { buffer s i ch with ready := false }
        else buffer s i ch := by rw [← hu]; exact after
    by_cases slot : servedSlot s ch = some i
    · have lowered : Waiting (before ++ if servedSlot s ch = some i ∧ (buffer s i ch).ready then
          [.attempted (buffer s i ch).value] else []) (buffer u i ch) := by
        intro hr
        simp [after, slot] at hr
      by_cases ready : (buffer s i ch).ready = true
      · refine ⟨?_, lowered⟩
        simp only [slot, ready, and_self, if_true]
        exact justified_concat.mpr ⟨justified, waiting ready⟩
      · simpa [ready, slot] using ⟨justified, by simpa [ready, slot] using lowered⟩
    · simpa [after, slot] using ⟨justified, waiting⟩
  · cases step_buffer hs i ch with
    | keep _ same unwritten =>
      rw [marks_keep hs silent unwritten, List.append_nil, same]
      exact ⟨justified, waiting⟩
    | stored mac data characteristic target stores =>
      have wrote : marks i ch ⟨s, .writeData mac data characteristic, out, u⟩ =
          [.wrote data] := by simp [marks, target]
      rw [wrote]
      refine ⟨justified_concat.mpr ⟨justified, trivial⟩, ?_⟩
      intro _
      simp [stores.value]
    | served ret _ _ => exact absurd rfl (silent ret)

/-- Every notification is an attempt of some slot on the value handle of its characteristic,
and an attempt carries what the slot's last write stored, with no attempt in between. -/
theorem notification_integrity (h : Execution step (fun _ _ => True) initial tr s) :
    (∀ t ∈ tr, ∀ handle attHandle value ret, Call.notify handle attHandle value ret ∈ t.outputs →
      ∃ i ch, handle = (t.pre.btConnections i).handle ∧ attHandle = ch.valueHandle ∧
        Mark.attempted value ∈ marks i ch t) ∧
    ∀ i ch before value after, marksOf i ch tr = before ++ .attempted value :: after →
      before.getLast? = some (.wrote value) := by
  constructor
  · intro t ht handle attHandle value ret hc
    obtain ⟨_, _, _, hs⟩ := h.transition ht
    obtain ⟨pre, event, outputs, post⟩ := t
    cases step_call hs hc with
    | notified rets ch i slot ready =>
      refine ⟨i, ch, rfl, rfl, ?_⟩
      rw [marks_canSendNow hs]
      simp [slot, ready]
  · intro i ch before value after hm
    have all := h.history_invariant
      (fun tr s => Justified SendsLast (marksOf i ch tr) ∧
        Waiting (marksOf i ch tr) (buffer s i ch)) ⟨justified_nil, ?_⟩ ?_
    · exact all.1 before (.attempted value) after hm
    · intro ready
      simp [initial_buffer] at ready
    · intro tr s e out u before _ hs
      rw [marksOf_concat]
      exact waiting_step hs before.1 before.2

theorem notification_integrity_one_payload :
    ∃ tr s, run step initial [.hci (.leConnectionComplete 0 0x40 peerA),
        .writeData peerA [1, 2, 3] .linkRead, .canSendNow fun _ => 0] = some (tr, s) ∧
      outputsOf tr = [.linkConnect peerA, .requestCanSendNow 0x40,
        .notify 0x40 0x0003 [1, 2, 3] 0] ∧
      ∀ before value after, marksOf 0 .link tr = before ++ .attempted value :: after →
        before.getLast? = some (.wrote value) := by
  refine ⟨_, _, rfl, by decide, ?_⟩
  have h := notification_integrity (execution_of_run [.hci (.leConnectionComplete 0 0x40 peerA),
    .writeData peerA [1, 2, 3] .linkRead, .canSendNow fun _ => 0] rfl fun _ _ => trivial)
  exact h.2 0 .link

end NotifyIntegrity
