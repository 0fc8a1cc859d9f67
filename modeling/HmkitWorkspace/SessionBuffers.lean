import HmkitWorkspace.ConnectionHistory

/-! # Buffers and the sessions that use them

A relation between a buffer and the payloads accepted in the session of its slot holds in
every run once it survives storing and sending and holds of the slots sessions start in. -/
namespace SessionBuffers

open TransitionRuns FixedSlots HmkitCoreConnectivityHal ConnectionTableInvariant ReadBuffers
  ConnectionHistory

variable {w v : World} {e : Event} {out : List Call} {tr : History} {handle : HciConHandle}
  {k k' : Link} {i : Slot} {ch : Channel}

/-! ## What one event does to a connection -/

inductive LinkStep (w : World) (out : List Call) (handle : HciConHandle) : Event → Link → Prop where
  | opened (address : Mac) : LinkStep w out handle (.hci (.leConnectionComplete 0 handle address))
      ⟨⟨address, decide (Call.linkConnect address ∈ out)⟩, fun _ => []⟩
  | kept (e : Event) (k : Link) (old : w.live handle = some k)
      (connected : e ≠ .hci (.disconnectionComplete handle))
      (unwritten : ∀ mac data characteristic, e = .writeData mac data characteristic →
        writeTarget w.hal mac characteristic = none) : LinkStep w out handle e k
  | wrote (mac : Mac) (data : List UInt8) (characteristic : Characteristic) (i : Slot)
      (ch : Channel) (k : Link) (target : writeTarget w.hal mac characteristic = some (i, ch))
      (old : w.live handle = some k) :
      LinkStep w out handle (.writeData mac data characteristic) (k.accept mac ch data)

theorem step_link (hs : w.step e = some (v, out)) (hk : v.live handle = some k) :
    LinkStep w out handle e k := by
  rw [(step_world hs).2.1] at hk
  cases e with
  | hci p =>
    cases p with
    | leConnectionComplete status hd address =>
      by_cases hst : status = 0
      · subst status
        by_cases hh : handle = hd
        · subst hd
          have he : k = ⟨⟨address, decide (Call.linkConnect address ∈ out)⟩, fun _ => []⟩ := by
            simpa [liveAfter] using hk.symm
          exact he ▸ .opened address
        · exact .kept _ k (by simpa [liveAfter, hh] using hk) (by simp) (by simp)
      · exact .kept _ k (by simpa [liveAfter, hst] using hk) (by simp) (by simp)
    | disconnectionComplete hd =>
      by_cases hh : handle = hd
      · simp [liveAfter, hh] at hk
      · exact .kept _ k (by simpa [liveAfter, hh] using hk) (by simpa [eq_comm] using hh) (by simp)
    | other => exact .kept _ k hk (by simp) (by simp)
  | writeData mac data characteristic =>
    simp only [liveAfter] at hk
    cases ht : writeTarget w.hal mac characteristic with
    | none =>
      rw [ht] at hk
      apply LinkStep.kept _ k hk (by simp)
      intro mac' data' characteristic' he
      cases he
      exact ht
    | some target =>
      rw [ht] at hk
      obtain ⟨old, hold, rfl⟩ := Option.map_eq_some_iff.mp hk
      exact .wrote mac data characteristic target.1 target.2 old ht hold
  | _ => exact .kept _ k hk (by simp) (by simp)

theorem no_live_zero_handle {G : World → Event → Prop} (hG : ∀ w e, G w e → NonZeroHandle e)
    (h : Execution World.step G World.initial tr w) : w.live 0 = none := by
  refine h.invariant (fun w => w.live 0 = none) rfl ?_
  intro w e out v before hg hs
  have hz := hG w e hg
  by_contra hne
  obtain ⟨k, hk⟩ := Option.ne_none_iff_exists'.mp hne
  cases step_link hs hk with
  | opened address => exact hz rfl rfl
  | kept _ _ old => rw [before] at old; cases old
  | wrote _ _ _ _ _ k _ old => rw [before] at old; cases old

theorem slot_stays (inv : TableInvariant w.hal.btConnections)
    (ht : Tracks w.hal.btConnections w.peers) (hs : w.step e = some (v, out))
    (hold : w.live handle = some k) (hrec : k.recorded = true)
    (connected : e ≠ .hci (.disconnectionComplete handle))
    (hi : (v.hal.btConnections i).mac = k.mac) : (w.hal.btConnections i).mac = k.mac := by
  have hp : w.peers handle = some ⟨k.mac, true⟩ := by simp [World.peers, hold, ← hrec]
  obtain ⟨j, hm, hh⟩ := ht.recorded handle k.mac hp
  have hz : k.mac ≠ 0 := ht.nonzero handle ⟨k.mac, true⟩ hp
  have occupied := (inv.occupied_iff j).mpr (hm ▸ hz)
  have hal := (step_world hs).1
  have stays := step_occupied inv hal occupied ?_
  · have hij := ((step_table hal).preserves inv).distinct i j
      (hi.trans (stays.2.trans hm).symm) (hi ▸ hz)
    rw [hij]
    exact hm
  · intro frees
    rcases frees with ⟨hd, rfl, found⟩
    exact connected (by rw [← hh, handle_of_lookup found])

/-! ## Session relations -/

variable {P : ReadBuffer → Prop} {R : ReadBuffer → List (List UInt8) → Prop}

structure SessionRelation (P : ReadBuffer → Prop) (R : ReadBuffer → List (List UInt8) → Prop) :
    Prop where
  fresh : ∀ b, P b → R b []
  stored : ∀ b sent data, b.value = data → b.size = data.length → R b (sent ++ [data])
  served : ∀ b sent, R b sent → R { b with ready := false } sent

/-- A connection that is recorded by this event takes a slot whose buffers satisfy `P`. -/
def TakesSlot (P : ReadBuffer → Prop) (w : World) : Event → Prop
  | .hci (.leConnectionComplete status _ address) => status = 0 →
    ∀ i, slotFor w.hal.btConnections address = some i → ∀ ch, P (buffer w.hal i ch)
  | _ => True

def SessionsRelated (R : ReadBuffer → List (List UInt8) → Prop) (w : World) : Prop :=
  ∀ handle k i, w.live handle = some k → k.recorded = true →
    (w.hal.btConnections i).mac = k.mac → ∀ ch, R (buffer w.hal i ch) (k.sent ch)

theorem related_opened (hr : SessionRelation P R) (inv : TableInvariant w.hal.btConnections)
    {address : Mac} (he : Enabled w (.hci (.leConnectionComplete 0 handle address)))
    (takes : TakesSlot P w (.hci (.leConnectionComplete 0 handle address)))
    (hs : w.step (.hci (.leConnectionComplete 0 handle address)) = some (v, out))
    (hrec : Call.linkConnect address ∈ out) (hi : (v.hal.btConnections i).mac = address) :
    R (buffer v.hal i ch) [] := by
  obtain ⟨hv, hout⟩ := step_hci hs
  have hm := (he rfl).2.1
  have same := hciPacketHandler_buffer w.hal (.leConnectionComplete 0 handle address) i ch
  rw [hv, same]
  rw [complete_eq inv hm] at hv hout
  cases hsl : slotFor w.hal.btConnections address with
  | none =>
    rw [hsl] at hout
    simp [hout] at hrec
  | some j =>
    rw [hsl] at hv
    have hij : i = j := by
      by_contra hne
      rw [hv] at hi
      simp only [Function.update_of_ne hne] at hi
      rcases slotFor_cases hsl with hj | ⟨absent, _⟩
      · exact hne (inv.distinct i j (hi.trans hj.symm) (hi ▸ hm))
      · exact absent i hi
    exact hr.fresh _ (takes rfl i (hij ▸ hsl) ch)

theorem related_step (hr : SessionRelation P R) (inv : TableInvariant w.hal.btConnections)
    (ht : Tracks w.hal.btConnections w.peers) (related : SessionsRelated R w)
    (he : Enabled w e) (takes : TakesSlot P w e) (hs : w.step e = some (v, out)) :
    SessionsRelated R v := by
  intro handle k i hk hrec hi ch
  cases step_link hs hk with
  | opened address => exact related_opened hr inv he takes hs (by simpa using hrec) hi
  | kept _ _ old connected unwritten =>
    have hwi := slot_stays inv ht hs old hrec connected hi
    have before := related handle k i old hrec hwi ch
    cases step_buffer (step_world hs).1 i ch with
    | keep _ same => rwa [same]
    | stored mac data characteristic target =>
      rw [unwritten mac data characteristic rfl] at target
      cases target
    | served ret slot after => exact after ▸ hr.served _ _ before
  | wrote mac data characteristic j c k target old =>
    have hpeer := k.toPeer_accept mac c data
    have hmac : (k.accept mac c data).mac = k.mac := congrArg Peer.mac hpeer
    have hrec : k.recorded = true := (congrArg Peer.recorded hpeer).symm.trans hrec
    have hwi := slot_stays inv ht hs old hrec (by simp) (hi.trans hmac)
    have before := related handle k i old hrec hwi ch
    have hj := mac_of_lookup (writeTarget_some target).1
    rw [k.sent_accept]
    cases step_buffer (step_world hs).1 i ch with
    | keep _ same unwritten =>
      have other : ¬ (k.mac = mac ∧ ch = c) := by
        intro own
        rcases own with ⟨hkm, rfl⟩
        have hp : w.peers handle = some k.toPeer := by simp [World.peers, old]
        have hij := inv.distinct i j ((hwi.trans hkm).trans hj.symm)
          (hwi ▸ ht.nonzero handle k.toPeer hp)
        exact unwritten mac data characteristic rfl (hij ▸ target)
      rwa [same, if_neg other]
    | stored _ _ _ target' stores =>
      rw [target] at target'
      cases target'
      rw [if_pos ⟨hwi.symm.trans hj, rfl⟩]
      exact hr.stored _ _ _ stores.value stores.size

theorem session_buffers (hr : SessionRelation P R)
    (h : Execution World.step (fun w e => Enabled w e ∧ TakesSlot P w e) World.initial tr w) :
    SessionsRelated R w := by
  have all := h.invariant
    (fun w => (TableInvariant w.hal.btConnections ∧ Tracks w.hal.btConnections w.peers) ∧
      SessionsRelated R w) ⟨⟨ConnectionTableInvariant.initial_invariant, initial_tracks⟩, ?_⟩ ?_
  · exact all.2
  · intro handle k i hk
    simp [World.initial] at hk
  · intro w e out v before guard hs
    rcases before with ⟨⟨inv, ht⟩, related⟩
    rcases guard with ⟨he, takes⟩
    exact ⟨⟨(step_table (step_world hs).1).preserves inv, step_tracks inv ht he hs⟩,
      related_step hr inv ht related he takes hs⟩

/-- The buffer holds the last payload accepted in the session, if there is one. -/
def HoldsLast (b : ReadBuffer) (sent : List (List UInt8)) : Prop :=
  ∀ p, sent.getLast? = some p → b.value = p ∧ b.size = p.length

theorem holdsLast_relation : SessionRelation (fun _ => True) HoldsLast := by
  refine ⟨?_, ?_, fun _ _ h => h⟩
  · intro b _ p hp
    simp at hp
  · intro b sent data hv hsz p hp
    obtain rfl : data = p := by simpa using hp
    exact ⟨hv, hsz⟩

/-- A raised ready flag stems from the session. -/
def ReadyInSession (b : ReadBuffer) (sent : List (List UInt8)) : Prop :=
  b.ready = true → sent ≠ []

theorem readyInSession_relation :
    SessionRelation (fun b => b.ready = false) ReadyInSession := by
  refine ⟨?_, ?_, ?_⟩
  · intro b hb hr
    simp [hb] at hr
  · intro b sent data _ _ _
    simp
  · intro b sent _ hr
    cases hr

theorem sessions_hold_last (h : Execution World.step Enabled World.initial tr w) :
    SessionsRelated HoldsLast w := by
  refine session_buffers holdsLast_relation (h.mono fun w e he => ⟨he, ?_⟩)
  cases e with
  | hci p => cases p <;> simp [TakesSlot]
  | _ => trivial

theorem world_size {G : World → Event → Prop} (h : Execution World.step G World.initial tr w)
    (i : Slot) (ch : Channel) : (buffer w.hal i ch).size ≤ readBufferLength := by
  refine h.invariant (fun w => (buffer w.hal i ch).size ≤ readBufferLength) ?_
    fun inv _ hs => step_size (step_world hs).1 inv
  simp [World.initial, initial_buffer]

theorem lastWritten_kept (hs : w.step e = some (v, out))
    (unwritten : ∀ mac data characteristic, e = .writeData mac data characteristic →
      writeTarget w.hal mac characteristic ≠ some (i, ch)) :
    v.lastWritten i ch = w.lastWritten i ch := by
  rw [(step_world hs).2.2.2]
  cases e with
  | writeData mac data characteristic =>
    simp only [lastWrittenAfter]
    cases ht : writeTarget w.hal mac characteristic with
    | none => rfl
    | some target =>
      obtain ⟨j, c⟩ := target
      have hne := unwritten mac data characteristic rfl
      rw [ht] at hne
      by_cases hj : i = j
      · subst j
        have hc : ch ≠ c := fun hc => hne (hc ▸ rfl)
        simp [hc]
      · simp [hj]
  | _ => rfl

/-- A buffer holds what was last written to its slot, by whoever used it. -/
theorem world_buffer {G : World → Event → Prop} (h : Execution World.step G World.initial tr w)
    (i : Slot) (ch : Channel) :
    (buffer w.hal i ch).value = (w.lastWritten i ch).getD [] ∧
      (buffer w.hal i ch).size = ((w.lastWritten i ch).getD []).length := by
  refine h.invariant (fun w => (buffer w.hal i ch).value = (w.lastWritten i ch).getD [] ∧
    (buffer w.hal i ch).size = ((w.lastWritten i ch).getD []).length) ?_ ?_
  · simp [World.initial, initial_buffer, ReadBuffer.value]
  · intro w e out v before _ hs
    have hl := (step_world hs).2.2.2
    cases step_buffer (step_world hs).1 i ch with
    | keep _ same unwritten =>
      rwa [same, lastWritten_kept hs unwritten]
    | stored mac data characteristic target stores =>
      have now : v.lastWritten i ch = some data := by simp [hl, lastWrittenAfter, target]
      rw [now]
      exact ⟨stores.value, stores.size⟩
    | served ret slot after =>
      rw [after, hl]
      exact before

end SessionBuffers
