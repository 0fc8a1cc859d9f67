import HmkitWorkspace.ReadBuffers
import Mathlib.Data.Finset.Basic

/-! # The controller's view of a run

The world pairs the HAL with what the controller and the core know: the live link-layer
connections, the outgoing attempts, and the payloads the HAL accepted. None of this is
read by the HAL. `Tracks` relates the two views; it holds in every run of a lawful
controller, connection handle zero included. -/
namespace ConnectionHistory

open TransitionRuns FixedSlots ByteBuffers HmkitCoreConnectivityHal ConnectionTableInvariant
  ReadBuffers

/-- The other end of a live connection; recorded when the HAL reported it to the core. -/
@[ext]
structure Peer where
  mac : Mac
  recorded : Bool
  deriving DecidableEq

/-- A live connection with the payloads accepted for its peer since it was established. -/
structure Link extends Peer where
  sent : Channel → List (List UInt8)

structure World where
  hal : State
  live : HciConHandle → Option Link
  attempts : Finset Mac
  lastWritten : Slot → Channel → Option (List UInt8)

def Link.accept (k : Link) (mac : Mac) (ch : Channel) (data : List UInt8) : Link :=
  if k.mac = mac then
    { k with sent := Function.update k.sent ch (k.sent ch ++ [data]) }
  else k

def liveAfter (w : World) (out : List Call) : Event → HciConHandle → Option Link
  | .hci (.leConnectionComplete status handle address) =>
    if status = 0 then
      Function.update w.live handle
        (some ⟨⟨address, decide (Call.linkConnect address ∈ out)⟩, fun _ => []⟩)
    else w.live
  | .hci (.disconnectionComplete handle) => Function.update w.live handle none
  | .writeData mac data characteristic =>
    match writeTarget w.hal mac characteristic with
    | some (_, ch) => fun handle => (w.live handle).map fun k => k.accept mac ch data
    | none => w.live
  | _ => w.live

/-- An attempt starts when `gap_connect` takes it and ends when its completion is reported. -/
def attemptsAfter (w : World) : Event → Finset Mac
  | .connect mac _ gapRet => if gapRet = 0 then insert mac w.attempts else w.attempts
  | .hci (.leConnectionComplete _ _ address) => w.attempts.erase address
  | _ => w.attempts

def lastWrittenAfter (w : World) : Event → Slot → Channel → Option (List UInt8)
  | .writeData mac data characteristic =>
    match writeTarget w.hal mac characteristic with
    | some (i, ch) =>
      Function.update w.lastWritten i (Function.update (w.lastWritten i) ch (some data))
    | none => w.lastWritten
  | _ => w.lastWritten

def World.step (w : World) (e : Event) : Option (World × List Call) :=
  (HmkitCoreConnectivityHal.step w.hal e).map fun r =>
    (⟨r.1, liveAfter w r.2 e, attemptsAfter w e, lastWrittenAfter w e⟩, r.2)

def World.initial : World := ⟨HmkitCoreConnectivityHal.initial, fun _ => none, ∅, fun _ _ => none⟩

/-- All that is assumed of the controller: live connections have distinct handles and
distinct, non-zero addresses, and only live handles are reported on. -/
def Enabled (w : World) : Event → Prop
  | .hci (.leConnectionComplete status handle address) =>
    status = 0 → w.live handle = none ∧ address ≠ 0 ∧
      ∀ other k, w.live other = some k → k.mac ≠ address
  | .hci (.disconnectionComplete handle) => ∃ k, w.live handle = some k
  | .attRead conHandle _ _ _ _ _ => ∃ k, w.live conHandle = some k
  | .attWrite conHandle _ _ => ∃ k, w.live conHandle = some k
  | .mtuExchangeComplete handle _ _ => ∃ k, w.live handle = some k
  | _ => True

/-- The event does not establish a connection with handle zero. -/
def NonZeroHandle : Event → Prop
  | .hci (.leConnectionComplete status handle _) => status = 0 → handle ≠ 0
  | _ => True

instance : DecidablePred NonZeroHandle
  | .hci (.leConnectionComplete status handle _) =>
    inferInstanceAs (Decidable (status = 0 → handle ≠ 0))
  | .hci (.disconnectionComplete _) | .hci .other | .connect _ _ _ | .disconnect _
  | .writeData _ _ _ | .attRead _ _ _ _ _ _ | .attWrite _ _ _ | .canSendNow _
  | .mtuExchangeComplete _ _ _ => isTrue trivial

abbrev History := List (Transition World Event Call)

variable {w v : World} {e : Event} {out : List Call} {tr : History} {handle : HciConHandle}
  {k : Link} {i j : Slot}

theorem step_world (h : w.step e = some (v, out)) :
    HmkitCoreConnectivityHal.step w.hal e = some (v.hal, out) ∧ v.live = liveAfter w out e ∧
      v.attempts = attemptsAfter w e ∧ v.lastWritten = lastWrittenAfter w e := by
  simp only [World.step, Option.map_eq_some_iff, Prod.mk.injEq] at h
  obtain ⟨⟨s, calls⟩, hs, rfl, rfl⟩ := h
  exact ⟨hs, rfl, rfl, rfl⟩

theorem step_hci {p : HciPacket} (h : w.step (.hci p) = some (v, out)) :
    v.hal = (hciPacketHandler w.hal p).1 ∧ out = (hciPacketHandler w.hal p).2 := by
  obtain ⟨hv, hout⟩ := total_step (step_world h).1
  exact ⟨hv.symm, hout.symm⟩

theorem world_table_invariant {G : World → Event → Prop}
    (h : Execution World.step G World.initial tr w) : TableInvariant w.hal.btConnections :=
  h.invariant (fun w => TableInvariant w.hal.btConnections)
    ConnectionTableInvariant.initial_invariant
    fun inv _ hs => (step_table (step_world hs).1).preserves inv

/-- A completed connection lands in the slot found for its address, if there is one. -/
theorem complete_eq {s : State} (inv : TableInvariant s.btConnections) {mac : Mac}
    (hm : mac ≠ 0) (handle : HciConHandle) :
    hciPacketHandler s (.leConnectionComplete 0 handle mac) =
      match slotFor s.btConnections mac with
      | none => (s, [])
      | some i =>
        ({ s with
            btConnections := Function.update s.btConnections i
              { s.btConnections i with mac := mac, isEmpty := true, handle := handle } },
          [.linkConnect mac]) := by
  have created := inv.createBtConnection_eq hm
  cases hs : slotFor s.btConnections mac with
  | none =>
    rw [hs] at created
    have absent : getBtConnectionUsingMac s.btConnections mac = none := by
      cases hl : getBtConnectionUsingMac s.btConnections mac with
      | none => rfl
      | some i => simp [slotFor, hl] at hs
    simp [hciPacketHandler, created, absent]
  | some i =>
    rw [hs] at created
    have found := (inv.assign hs rfl hm rfl
      (c := { s.btConnections i with mac := mac, isEmpty := true })).lookup_mac (i := i) hm
      (by simp)
    simp [hciPacketHandler, created, found]

/-! ## The HAL's table tracks the controller's connections -/

abbrev PeerMap := HciConHandle → Option Peer

def World.peers (w : World) : PeerMap := fun handle => (w.live handle).map Link.toPeer

structure DistinctPeers (p : PeerMap) : Prop where
  nonzero : ∀ handle q, p handle = some q → q.mac ≠ 0
  distinct : ∀ handle handle' q q', p handle = some q → p handle' = some q' →
    q.mac = q'.mac → handle = handle'

/-- The simulation relation between the table and the controller's map of live peers. -/
structure Tracks (t : BtConnections) (p : PeerMap) : Prop extends DistinctPeers p where
  resolved : ∀ i, (t i).handle ≠ 0 → p (t i).handle = some ⟨(t i).mac, true⟩
  recorded : ∀ handle mac, p handle = some ⟨mac, true⟩ →
    ∃ i, (t i).mac = mac ∧ (t i).handle = handle

variable {t t' : BtConnections} {p : PeerMap} {mac : Mac}

theorem DistinctPeers.insert (h : DistinctPeers p) {q : Peer} (hq : q.mac ≠ 0)
    (apart : ∀ hd q', p hd = some q' → q'.mac ≠ q.mac) :
    DistinctPeers (Function.update p handle (some q)) := by
  constructor
  · intro hd r hr
    by_cases hh : hd = handle
    · subst hd
      simp only [Function.update_self, Option.some.injEq] at hr
      exact hr ▸ hq
    · exact h.nonzero hd r (by simpa [hh] using hr)
  · intro hd hd' r r' hr hr' he
    by_cases hh : hd = handle <;> by_cases hh' : hd' = handle
    · rw [hh, hh']
    · subst hd
      simp only [Function.update_self, Option.some.injEq] at hr
      subst r
      exact absurd he.symm (apart hd' r' (by simpa [hh'] using hr'))
    · subst hd'
      simp only [Function.update_self, Option.some.injEq] at hr'
      subst r'
      exact absurd he (apart hd r (by simpa [hh] using hr))
    · exact h.distinct hd hd' r r' (by simpa [hh] using hr) (by simpa [hh'] using hr') he

theorem DistinctPeers.erase (h : DistinctPeers p) (handle : HciConHandle) :
    DistinctPeers (Function.update p handle none) := by
  have old : ∀ hd q, Function.update p handle none hd = some q → p hd = some q := by
    intro hd q hq
    by_cases hh : hd = handle
    · subst hd; simp at hq
    · simpa [hh] using hq
  exact ⟨fun hd q hq => h.nonzero hd q (old hd q hq),
    fun hd hd' q q' hq hq' => h.distinct hd hd' q q' (old hd q hq) (old hd' q' hq')⟩

theorem Tracks.idle (h : Tracks t p) (hi : (t i).mac = 0) : (t i).handle = 0 := by
  by_contra hne
  exact h.nonzero _ _ (h.resolved i hne) hi

theorem Tracks.congr (h : Tracks t p) (handle : ∀ i, (t' i).handle = (t i).handle)
    (mac : ∀ i, (t' i).mac = (t i).mac) : Tracks t' p := by
  refine ⟨h.toDistinctPeers, ?_, ?_⟩
  · intro i hi
    rw [handle, mac]
    exact h.resolved i (by rwa [handle] at hi)
  · intro hd m hp
    obtain ⟨i, hm, hh⟩ := h.recorded hd m hp
    exact ⟨i, (mac i).trans hm, (handle i).trans hh⟩

theorem Tracks.create (h : Tracks t p) (inv : TableInvariant t) (mac : Mac) :
    Tracks (createBtConnection t mac) p := by
  by_cases hm : mac = 0
  · subst mac
    rwa [inv.createBtConnection_zero]
  · rw [inv.createBtConnection_eq hm]
    cases hs : slotFor t mac with
    | none => exact h
    | some i =>
      have kept : (t i).mac ≠ 0 → mac = (t i).mac := by
        intro hi
        rcases slotFor_cases hs with he | ⟨_, free⟩
        · exact he.symm
        · exact absurd (inv.free_iff.mp free) hi
      refine ⟨h.toDistinctPeers, ?_, ?_⟩
      · intro j hj
        by_cases hji : j = i
        · subst j
          simp only [Function.update_self] at hj ⊢
          have hi : (t i).mac ≠ 0 := fun hz => hj (h.idle hz)
          rw [kept hi]
          exact h.resolved i hj
        · simp only [Function.update_of_ne hji] at hj ⊢
          exact h.resolved j hj
      · intro hd m hp
        obtain ⟨j, hjm, hjh⟩ := h.recorded hd m hp
        refine ⟨j, ?_, ?_⟩ <;> by_cases hji : j = i
        · subst j
          have hi : (t i).mac ≠ 0 := hjm ▸ h.nonzero _ _ hp
          simpa [kept hi] using hjm
        · simpa [hji] using hjm
        · subst j; simpa using hjh
        · simpa [hji] using hjh

/-- A new connection is added to both sides; the slot it takes was idle. -/
theorem Tracks.complete (h : Tracks t p) (inv : TableInvariant t) (hm : mac ≠ 0)
    (fresh : p handle = none) (apart : ∀ hd q, p hd = some q → q.mac ≠ mac)
    (hs : slotFor t mac = some i) :
    Tracks (Function.update t i { t i with mac := mac, isEmpty := true, handle := handle })
      (Function.update p handle (some ⟨mac, true⟩)) := by
  have idle : (t i).handle = 0 := by
    by_contra hne
    have hp := h.resolved i hne
    rcases slotFor_cases hs with he | ⟨_, free⟩
    · exact apart _ _ hp he
    · exact hne (h.idle (inv.free_iff.mp free))
  refine ⟨h.insert hm apart, ?_, ?_⟩
  · intro j hj
    by_cases hji : j = i
    · subst j; simp
    · simp only [Function.update_of_ne hji] at hj ⊢
      have hp := h.resolved j hj
      have hne : (t j).handle ≠ handle := by
        intro he
        rw [he, fresh] at hp
        cases hp
      simpa [hne] using hp
  · intro hd m hp
    by_cases hh : hd = handle
    · subst hd
      simp only [Function.update_self, Option.some.injEq, Peer.mk.injEq, and_true] at hp
      exact ⟨i, by simpa using hp, by simp⟩
    · rw [Function.update_of_ne hh] at hp
      obtain ⟨j, hjm, hjh⟩ := h.recorded hd m hp
      have hji : j ≠ i := by
        rintro rfl
        rcases slotFor_cases hs with he | ⟨_, free⟩
        · exact apart _ _ hp (hjm.symm.trans he)
        · exact h.nonzero _ _ hp (hjm.symm.trans (inv.free_iff.mp free))
      exact ⟨j, by simpa [hji] using hjm, by simpa [hji] using hjh⟩

theorem Tracks.unrecorded (h : Tracks t p) (hm : mac ≠ 0) (fresh : p handle = none)
    (apart : ∀ hd q, p hd = some q → q.mac ≠ mac) :
    Tracks t (Function.update p handle (some ⟨mac, false⟩)) := by
  refine ⟨h.insert hm apart, ?_, ?_⟩
  · intro j hj
    have hp := h.resolved j hj
    have hne : (t j).handle ≠ handle := by
      intro he
      rw [he, fresh] at hp
      cases hp
    simpa [hne] using hp
  · intro hd m hp
    by_cases hh : hd = handle
    · subst hd; simp at hp
    · exact h.recorded hd m (by simpa [hh] using hp)

theorem Tracks.release (h : Tracks t p) (inv : TableInvariant t)
    (found : getBtConnectionUsingHandle t handle = some i) :
    Tracks (deleteBtConnection t (.slot i)) (Function.update p handle none) := by
  have hi := handle_of_lookup found
  refine ⟨h.erase handle, ?_, ?_⟩
  · intro j hj
    rcases delete_cases t i j with he | he
    · rw [he] at hj ⊢
      have hp := h.resolved j hj
      have hne : (t j).handle ≠ handle := by
        intro hh
        -- Two slots with one non-zero handle are slots of one peer, hence slot `i`.
        have hz : (t i).handle ≠ 0 := by rw [hi, ← hh]; exact hj
        have hpi := h.resolved i hz
        have hmac : (t i).mac = (t j).mac := by
          rw [hi, ← hh, hp] at hpi
          simpa using hpi.symm
        have hij := inv.distinct i j hmac (h.nonzero _ _ hpi)
        subst hij
        rw [delete_self] at he
        exact hj (by rw [← he]; rfl)
      simpa [hne] using hp
    · simp [he, clearConnectionData] at hj
  · intro hd m hp
    by_cases hh : hd = handle
    · subst hd; simp at hp
    · rw [Function.update_of_ne hh] at hp
      obtain ⟨j, hjm, hjh⟩ := h.recorded hd m hp
      have hji : j ≠ i := by
        rintro rfl
        exact hh (hjh.symm.trans hi)
      have occupied := (inv.occupied_iff j).mpr (hjm ▸ h.nonzero _ _ hp)
      rw [← inv.delete_other occupied hji] at hjm hjh
      exact ⟨j, hjm, hjh⟩

theorem Tracks.forget (h : Tracks t p) (absent : getBtConnectionUsingHandle t handle = none) :
    Tracks t (Function.update p handle none) := by
  refine ⟨h.erase handle, ?_, ?_⟩
  · intro j hj
    simpa [lookup_handle_none_iff.mp absent j] using h.resolved j hj
  · intro hd m hp
    by_cases hh : hd = handle
    · subst hd; simp at hp
    · exact h.recorded hd m (by simpa [hh] using hp)

/-! ## Runs -/

def peersAfter (p : PeerMap) (out : List Call) : Event → PeerMap
  | .hci (.leConnectionComplete status handle address) =>
    if status = 0 then
      Function.update p handle (some ⟨address, decide (Call.linkConnect address ∈ out)⟩)
    else p
  | .hci (.disconnectionComplete handle) => Function.update p handle none
  | _ => p

theorem Link.toPeer_accept (k : Link) (mac : Mac) (ch : Channel) (data : List UInt8) :
    (k.accept mac ch data).toPeer = k.toPeer := by
  unfold Link.accept
  split <;> rfl

theorem Link.sent_accept (k : Link) (mac : Mac) (ch c : Channel) (data : List UInt8) :
    (k.accept mac ch data).sent c =
      if k.mac = mac ∧ c = ch then k.sent c ++ [data] else k.sent c := by
  unfold Link.accept
  by_cases hm : k.mac = mac
  · by_cases hc : c = ch
    · subst c; simp [hm]
    · simp [hm, hc]
  · simp [hm]

theorem step_peers (h : w.step e = some (v, out)) : v.peers = peersAfter w.peers out e := by
  obtain ⟨_, hl, _, _⟩ := step_world h
  funext hd
  simp only [World.peers, hl]
  cases e with
  | hci p =>
    cases p with
    | leConnectionComplete status handle address =>
      by_cases hst : status = 0
      · by_cases hh : hd = handle
        · subst hd; simp [liveAfter, peersAfter, hst]
        · simp [liveAfter, peersAfter, hst, hh, World.peers]
      · simp [liveAfter, peersAfter, hst, World.peers]
    | disconnectionComplete handle =>
      by_cases hh : hd = handle
      · subst hd; simp [liveAfter, peersAfter]
      · simp [liveAfter, peersAfter, hh, World.peers]
    | other => rfl
  | writeData mac data characteristic =>
    simp only [liveAfter, peersAfter, World.peers]
    cases writeTarget w.hal mac characteristic with
    | none => rfl
    | some target =>
      obtain ⟨_, ch⟩ := target
      simp only [Option.map_map]
      congr 1
      funext k
      exact k.toPeer_accept mac ch data
  | _ => rfl

/-- A live connection is kept by every event but its own end. -/
theorem peer_stays {q : Peer} (hs : w.step e = some (v, out)) (hq : w.peers handle = some q)
    (fresh : ∀ address, e ≠ .hci (.leConnectionComplete 0 handle address))
    (connected : e ≠ .hci (.disconnectionComplete handle)) : v.peers handle = some q := by
  rw [step_peers hs]
  cases e with
  | hci p =>
    cases p with
    | leConnectionComplete status hd address =>
      by_cases hst : status = 0
      · have hne : handle ≠ hd := by
          rintro rfl
          exact fresh address (by rw [hst])
        simpa [peersAfter, hst, hne] using hq
      · simpa [peersAfter, hst] using hq
    | disconnectionComplete hd =>
      have hne : handle ≠ hd := by
        rintro rfl
        exact connected rfl
      simpa [peersAfter, hne] using hq
    | other => exact hq
  | _ => exact hq

/-- A live connection was live before the event, or the event established it. -/
theorem peer_origin {q : Peer} (hs : w.step e = some (v, out)) (hq : v.peers handle = some q) :
    w.peers handle = some q ∨ e = .hci (.leConnectionComplete 0 handle q.mac) := by
  rw [step_peers hs] at hq
  cases e with
  | hci p =>
    cases p with
    | leConnectionComplete status hd address =>
      by_cases hst : status = 0
      · by_cases hh : handle = hd
        · subst hd
          obtain rfl : ⟨address, decide (Call.linkConnect address ∈ out)⟩ = q := by
            simpa [peersAfter, hst] using hq
          exact Or.inr (by rw [hst])
        · exact Or.inl (by simpa [peersAfter, hst, hh] using hq)
      · exact Or.inl (by simpa [peersAfter, hst] using hq)
    | disconnectionComplete hd =>
      by_cases hh : handle = hd
      · simp [peersAfter, hh] at hq
      · exact Or.inl (by simpa [peersAfter, hh] using hq)
    | other => exact Or.inl hq
  | _ => exact Or.inl hq

theorem step_tracks (inv : TableInvariant w.hal.btConnections)
    (h : Tracks w.hal.btConnections w.peers) (he : Enabled w e) (hs : w.step e = some (v, out)) :
    Tracks v.hal.btConnections v.peers := by
  rw [step_peers hs]
  have table := step_table (step_world hs).1
  cases e with
  | hci p =>
    obtain ⟨hv, hout⟩ := step_hci hs
    cases p with
    | leConnectionComplete status handle address =>
      by_cases hst : status = 0
      · subst status
        obtain ⟨fresh, hm, apart⟩ := he rfl
        have fresh : w.peers handle = none := by simp [World.peers, fresh]
        have apart : ∀ hd q, w.peers hd = some q → q.mac ≠ address := by
          intro hd q hq
          obtain ⟨k, hk, rfl⟩ := Option.map_eq_some_iff.mp hq
          exact apart hd k hk
        rw [complete_eq inv hm] at hv hout
        cases hsl : slotFor w.hal.btConnections address with
        | none =>
          rw [hsl] at hv hout
          simpa [peersAfter, hv, hout] using h.unrecorded hm fresh apart
        | some i =>
          rw [hsl] at hv hout
          simpa [peersAfter, hv, hout] using h.complete inv hm fresh apart hsl
      · simpa [peersAfter, hv, hciPacketHandler, hst] using h
    | disconnectionComplete handle =>
      cases hl : getBtConnectionUsingHandle w.hal.btConnections handle with
      | none => simpa [peersAfter, hv, hciPacketHandler, hl] using h.forget hl
      | some i => simpa [peersAfter, hv, hciPacketHandler, hl] using h.release inv hl
    | other => rw [hv]; exact h
  | connect mac macType ret =>
    obtain ⟨hu, _⟩ := total_step (step_world hs).1
    rw [← hu]
    exact h.create inv mac
  | _ =>
    cases table with
    | keep _ _ same => exact h.congr (fun i => (same i).handle) fun i => (same i).mac

theorem initial_tracks :
    Tracks World.initial.hal.btConnections World.initial.peers := by
  refine ⟨⟨?_, ?_⟩, ?_, ?_⟩
  · intro _ _ hp; simp [World.peers, World.initial] at hp
  · intro _ _ _ _ hp; simp [World.peers, World.initial] at hp
  · intro i hi
    simp [World.initial, HmkitCoreConnectivityHal.initial, init_btConnections,
      clearConnectionData] at hi
  · intro _ _ hp; simp [World.peers, World.initial] at hp

theorem world_tracks (h : Execution World.step Enabled World.initial tr w) :
    Tracks w.hal.btConnections w.peers := by
  have both := h.invariant
    (fun w => TableInvariant w.hal.btConnections ∧ Tracks w.hal.btConnections w.peers)
    ⟨ConnectionTableInvariant.initial_invariant, initial_tracks⟩ ?_
  · exact both.2
  · intro w e out v before he hs
    rcases before with ⟨inv, ht⟩
    exact ⟨(step_table (step_world hs).1).preserves inv, step_tracks inv ht he hs⟩

/-! ## Deciding lawfulness -/

/-- Runs over a list of events with the live handles and addresses at hand, and checks that
a lawful controller may report them. -/
def lawful (live : List (HciConHandle × Mac)) : List Event → Bool
  | [] => true
  | .hci (.leConnectionComplete status handle address) :: es =>
    if status = 0 then
      address != 0 && live.all (fun c => c.1 != handle && c.2 != address) &&
        lawful ((handle, address) :: live) es
    else lawful live es
  | .hci (.disconnectionComplete handle) :: es =>
    live.any (fun c => c.1 == handle) && lawful (live.filter fun c => c.1 != handle) es
  | .attRead handle _ _ _ _ _ :: es | .attWrite handle _ _ :: es
  | .mtuExchangeComplete handle _ _ :: es =>
    live.any (fun c => c.1 == handle) && lawful live es
  | .hci .other :: es | .connect _ _ _ :: es | .disconnect _ :: es | .writeData _ _ _ :: es
  | .canSendNow _ :: es => lawful live es

def Lists (live : List (HciConHandle × Mac)) (p : PeerMap) : Prop :=
  ∀ handle mac, (handle, mac) ∈ live ↔ ∃ recorded, p handle = some ⟨mac, recorded⟩

variable {live : List (HciConHandle × Mac)}

theorem Lists.live_of_any (h : Lists live w.peers)
    (ha : live.any (fun c => c.1 == handle) = true) : ∃ k, w.live handle = some k := by
  obtain ⟨⟨hd, mac⟩, hmem, he⟩ := List.any_eq_true.mp ha
  obtain rfl : hd = handle := by simpa using he
  obtain ⟨recorded, hp⟩ := (h hd mac).mp hmem
  obtain ⟨k, hk, _⟩ := Option.map_eq_some_iff.mp hp
  exact ⟨k, hk⟩

theorem Lists.step {e : Event} {es : List Event} (h : Lists live w.peers)
    (hl : lawful live (e :: es) = true)
    (hs : w.step e = some (v, out)) :
    Enabled w e ∧ ∃ live', Lists live' v.peers ∧ lawful live' es = true := by
  rw [step_peers hs]
  cases e with
  | hci p =>
    cases p with
    | leConnectionComplete status handle address =>
      by_cases hst : status = 0
      · simp only [lawful, hst, if_true, Bool.and_eq_true, bne_iff_ne, List.all_eq_true] at hl
        obtain ⟨⟨hm, fresh⟩, rest⟩ := hl
        refine ⟨fun _ => ⟨?_, hm, ?_⟩, (handle, address) :: live, ?_, rest⟩
        · cases hk : w.live handle with
          | none => rfl
          | some k =>
            have hmem := (h handle k.mac).mpr ⟨k.recorded, by simp [World.peers, hk]⟩
            exact absurd rfl (fresh _ hmem).1
        · intro other k hk
          exact (fresh _ ((h other k.mac).mpr ⟨k.recorded, by simp [World.peers, hk]⟩)).2
        · intro hd mac
          by_cases hh : hd = handle
          · subst hd
            have absent : (handle, mac) ∉ live := fun hmem => (fresh _ hmem).1 rfl
            simp [peersAfter, hst, absent, eq_comm]
          · simp [peersAfter, hst, hh, h hd mac]
      · exact ⟨fun hz => absurd hz hst, live, by simpa [peersAfter, hst] using h,
          by simpa [lawful, hst] using hl⟩
    | disconnectionComplete handle =>
      simp only [lawful, Bool.and_eq_true] at hl
      refine ⟨h.live_of_any hl.1, live.filter fun c => c.1 != handle, ?_, hl.2⟩
      intro hd mac
      by_cases hh : hd = handle
      · simp [peersAfter, hh]
      · simp [peersAfter, hh, h hd mac]
    | other => exact ⟨trivial, live, h, hl⟩
  | attRead handle _ _ _ _ _ | attWrite handle _ _ | mtuExchangeComplete handle _ _ =>
    simp only [lawful, Bool.and_eq_true] at hl
    exact ⟨h.live_of_any hl.1, live, h, hl.2⟩
  | connect | disconnect | writeData | canSendNow => exact ⟨trivial, live, h, hl⟩

/-- The run on a list of events that passes the check is a run of a lawful controller. -/
theorem execution_of_lawful (es : List Event) (hl : lawful [] es = true)
    (hr : run World.step World.initial es = some (tr, w)) :
    Execution World.step Enabled World.initial tr w := by
  apply execution_of_run es hr
  have start : Lists [] World.initial.peers := by
    intro handle mac
    simp [World.peers, World.initial]
  generalize World.initial = w₀ at hr start
  generalize [] = live at hl start
  induction es generalizing w₀ tr live with
  | nil => simp [run] at hr; simp [hr.1]
  | cons e es ih =>
    cases hs : w₀.step e with
    | none => simp [run, hs] at hr
    | some r =>
      obtain ⟨v, out⟩ := r
      simp only [run, hs, Option.map_eq_some_iff, Prod.mk.injEq] at hr
      obtain ⟨⟨tl, _⟩, hr, rfl, rfl⟩ := hr
      obtain ⟨he, live', hlive, hl⟩ := start.step hl hs
      intro t ht
      rcases List.mem_cons.mp ht with rfl | ht
      · exact he
      · exact ih v hr live' hl hlive t ht

end ConnectionHistory
