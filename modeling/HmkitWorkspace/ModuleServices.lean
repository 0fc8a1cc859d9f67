import HmkitWorkspace.PycFootprints
import HmkitWorkspace.AccessCertificateStore

/-! # The services of the module and the calls that matter to them

Whole runs of `hm_pyc`, with the calls of both threads in any order: which calls can be left
out, which can be exchanged, and which service a call belongs to. -/
namespace ModuleServices

open TransitionRuns Footprints HmkitCorePersistenceHal PycBindings PycExtension
  BleAdvertisement HmPyc PycFootprints

variable {σ Obj : Type} {p : HmkitCoreCryptoHal.Platform σ} {s s' u v : HmPyc.State σ Obj}
  {e : HmPyc.Event Obj} {es es' : List (HmPyc.Event Obj)}
  {tr tr' : List (Transition (HmPyc.State σ Obj) (HmPyc.Event Obj) (HmPyc.Answer Obj))}

/-! ## Calls that leave no trace -/

/-- Refused calls, and all calls but those that set credentials, store certificates, register
callbacks, set the name, or report that a device came or left. A reference that a refused
registration leaks is no trace, as nothing looks at the counts. -/
def silent : HmPyc.Event Obj → Bool
  | .python method =>
    !accepted method ||
      match method with
      | .setCerts .. => false
      | .registerCb _ => false
      | .storeCertificate _ => false
      | .setBleDeviceName _ => false
      | _ => true
  | .report report =>
    match report.val with
    | .enteredProximity .. => false
    | .exitedProximity .. => false
    | _ => true
  | .hal call =>
    match call with
    | .addAccessCertificate .. => false
    | _ => true

theorem silent_writes (h : silent e = true) : (footprint e).writes = ∅ := by
  cases e with
  | python method =>
    cases usable : accepted method with
    | false => simp [footprint, usable]
    | true => cases method <;> simp_all [silent, footprint, methodFootprint]
  | report report =>
    obtain ⟨e, reported⟩ := report
    cases e <;> simp_all [silent, footprint, reportFootprint]
  | hal call => cases call <;> simp_all [silent, footprint, halFootprint]

/-- A method fails exactly when its arguments are refused. Failed calls, and all others that
are silent, may be left out: the calls that are kept answer the same. -/
theorem silent_calls_erasable {keep : HmPyc.Event Obj → Bool}
    (dropped : ∀ e, keep e = false → silent e = true)
    (h : run (HmPyc.step p) s es = some (tr, u)) :
    (∀ method, accepted method = false → silent (.python method : HmPyc.Event Obj) = true) ∧
    (∀ s u method out, HmPyc.step p s (.python method : HmPyc.Event Obj) = some (u, out) →
      ((∃ r, .result r ∈ out ∧ Failure r) ↔ accepted method = false)) ∧
    ∃ tr' u', run (HmPyc.step p) s (es.filter keep) = some (tr', u') ∧ Alike components u u' ∧
      tr'.map seen = (tr.filter fun t => keep t.event).map seen := by
  refine ⟨?_, ?_, ?_⟩
  · intro method refused
    simp [silent, refused]
  · intro s u method out hs
    constructor
    · intro failed
      obtain ⟨r, hr, failure⟩ := failed
      by_contra usable
      exact accepted_result (by simpa using usable) hs hr failure
    · intro refused
      rw [refused_step refused] at hs
      obtain ⟨_, rfl⟩ := total_step (r := (s, refusal method)) hs
      exact refusal_fails method
  · apply run_slice (fun e _ => (hasFootprint e).localOn_univ) _ (fun _ _ => rfl) h
    intro e he
    apply (hasFootprint e).invisibleOn
    rw [silent_writes (dropped e he)]
    exact Set.empty_disjoint _

def storing : HmPyc.Event ℕ :=
  .python (.storeCertificate [.bytes [7, 8], .bytes AccessCertificateStore.someSerial.bytes])

def reading : HmPyc.Event ℕ :=
  .python (.getCertificate [.bytes AccessCertificateStore.someSerial.bytes] 0 0)

/-- An empty message is tried between storing a certificate and reading it back. -/
theorem silent_calls_erasable_empty_message :
    ∃ tr u, run (HmPyc.step KeyLookup.samplePlatform) (HmPyc.initial fun _ => none)
        [storing, .python (.sendcommand [.bytes []]), reading] = some (tr, u) ∧
      ∃ tr' u', run (HmPyc.step KeyLookup.samplePlatform) (HmPyc.initial fun _ => none)
        [storing, reading] = some (tr', u') ∧
      tr'.map seen =
        [(storing, [.result (.long 0)]), (reading, [.result (.bytesTuple [7, 8])])] := by
  have h : run (HmPyc.step KeyLookup.samplePlatform) (HmPyc.initial fun _ => none)
    [storing, .python (.sendcommand [.bytes []]), reading] = some (_, _) := rfl
  let keep : HmPyc.Event ℕ → Bool := fun e => match e with
    | .python (.sendcommand _) => false
    | _ => true
  have dropped : ∀ e, keep e = false → silent e = true := by
    intro e he
    cases e with
    | python method => cases method <;> simp_all [keep, silent]
    | report | hal => cases he
  obtain ⟨tr', u', h', _, same⟩ := (silent_calls_erasable dropped h).2.2
  exact ⟨_, _, h, tr', u', h', same⟩

/-! ## Interleavings -/

/-- Neither call writes what the other one reads or writes. -/
def IndependentCalls (a b : HmPyc.Event Obj) : Prop := Independent (footprint a) (footprint b)

theorem independentCalls_symm (a b : HmPyc.Event Obj) (h : IndependentCalls a b) :
    IndependentCalls b a := h.symm

open Classical in
/-- However the calls of the two threads are interleaved, as long as dependent ones come in the
same order, each call is answered the same, and nothing that can be asked afterwards differs. -/
theorem interleaved_calls (perm : es.Perm es')
    (order : ∀ a b, ¬ IndependentCalls a b → projection a b es = projection a b es')
    (h : run (HmPyc.step p) s es = some (tr, u)) :
    ∃ tr' u', run (HmPyc.step p) s es' = some (tr', u') ∧
      (tr.map seen).Perm (tr'.map seen) ∧ ∀ next,
        (run (HmPyc.step p) u next).map (fun r => r.1.map seen) =
          (run (HmPyc.step p) u' next).map fun r => r.1.map seen := by
  have reordered := reordered_of_projections independentCalls_symm perm order
  obtain ⟨tr', u', h', alike, same⟩ := run_reordered hasFootprint reordered h
  exact ⟨tr', u', h', same, run_alike_eq hasFootprint alike⟩

theorem interleaved_calls_two_threads :
    ∃ tr u tr' u', run (HmPyc.step KeyLookup.samplePlatform) (HmPyc.initial fun _ => none)
        [storing, .python .bleAdvertisementStart, .hal .getCaPublicKey] = some (tr, u) ∧
      run (HmPyc.step KeyLookup.samplePlatform) (HmPyc.initial fun _ => none)
        [storing, .hal .getCaPublicKey, .python .bleAdvertisementStart] = some (tr', u') ∧
      (tr.map seen).Perm (tr'.map seen) := by
  classical
  have independent : IndependentCalls (.python .bleAdvertisementStart : HmPyc.Event ℕ)
      (.hal .getCaPublicKey) := by
    constructor <;> simp [footprint, accepted, methodFootprint, halFootprint]
  have exchanged := Reordered.swap [storing] [] _ _ independent
  obtain ⟨perm, order⟩ := exchanged.projections independentCalls_symm
  have h : run (HmPyc.step KeyLookup.samplePlatform) (HmPyc.initial fun _ => none)
    [storing, .python .bleAdvertisementStart, .hal .getCaPublicKey] = some (_, _) := rfl
  obtain ⟨tr', u', h', same, _⟩ := interleaved_calls perm order h
  exact ⟨_, _, tr', u', h, h', same⟩

/-! ## Three services -/

inductive Service where
  | keyring
  | callbacks
  | advertising

/-- What a service looks at. The certificate is shared. -/
def part : Service → Set Component
  | .keyring => {.database, .certificate, .privateKey, .issuerPub}
  | .callbacks => {x | x = .connection ∨ ∃ keyword, x = .slot keyword}
  | .advertising => {.certificate, .frame}

def belongs : Service → HmPyc.Event Obj → Bool
  | .keyring, .python method =>
    match method with
    | .setCerts .. => true
    | .generateSignature .. => true
    | .storeCertificate _ => true
    | .getCertificate .. => true
    | .deleteCertificate .. => true
    | _ => false
  | .keyring, .hal _ => true
  | .callbacks, .python method =>
    match method with
    | .sendcommand _ => true
    | .registerCb _ => true
    | _ => false
  | .callbacks, .report _ => true
  | .advertising, .python method =>
    match method with
    | .setCerts .. => true
    | .bleAdvertisementStart => true
    | .bleAdvertisementStop => true
    | .setBleDeviceName _ => true
    | _ => false
  | _, _ => false

theorem belongs_reads (service : Service) (h : belongs service e = true) :
    (footprint e).reads ⊆ part service := by
  cases service <;> cases e with
  | python method =>
    cases usable : accepted method with
    | false => simp [footprint, usable]
    | true =>
      cases method <;> simp_all [belongs, footprint, methodFootprint, part, Set.subset_def]
  | report report =>
    simp_all [belongs, footprint, reportFootprint, part, Set.subset_def]
  | hal call =>
    cases call <;> simp_all [belongs, footprint, halFootprint, part, Set.subset_def]

theorem foreign_writes (service : Service) (h : belongs service e = false) :
    Disjoint (footprint e).writes (part service) := by
  rw [Set.disjoint_left]
  cases service <;> cases e with
  | python method =>
    cases usable : accepted method with
    | false => simp [footprint, usable]
    | true =>
      cases method <;> simp_all [belongs, footprint, methodFootprint, part]
  | report report =>
    obtain ⟨e, reported⟩ := report
    cases e <;> simp_all [belongs, footprint, reportFootprint, part]
  | hal call =>
    cases call <;> simp_all [belongs, footprint, halFootprint, part]

/-- Each service answers by its own calls: those of the two others, in any number and at any
time, make no difference. -/
theorem service_noninterference (service : Service)
    (agree : Agree components (part service) s s')
    (same : es.filter (belongs service) = es'.filter (belongs service))
    (h : run (HmPyc.step p) s es = some (tr, u)) (h' : run (HmPyc.step p) s' es' = some (tr', v)) :
    Agree components (part service) u v ∧
      (tr.filter fun t => belongs service t.event).map seen =
        (tr'.filter fun t => belongs service t.event).map seen :=
  run_noninterference (fun e he => (hasFootprint e).localOn (belongs_reads service he))
    (fun e he => (hasFootprint e).invisibleOn (foreign_writes service he)) agree same h h'

/-- Callbacks come and go on the other thread while a certificate is stored and read. -/
theorem service_noninterference_registration :
    ∃ tr u tr' v, run (HmPyc.step KeyLookup.samplePlatform) (HmPyc.initial fun _ => none)
        [storing, .python (.registerCb (some ⟨"py_cb_command_incoming", 3, true⟩)), reading] =
          some (tr, u) ∧
      run (HmPyc.step KeyLookup.samplePlatform) (HmPyc.initial fun _ => none)
        [storing, reading] = some (tr', v) ∧
      (tr.filter fun t => belongs .keyring t.event).map seen =
        (tr'.filter fun t => belongs .keyring t.event).map seen := by
  have h : run (HmPyc.step KeyLookup.samplePlatform) (HmPyc.initial fun _ => none)
    [storing, .python (.registerCb (some ⟨"py_cb_command_incoming", 3, true⟩)), reading] =
      some (_, _) := rfl
  have h' : run (HmPyc.step KeyLookup.samplePlatform) (HmPyc.initial fun _ => none)
    [storing, reading] = some (_, _) := rfl
  have same := service_noninterference .keyring (fun _ _ => rfl) (by rfl) h h'
  exact ⟨_, _, _, _, h, h', same.2⟩

end ModuleServices
