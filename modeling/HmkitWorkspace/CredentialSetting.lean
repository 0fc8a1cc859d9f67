import HmkitWorkspace.PycExtension

/-! # Setting the three credentials

The wrapper checks that no argument is empty before it installs any of them. No length is
compared with the size of the array that is filled. -/
namespace CredentialSetting

open ByteBuffers HmSdkConfig PycBindings PycExtension

variable {c : Config} {devCert prv issrPub : List UInt8}

/-- The call fails with nothing changed, or the three arguments are stored byte for byte. -/
def Faithful (c : Config) (devCert prv issrPub : List UInt8) (r : Config × PyResult) : Prop :=
  r = (c, .long (-1)) ∨
    r.2 = .long 0 ∧ r.1.mLinkDeviceCertificate.bytes = devCert ∧
      r.1.hmCar.privateKey.bytes = prv ∧ r.1.mDeviceCertIssuerPub.bytes = issrPub

structure AllOrNothing (c : Config) (devCert prv issrPub : List UInt8) : Prop where
  outcome : ∀ behind, Faithful c devCert prv issrPub
    (hmPycSetCerts c [.bytes devCert, .bytes prv, .bytes issrPub] behind)
  succeeds : ∀ behind,
    (hmPycSetCerts c [.bytes devCert, .bytes prv, .bytes issrPub] behind).2 = .long 0 ↔
      devCert.length = 153 ∧ prv.length = 32 ∧ issrPub.length = 64
  /-- What lies behind the arguments is not read. -/
  inside : ∀ behind behind',
    hmPycSetCerts c [.bytes devCert, .bytes prv, .bytes issrPub] behind =
      hmPycSetCerts c [.bytes devCert, .bytes prv, .bytes issrPub] behind'

theorem succeeds_iff (behind : Behind) :
    (hmPycSetCerts c [.bytes devCert, .bytes prv, .bytes issrPub] behind).2 = .long 0 ↔
      devCert ≠ [] ∧ prv ≠ [] ∧ issrPub ≠ [] := by
  constructor
  · intro ok
    by_contra some_empty
    have empty : devCert = [] ∨ prv = [] ∨ issrPub = [] := by tauto
    rw [setCerts_rejected behind empty] at ok
    cases ok
  · intro h
    rcases h with ⟨h, h', h''⟩
    rw [setCerts_accepted behind h h' h'']

/-- A call that is not refused is faithful exactly when the three sizes are right. -/
theorem faithful_iff (h : devCert ≠ []) (h' : prv ≠ []) (h'' : issrPub ≠ []) (behind : Behind) :
    Faithful c devCert prv issrPub
        (hmPycSetCerts c [.bytes devCert, .bytes prv, .bytes issrPub] behind) ↔
      devCert.length = 153 ∧ prv.length = 32 ∧ issrPub.length = 64 := by
  rw [setCerts_accepted behind h h' h'', Faithful, Buffer.ofMemory_eq_iff,
    Buffer.ofMemory_eq_iff, Buffer.ofMemory_eq_iff]
  simp

theorem allOrNothing_of_empty (empty : devCert = [] ∨ prv = [] ∨ issrPub = []) :
    AllOrNothing c devCert prv issrPub := by
  refine ⟨fun behind => Or.inl (setCerts_rejected behind empty), ?_, ?_⟩
  · intro behind
    rw [succeeds_iff]
    constructor
    · intro nonempty
      tauto
    · intro lengths
      rcases lengths with ⟨h, h', h''⟩
      exact ⟨List.ne_nil_of_length_pos (by omega), List.ne_nil_of_length_pos (by omega),
        List.ne_nil_of_length_pos (by omega)⟩
  · intro behind behind'
    rw [setCerts_rejected behind empty, setCerts_rejected behind' empty]

theorem allOrNothing_of_lengths
    (lengths : devCert.length = 153 ∧ prv.length = 32 ∧ issrPub.length = 64) :
    AllOrNothing c devCert prv issrPub := by
  rcases lengths with ⟨cert, key, pub⟩
  have h : devCert ≠ [] := List.ne_nil_of_length_pos (by omega)
  have h' : prv ≠ [] := List.ne_nil_of_length_pos (by omega)
  have h'' : issrPub ≠ [] := List.ne_nil_of_length_pos (by omega)
  refine ⟨fun behind => (faithful_iff h h' h'' behind).mpr ⟨cert, key, pub⟩, ?_, ?_⟩
  · intro behind
    rw [succeeds_iff]
    exact iff_of_true ⟨h, h', h''⟩ ⟨cert, key, pub⟩
  · intro behind behind'
    rw [setCerts_accepted behind h h' h'', setCerts_accepted behind' h h' h'',
      Buffer.ofMemory_eq cert behind.devCert behind'.devCert,
      Buffer.ofMemory_eq key behind.prv behind'.prv,
      Buffer.ofMemory_eq pub behind.issrPub behind'.issrPub]

theorem allOrNothing_iff :
    AllOrNothing c devCert prv issrPub ↔
      (devCert = [] ∨ prv = [] ∨ issrPub = []) ∨
        devCert.length = 153 ∧ prv.length = 32 ∧ issrPub.length = 64 := by
  constructor
  · intro all
    by_cases empty : devCert = [] ∨ prv = [] ∨ issrPub = []
    · exact Or.inl empty
    · have nonempty : devCert ≠ [] ∧ prv ≠ [] ∧ issrPub ≠ [] := by tauto
      rcases nonempty with ⟨h, h', h''⟩
      exact Or.inr ((faithful_iff h h' h'' ⟨0, 0, 0⟩).mp (all.outcome ⟨0, 0, 0⟩))
  · intro h
    rcases h with empty | lengths
    · exact allOrNothing_of_empty empty
    · exact allOrNothing_of_lengths lengths

/-- Credentials are set all or none, and as given, exactly when an argument is empty or all
three have their sizes. The call succeeds whenever none is empty. -/
theorem set_certs_all_or_nothing (c : Config) (devCert prv issrPub : List UInt8) :
    (AllOrNothing c devCert prv issrPub ↔
      (devCert = [] ∨ prv = [] ∨ issrPub = []) ∨
        devCert.length = 153 ∧ prv.length = 32 ∧ issrPub.length = 64) ∧
    ∀ behind,
      (hmPycSetCerts c [.bytes devCert, .bytes prv, .bytes issrPub] behind).2 = .long 0 ↔
        devCert ≠ [] ∧ prv ≠ [] ∧ issrPub ≠ [] :=
  ⟨allOrNothing_iff, succeeds_iff⟩

/-- A private key of 33 bytes is accepted and cut. -/
theorem long_key_accepted :
    (∀ behind, (hmPycSetCerts ⟨0, ⟨0, 0, 0⟩, 0⟩ [.bytes (List.replicate 153 1),
      .bytes (List.replicate 33 2), .bytes (List.replicate 64 3)] behind).2 = .long 0) ∧
    ¬ AllOrNothing ⟨0, ⟨0, 0, 0⟩, 0⟩ (List.replicate 153 1) (List.replicate 33 2)
      (List.replicate 64 3) := by
  have cert : List.replicate 153 (1 : UInt8) ≠ [] := List.cons_ne_nil _ _
  have key : List.replicate 33 (2 : UInt8) ≠ [] := List.cons_ne_nil _ _
  have pub : List.replicate 64 (3 : UInt8) ≠ [] := List.cons_ne_nil _ _
  refine ⟨fun behind => (succeeds_iff behind).mpr ⟨cert, key, pub⟩, ?_⟩
  rw [allOrNothing_iff, List.length_replicate, List.length_replicate, List.length_replicate]
  rintro ((h | h | h) | ⟨_, h, _⟩)
  · exact cert h
  · exact key h
  · exact pub h
  · cases h

end CredentialSetting
