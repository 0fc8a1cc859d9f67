import HmkitWorkspace.PycExtension
import HmkitWorkspace.KeyLookup

/-! # What Python learns of a failure

Each wrapper answers for what it checked itself. What the core, the store and the signer below
it report is dropped on the way up, and success is reported instead. -/
namespace FailureReports

open ByteBuffers HmSdkConfig HmkitCorePersistenceHal HmkitCoreCryptoHal PycBindings PycExtension
  KeyLookup

variable {σ Obj : Type*} {sqlite : Sqlite σ} {db : σ} {p : Platform σ} {config : Config}
  {s : PycCallbacks.State Obj} {args : List PyObject} {signature : Signature}
  {succeeded : UInt32 → Prop}

/-- NULL and every number but zero are errors; neither carries result bytes. -/
def Succeeds : PyResult → Prop
  | .long value => value = 0
  | .bytesTuple _ => True
  | .null => False

/-! ## What is done below -/

/-- All of the message is handed to the core for the connected serial. -/
def Handed (s : PycCallbacks.State Obj) (args : List PyObject)
    (calls : List (PycCallbacks.Call Obj)) : Prop :=
  ∃ serial msg, PycCallbacks.cPyGetConnectedSerial s = some serial ∧
    parseBytes args = some msg ∧ calls = [.sendCustomCommand 0 serial 1 msg [] 2]

structure AddCall where
  serial : Serial
  cert : List UInt8
  ret : UInt32

/-- The layer that also keeps the adds it was asked for, with their results. -/
def Sqlite.logged (sqlite : Sqlite σ) : Sqlite (σ × List AddCall) where
  addAccessCert db serial c :=
    let r := sqlite.addAccessCert db.1 serial c
    ((r.1, db.2 ++ [⟨serial, c, r.2⟩]), r.2)
  getAccessCert db := sqlite.getAccessCert db.1

/-! ## The wrappers -/

def SendcommandReports (s : PycCallbacks.State Obj) (args : List PyObject) : Prop :=
  Succeeds (hmPycSendcommand s args).2 ↔ Handed s args (hmPycSendcommand s args).1

/-- `succeeded` says which results of the layer below stand for success. -/
def StoreReports (succeeded : UInt32 → Prop) (sqlite : Sqlite σ) (db : σ)
    (args : List PyObject) : Prop :=
  ∃ db' r, hmPycStoreAccessCertificate (Sqlite.logged sqlite) (db, []) args = some (db', r) ∧
    (Succeeds r ↔ ∃ call, db'.2 = [call] ∧ succeeded call.ret)

def SignatureReports (succeeded : UInt32 → Prop) (p : Platform σ) (config : Config)
    (args : List PyObject) (signature : Signature) : Prop :=
  Succeeds (hmPycGenerateSignature p config args signature).result ↔
    ∃ data key, (hmPycGenerateSignature p config args signature).calls = [.signature data key] ∧
      succeeded (p.crypto.signature data key signature).1

/-! ## When they report what happened -/

/-- A property of a call, from what it is for usable arguments. -/
theorem iff_of_parsed {α : Type*} {parsed : Option α} {usable condition : α → Prop} {P : Prop}
    (accepted : ∀ a, parsed = some a → usable a → (P ↔ condition a))
    (rejected : (∀ a, parsed = some a → ¬ usable a) → P) :
    P ↔ ∀ a, parsed = some a → usable a → condition a := by
  constructor
  · intro holds a ha usable
    exact (accepted a ha usable).mp holds
  · intro met
    by_cases some_usable : ∃ a, parsed = some a ∧ usable a
    · obtain ⟨a, ha, usable⟩ := some_usable
      exact (accepted a ha usable).mpr (met a ha usable)
    · apply rejected
      intro a ha usable
      exact some_usable ⟨a, ha, usable⟩

theorem handed_accepted {m : List UInt8} (hp : parseBytes args = some m) :
    Handed s args (PycCallbacks.pySendcommand s (m.take (m.length % 2 ^ 32))).1 ↔
      s.isConnected = true ∧ m.length < 2 ^ 32 := by
  have whole := take_mod_eq_iff (show 0 < 2 ^ 32 by decide) m
  cases hc : s.isConnected with
  | false => simp [Handed, PycCallbacks.cPyGetConnectedSerial, hc]
  | true =>
    rw [← whole]
    simp [Handed, PycCallbacks.pySendcommand, PycCallbacks.cPyGetConnectedSerial, hc, hp]

theorem sendcommandReports_iff :
    SendcommandReports s args ↔
      ∀ m, parseBytes args = some m → m ≠ [] → s.isConnected = true ∧ m.length < 2 ^ 32 := by
  apply iff_of_parsed
  · intro m hp hm
    rw [SendcommandReports, sendcommand_accepted hp hm, handed_accepted hp]
    simp [Succeeds]
  · intro unusable
    have rejected : ∀ m, parseBytes args = some m → m = [] := by simpa using unusable
    rw [SendcommandReports, sendcommand_rejected rejected]
    simp [Succeeds, Handed]

theorem storeReports_iff :
    StoreReports succeeded sqlite db args ↔
      ∀ pair, parseTwoBytes args = some pair → pair.1 ≠ [] ∧ pair.2 ≠ [] →
        ∃ serial, serialAt pair.2 = some serial ∧
          succeeded (sqlite.addAccessCert db serial (pair.1.take (pair.1.length % 256))).2 := by
  apply iff_of_parsed
  · intro pair hp usable
    rw [StoreReports, hmPycStore_accepted hp usable.1 usable.2]
    cases serialAt pair.2 with
    | none => simp
    | some serial => simp [Succeeds, Sqlite.logged]
  · intro unusable
    refine ⟨_, _, hmPycStore_rejected ?_, ?_⟩
    · intro certf serNum hp
      have := unusable _ hp
      tauto
    · simp [Succeeds]

theorem signatureReports_iff :
    SignatureReports succeeded p config args signature ↔
      ∀ m, parseBytes args = some m → m ≠ [] →
        succeeded (p.crypto.signature (m.take (m.length % 256)) config.hmCar.privateKey
          signature).1 := by
  apply iff_of_parsed
  · intro m hp hm
    rw [SignatureReports, generateSignature_accepted hp hm]
    simp [Succeeds]
  · intro unusable
    have rejected : ∀ m, parseBytes args = some m → m = [] := by simpa using unusable
    rw [SignatureReports, generateSignature_rejected rejected]
    simp [Succeeds]

/-- Python learns what happened exactly when arguments that pass the checks of the wrapper meet
no failure below it: a connected device and a message of less than 4 GiB, a serial of at least
eight bytes and an add that succeeds, a signer that succeeds. -/
theorem failures_reach_python (succeeded : UInt32 → Prop) (args : List PyObject) :
    (∀ s : PycCallbacks.State Obj, SendcommandReports s args ↔
      ∀ m, parseBytes args = some m → m ≠ [] → s.isConnected = true ∧ m.length < 2 ^ 32) ∧
    (∀ (sqlite : Sqlite σ) db, StoreReports succeeded sqlite db args ↔
      ∀ pair, parseTwoBytes args = some pair → pair.1 ≠ [] ∧ pair.2 ≠ [] →
        ∃ serial, serialAt pair.2 = some serial ∧
          succeeded (sqlite.addAccessCert db serial (pair.1.take (pair.1.length % 256))).2) ∧
    ∀ (p : Platform σ) config signature, SignatureReports succeeded p config args signature ↔
      ∀ m, parseBytes args = some m → m ≠ [] →
        succeeded (p.crypto.signature (m.take (m.length % 256)) config.hmCar.privateKey
          signature).1 :=
  ⟨fun _ => sendcommandReports_iff, fun _ _ => storeReports_iff,
    fun _ _ _ => signatureReports_iff⟩

/-- A layer whose disk is full. -/
def fullSqlite : Sqlite Unit := ⟨fun _ _ _ => ((), 1), fun _ _ cert size => ((cert, size), 1)⟩

/-- With no device connected, a full disk and a signer that fails, all three report success. -/
theorem failures_unnoticed :
    ¬ SendcommandReports (PycCallbacks.initial : PycCallbacks.State Unit) [.bytes [1]] ∧
    ¬ StoreReports (· = 0) fullSqlite () [.bytes [7], .bytes [1, 2, 3, 4, 5, 6, 7, 8, 9]] ∧
    ¬ SignatureReports (· = 0) samplePlatform ⟨0, ⟨0, 0, 0⟩, 0⟩ [.bytes [1]] 0 := by
  refine ⟨?_, ?_, ?_⟩
  · rw [sendcommandReports_iff]
    intro met
    cases (met [1] rfl (by decide)).1
  · rw [storeReports_iff]
    intro met
    obtain ⟨serial, _, failed⟩ := met ([7], _) rfl ⟨by decide, by decide⟩
    cases failed
  · rw [signatureReports_iff]
    intro met
    exact absurd (met [1] rfl (by decide)) (by decide)

end FailureReports
