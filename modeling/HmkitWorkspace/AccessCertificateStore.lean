import HmkitWorkspace.TransitionRuns
import HmkitWorkspace.KeyedHistories
import HmkitWorkspace.PycBindings

/-! # The access-certificate store over a history

Storing reaches the SQLite layer through both the bindings and the HAL, deleting reaches it
through neither, and getting has no way to say that nothing is stored. -/
namespace AccessCertificateStore

open TransitionRuns KeyedHistories ByteBuffers HmSdkConfig HmkitCorePersistenceHal PycBindings

variable {σ : Type*}

/-- Calls from Python and from the core, with the contents of uninitialised locals. -/
inductive Op where
  | pyStore (certf : List UInt8) (serial : Serial)
  | halAdd (serial : Serial) (cert : List UInt8)
  | pyDelete (serial : Serial) (left : HmkitCoreCertificate)
  | halRemove (certificate : HmkitCoreCertificate)
  | halErase (certificate : HmkitCoreCertificate) (left : UInt32)
  | pyGet (serial : Serial) (accessCert : Buffer 256) (sizeTmp : UInt8)
  | halGet (serial : Serial) (cert : Buffer 256) (sizeTmp : UInt8)

/-- The certificate a get hands out, or none when it reports that there is none. -/
abbrev Outcome := Option (List UInt8)

def PyResult.outcome : PyResult → Outcome
  | .bytesTuple value => some value
  | _ => none

def GetResult.outcome (r : GetResult) : Outcome :=
  if r.ret = 0 then some (r.cert.bytes.take r.size.toNat) else none

def step (sqlite : Sqlite σ) : StepFunction σ Op Outcome := fun db op =>
  match op with
  | .pyStore certf serial =>
    (hmPycStoreAccessCertificate sqlite db [.bytes certf, .bytes serial.bytes]).map
      fun r => (r.1, [])
  | .halAdd serial cert => some ((addAccessCertificate sqlite db serial cert).1, [])
  | .pyDelete serial left =>
    some ((hmPycDeleteAccessCertificate db [.bytes serial.bytes] left).1, [])
  | .halRemove certificate => some ((removeAccessCertificate db certificate).1, [])
  | .halErase certificate left => some ((eraseAccessCertificate db certificate left).1, [])
  | .pyGet serial accessCert sizeTmp =>
    (hmPycGetAccessCertificate sqlite db [.bytes serial.bytes] accessCert sizeTmp).map
      fun r => (db, [PyResult.outcome r])
  | .halGet serial cert sizeTmp =>
    some (db, [GetResult.outcome (getAccessCertificate sqlite db serial cert sizeTmp)])

/-- Certificates are byte strings of up to 255 bytes. -/
def Fits (_ : σ) : Op → Prop
  | .pyStore certf _ => certf.length ≤ 255
  | .halAdd _ cert => cert.length ≤ 255
  | _ => True

/-- What an operation is meant to change; the wrapper refuses an empty certificate. -/
def Op.change : Op → Option (Change Serial (List UInt8))
  | .pyStore certf serial => if certf = [] then none else some (.store serial certf)
  | .halAdd serial cert => some (.store serial cert)
  | .pyDelete serial _ => some (.delete serial)
  | .halRemove certificate => some (.delete certificate.serial)
  | .halErase certificate _ => some (.delete certificate.serial)
  | _ => none

abbrev History (σ : Type*) := List (Transition σ Op Outcome)

def changes (tr : History σ) : List (Change Serial (List UInt8)) :=
  tr.filterMap fun t => t.event.change

/-- A get of the serial, through the bindings or the HAL. -/
def Gets (serial : Serial) : Op → Prop
  | .pyGet s _ _ => s = serial
  | .halGet s _ _ => s = serial
  | _ => False

def isStore : Change Serial (List UInt8) → Bool
  | .store _ _ => true
  | .delete _ => false

variable {sqlite : Sqlite σ} {stored : σ → Serial → Option (List UInt8)} {db db' db₀ : σ}
  {op : Op} {out : List Outcome} {tr tr' : History σ} {serial : Serial} {c : List UInt8}

/-! ## The code as it is -/

/-- What an operation asks the SQLite layer to add. -/
def Op.added : Op → Option (Serial × List UInt8)
  | .pyStore certf serial =>
    if certf = [] then none else some (serial, certf.take (certf.length % 256))
  | .halAdd serial cert => some (serial, cert)
  | _ => none

/-- Adds are all that changes the database. -/
theorem step_db (hs : step sqlite db op = some (db', out)) :
    db' = match op.added with
      | some (serial, c) => (sqlite.addAccessCert db serial c).1
      | none => db := by
  cases op with
  | pyStore certf serial =>
    by_cases hne : certf = []
    · subst certf
      obtain ⟨rfl, _⟩ := total_step hs
      rfl
    · simp only [step, hmPycStore_cut hne] at hs
      obtain ⟨rfl, _⟩ := total_step hs
      simp [Op.added, hne]
  | pyDelete serial left =>
    simp only [step, hmPycDelete_eq] at hs
    obtain ⟨rfl, _⟩ := total_step hs
    rfl
  | pyGet serial accessCert sizeTmp =>
    simp only [step, hmPycGet_eq] at hs
    obtain ⟨rfl, _⟩ := total_step hs
    rfl
  | _ =>
    obtain ⟨rfl, _⟩ := total_step hs
    rfl

/-- Stores take effect and nothing else does. -/
theorem step_stored (isMap : sqlite.IsMap stored) (fits : Fits db op)
    (hs : step sqlite db op = some (db', out)) :
    stored db' = match op.change with
      | some (.store serial c) => Function.update (stored db) serial (some c)
      | _ => stored db := by
  rw [step_db hs]
  cases op with
  | pyStore certf serial =>
    have short : certf.length ≤ 255 := fits
    by_cases hne : certf = []
    · simp [Op.added, Op.change, hne]
    · have whole := (take_mod_eq_iff (show 0 < 256 by decide) certf).mpr (by omega)
      simpa [Op.added, Op.change, hne, whole] using isMap.add db serial certf short
  | halAdd serial cert => exact isMap.add db serial cert fits
  | _ => rfl

theorem changes_concat (tr : History σ) (t : Transition σ Op Outcome) :
    changes (tr ++ [t]) = changes tr ++ t.event.change.toList := by
  cases h : t.event.change <;> simp [changes, h]

/-- The store holds what the stores of the history left, as if nothing had been deleted. -/
theorem stored_run (isMap : sqlite.IsMap stored) (empty : ∀ serial, stored db₀ serial = none)
    (h : Execution (step sqlite) Fits db₀ tr db) :
    stored db = contents ((changes tr).filter isStore) := by
  induction h with
  | init => exact funext empty
  | @tail tr s e out u _ fits hs ih =>
    have next := step_stored isMap fits hs
    rw [next, ih, changes_concat, List.filter_append]
    cases e.change with
    | none => simp
    | some change =>
      cases change with
      | store serial c =>
        exact (contents_concat ((changes tr).filter isStore) (.store serial c)).symm
      | delete serial => simp [isStore]

/-- What a get finds in its locals when nothing is written to them. -/
def Op.leftover : Op → List UInt8
  | .pyGet _ accessCert sizeTmp => accessCert.bytes.take sizeTmp.toNat
  | .halGet _ cert sizeTmp => cert.bytes.take sizeTmp.toNat
  | _ => []

theorem getAccessCertificate_bytes (reads : sqlite.Reads stored) (db : σ) (serial : Serial)
    (cert : Buffer 256) (sizeTmp : UInt8) :
    (getAccessCertificate sqlite db serial cert sizeTmp).cert.bytes.take
        (getAccessCertificate sqlite db serial cert sizeTmp).size.toNat =
      (stored db serial).getD (cert.bytes.take sizeTmp.toNat) := by
  cases h : stored db serial with
  | some c =>
    obtain ⟨cert', hm, hget⟩ := getAccessCertificate_present reads h cert sizeTmp
    obtain ⟨hlen, taken⟩ := Buffer.memcpy_prefix hm
    have size : (UInt16.ofNat c.length).toNat = c.length := by
      rw [UInt16.toNat_ofNat', Nat.mod_eq_of_lt (by omega)]
    rw [hget, size, Option.getD_some]
    exact taken
  | none =>
    rw [getAccessCertificate_absent reads h]
    simp

/-- A get never reports that there is nothing: it then hands out an uninitialised buffer. -/
theorem step_get (reads : sqlite.Reads stored) (hg : Gets serial op) :
    step sqlite db op = some (db, [some ((stored db serial).getD op.leftover)]) := by
  cases op with
  | pyGet s accessCert sizeTmp =>
    cases hg
    simp [step, hmPycGet_eq, pyGetAccesscertificate, PyResult.outcome, Op.leftover,
      getAccessCertificate_bytes reads]
  | halGet s cert sizeTmp =>
    cases hg
    have ret : (getAccessCertificate sqlite db serial cert sizeTmp).ret = 0 := rfl
    simp [step, GetResult.outcome, ret, Op.leftover, getAccessCertificate_bytes reads]
  | _ => exact absurd hg id

/-! ## The code against a map -/

/-- What a get is meant to answer after a history. -/
def expected (tr : History σ) (serial : Serial) : Outcome := contents (changes tr) serial

/-- A certificate whose last change was a store is there: no deletion came after it. -/
theorem stored_of_expected (isMap : sqlite.IsMap stored)
    (empty : ∀ serial, stored db₀ serial = none) (h : Execution (step sqlite) Fits db₀ tr db)
    (he : expected tr serial = some c) : stored db serial = some c := by
  rw [stored_run isMap empty h, contents_eq_some_iff]
  exact latest_filter (contents_eq_some_iff.mp he) rfl

theorem stored_congr (isMap : sqlite.IsMap stored) (empty : ∀ serial, stored db₀ serial = none)
    (h : Execution (step sqlite) Fits db₀ tr db) (h' : Execution (step sqlite) Fits db₀ tr' db')
    (agree : (changes tr).filter (fun c => c.key = serial) =
      (changes tr').filter fun c => c.key = serial) : stored db serial = stored db' serial := by
  rw [stored_run isMap empty h, stored_run isMap empty h', ← contents_filter_key,
    List.filter_comm, agree, List.filter_comm, contents_filter_key]

/-- A get answers as a map would exactly when the last store-or-delete of its serial was a
store, and changes of other serials never matter to it. -/
theorem access_certificate_store (isMap : sqlite.IsMap stored)
    (empty : ∀ serial, stored db₀ serial = none) (h : Execution (step sqlite) Fits db₀ tr db) :
    (∀ serial op, Gets serial op → ∃ outcome, step sqlite db op = some (db, [outcome]) ∧
      (outcome = expected tr serial ↔
        ∃ c, latest serial (changes tr) = some (.store serial c))) ∧
    ∀ tr' db', Execution (step sqlite) Fits db₀ tr' db' → ∀ serial op, Gets serial op →
      (changes tr).filter (fun c => c.key = serial) =
        (changes tr').filter (fun c => c.key = serial) →
      ∃ outcome, step sqlite db op = some (db, [outcome]) ∧
        step sqlite db' op = some (db', [outcome]) := by
  constructor
  · intro serial op hg
    refine ⟨_, step_get isMap.toReads hg, ?_⟩
    simp only [← contents_eq_some_iff]
    constructor
    · intro ho
      exact ⟨_, ho.symm⟩
    · intro latest
      rcases latest with ⟨c, he⟩
      rw [stored_of_expected isMap empty h he]
      exact he.symm
  · intro tr' db' h' serial op hg agree
    have same := stored_congr isMap empty h h' agree
    exact ⟨_, step_get isMap.toReads hg, same ▸ step_get isMap.toReads hg⟩

def someSerial : Serial := ⟨[1, 2, 3, 4, 5, 6, 7, 8, 9], rfl⟩

theorem get_after_store :
    ∃ tr db, run (step tableSqlite) (fun _ => none) [.pyStore [7, 8] someSerial] = some (tr, db) ∧
      step tableSqlite db (.pyGet someSerial 0 0) = some (db, [some [7, 8]]) := by
  refine ⟨_, _, rfl, ?_⟩
  have empty : ∀ serial, Table.content (fun _ => none) serial = none := fun _ => rfl
  have stores := (access_certificate_store tableSqlite_isMap empty
    (execution_of_run [.pyStore [7, 8] someSerial] rfl (by
      rintro t (_ | ⟨_, ⟨⟩⟩)
      exact (by decide : [7, 8].length ≤ 255)))).1
  obtain ⟨_, hs, correct⟩ := stores someSerial (.pyGet someSerial 0 0) rfl
  rw [hs, correct.mpr ⟨[7, 8], rfl⟩]
  rfl

/-- A certificate deleted through the bindings is handed out as before. -/
theorem deleted_certificate_returned :
    ∃ tr db, Execution (step tableSqlite) Fits (fun _ => none) tr db ∧
      expected tr someSerial = none ∧
      (step tableSqlite db (.pyGet someSerial 0 0)).map Prod.snd = some [some [7, 8]] := by
  refine ⟨_, _, execution_of_run [.pyStore [7, 8] someSerial,
    .pyDelete someSerial ⟨someSerial, 0⟩] rfl ?_, by decide, by decide⟩
  rintro t (_ | ⟨_, _ | ⟨_, ⟨⟩⟩⟩)
  · exact (by decide : [7, 8].length ≤ 255)
  · trivial

end AccessCertificateStore
