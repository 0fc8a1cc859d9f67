import HmkitWorkspace.AccessCertificateStore

/-! # Storing and getting a certificate of any length

The size is narrowed to `uint8_t` on the way in and nothing compares it with the length. What
comes out again is the certificate cut to its length modulo 256. -/
namespace CertificateRoundTrip

open TransitionRuns KeyedHistories ByteBuffers HmSdkConfig HmkitCorePersistenceHal PycBindings
  AccessCertificateStore

variable {σ : Type*} {sqlite : Sqlite σ} {stored : σ → Serial → Option (List UInt8)}
  {db db' db₁ : σ} {serial : Serial} {c : List UInt8} {op : Op} {out : List Outcome}
  {tr : History σ}

/-- An operation that neither stores nor deletes anything for the serial. -/
def Elsewhere (serial : Serial) (_ : σ) (op : Op) : Prop :=
  ∀ change, op.change = some change → change.key ≠ serial

/-- A store is refused with nothing changed, or a get that follows it returns the certificate,
with any operations on other serials in between. -/
def RoundTrips (sqlite : Sqlite σ) (stored : σ → Serial → Option (List UInt8)) (db : σ)
    (serial : Serial) (c : List UInt8) : Prop :=
  ∃ db₁ r, hmPycStoreAccessCertificate sqlite db [.bytes c, .bytes serial.bytes] = some (db₁, r) ∧
    (r ≠ .long 0 ∧ stored db₁ serial = stored db serial ∨
      ∀ tr db', Execution (step sqlite) (Elsewhere serial) db₁ tr db' →
        ∀ accessCert sizeTmp,
          hmPycGetAccessCertificate sqlite db' [.bytes serial.bytes] accessCert sizeTmp =
            some (.bytesTuple c))

/-! ## What stays in between -/

theorem step_elsewhere (keyed : sqlite.Keyed stored) (elsewhere : Elsewhere serial db op)
    (hs : step sqlite db op = some (db', out)) : stored db' serial = stored db serial := by
  rw [step_db hs]
  cases op with
  | pyStore certf other =>
    by_cases hne : certf = []
    · simp [Op.added, hne]
    · have ho : other ≠ serial := elsewhere (.store other certf) (by simp [Op.change, hne])
      simpa [Op.added, hne] using keyed db other _ serial ho.symm
  | halAdd other cert =>
    have ho : other ≠ serial := elsewhere (.store other cert) rfl
    exact keyed db other cert serial ho.symm
  | _ => rfl

theorem stored_kept (keyed : sqlite.Keyed stored)
    (h : Execution (step sqlite) (Elsewhere serial) db tr db') :
    stored db' serial = stored db serial := by
  apply h.invariant (fun s => stored s serial = stored db serial) rfl
  intro s op out u kept elsewhere hs
  rw [step_elsewhere keyed elsewhere hs, kept]

theorem hmPycGet_present (reads : sqlite.Reads stored) (h : stored db serial = some c)
    (accessCert : Buffer 256) (sizeTmp : UInt8) :
    hmPycGetAccessCertificate sqlite db [.bytes serial.bytes] accessCert sizeTmp =
      some (.bytesTuple c) := by
  rw [hmPycGet_eq, pyGetAccesscertificate, getAccessCertificate_bytes reads, h,
    Option.getD_some]

/-! ## What comes out again -/

/-- A get after the store and after operations on other serials. -/
theorem get_after_store_eq (isMap : sqlite.IsMap stored) (keyed : sqlite.Keyed stored)
    (hc : c ≠ []) {r : PyResult}
    (store : hmPycStoreAccessCertificate sqlite db [.bytes c, .bytes serial.bytes] = some (db₁, r))
    (h : Execution (step sqlite) (Elsewhere serial) db₁ tr db')
    (accessCert : Buffer 256) (sizeTmp : UInt8) :
    hmPycGetAccessCertificate sqlite db' [.bytes serial.bytes] accessCert sizeTmp =
      some (.bytesTuple (c.take (c.length % 256))) := by
  rw [hmPycStore_cut hc] at store
  cases store
  apply hmPycGet_present isMap.toReads
  have short : (c.take (c.length % 256)).length ≤ 255 := by
    rw [List.length_take]
    omega
  rw [stored_kept keyed h, isMap.add db serial _ short, Function.update_self]

theorem roundTrips_iff (isMap : sqlite.IsMap stored) (keyed : sqlite.Keyed stored)
    (hc : c ≠ []) : RoundTrips sqlite stored db serial c ↔ c.length ≤ 255 := by
  have whole := take_mod_eq_iff (show 0 < 256 by decide) c
  constructor
  · intro trips
    obtain ⟨db₁, r, store, refused | returned⟩ := trips
    · rw [hmPycStore_cut hc] at store
      cases store
      exact absurd rfl refused.1
    · have got := returned [] db₁ .init 0 0
      rw [get_after_store_eq isMap keyed hc store .init] at got
      have same : c.take (c.length % 256) = c := by simpa using got
      have := whole.mp same
      omega
  · intro short
    refine ⟨_, _, hmPycStore_cut hc, Or.inr ?_⟩
    intro tr db' h accessCert sizeTmp
    rw [get_after_store_eq isMap keyed hc (hmPycStore_cut hc) h, whole.mpr (by omega)]

/-- Storing and getting a certificate gives it back exactly up to 255 bytes; a longer one is
accepted as well and comes back cut to its length modulo 256. -/
theorem certificate_round_trip (isMap : sqlite.IsMap stored) (keyed : sqlite.Keyed stored)
    (db : σ) (serial : Serial) (hc : c ≠ []) :
    (RoundTrips sqlite stored db serial c ↔ c.length ≤ 255) ∧
    ∃ db₁, hmPycStoreAccessCertificate sqlite db [.bytes c, .bytes serial.bytes] =
        some (db₁, .long 0) ∧
      ∀ tr db', Execution (step sqlite) (Elsewhere serial) db₁ tr db' →
        ∀ accessCert sizeTmp,
          hmPycGetAccessCertificate sqlite db' [.bytes serial.bytes] accessCert sizeTmp =
            some (.bytesTuple (c.take (c.length % 256))) := by
  refine ⟨roundTrips_iff isMap keyed hc, _, hmPycStore_cut hc, ?_⟩
  intro tr db' h
  exact get_after_store_eq isMap keyed hc (hmPycStore_cut hc) h

theorem two_bytes_round_trip :
    tableSqlite.IsMap Table.content ∧ tableSqlite.Keyed Table.content ∧
      RoundTrips tableSqlite Table.content (fun _ => none) someSerial [7, 8] :=
  ⟨tableSqlite_isMap, tableSqlite_keyed,
    (certificate_round_trip tableSqlite_isMap tableSqlite_keyed (fun _ => none) someSerial
      (c := [7, 8]) (by decide)).1.mpr (by decide)⟩

/-- A certificate of 257 bytes is stored as its first byte. -/
theorem long_certificate_cut :
    tableSqlite.IsMap Table.content ∧ tableSqlite.Keyed Table.content ∧
      ¬ RoundTrips tableSqlite Table.content (fun _ => none) someSerial
        ([7] ++ List.replicate 256 7) := by
  refine ⟨tableSqlite_isMap, tableSqlite_keyed, ?_⟩
  have nonempty := List.append_ne_nil_of_left_ne_nil (List.cons_ne_nil (7 : UInt8) [])
  rw [roundTrips_iff tableSqlite_isMap tableSqlite_keyed (nonempty _), length_padded]
  decide

end CertificateRoundTrip
