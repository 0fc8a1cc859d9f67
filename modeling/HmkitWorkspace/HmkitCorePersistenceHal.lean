import HmkitWorkspace.HmSdkConfig

/-! # The persistence HAL

The access-certificate functions of `hmkit_core_persistence_hal.c` over a SQLite layer given
as a parameter. Locals that the source leaves uninitialised are arguments here. -/
namespace HmkitCorePersistenceHal

open ByteBuffers HmSdkConfig

variable {σ : Type*}

/-- `hm_persistence_sqlite_add_access_cert` and `hm_persistence_sqlite_get_access_cert`; the
latter is given the contents of its output arguments and returns what it leaves there. -/
structure Sqlite (σ : Type*) where
  addAccessCert : σ → Serial → List UInt8 → σ × UInt32
  getAccessCert : σ → Serial → Buffer 256 → UInt8 → (Buffer 256 × UInt8) × UInt32

/-- Reading: a stored certificate is copied out with its size, and for an absent serial the
call fails with its output arguments unwritten. -/
structure Sqlite.Reads (sqlite : Sqlite σ) (stored : σ → Serial → Option (List UInt8)) : Prop where
  present : ∀ db serial c, stored db serial = some c → c.length ≤ 255 ∧
    ∀ cert size, ∃ cert', cert.memcpy c = some cert' ∧
      sqlite.getAccessCert db serial cert size = ((cert', UInt8.ofNat c.length), 0)
  absent : ∀ db serial, stored db serial = none → ∀ cert size, ∃ ret, ret ≠ 0 ∧
    sqlite.getAccessCert db serial cert size = ((cert, size), ret)

/-- The layer is a map from serials to byte strings of up to 255 bytes. -/
structure Sqlite.IsMap (sqlite : Sqlite σ) (stored : σ → Serial → Option (List UInt8)) : Prop
    extends sqlite.Reads stored where
  add : ∀ db serial c, c.length ≤ 255 →
    stored (sqlite.addAccessCert db serial c).1 = Function.update (stored db) serial (some c)

/-- An add for one serial leaves what is stored for the others, whatever its size. -/
def Sqlite.Keyed (sqlite : Sqlite σ) (stored : σ → Serial → Option (List UInt8)) : Prop :=
  ∀ db serial c other, other ≠ serial →
    stored (sqlite.addAccessCert db serial c).1 other = stored db other

/-- `hmkit_core_certificate_t` by the fields in use. -/
structure HmkitCoreCertificate where
  serial : Serial
  publicKey : PublicKey

/-- The result of the SQLite layer is not looked at. -/
def addAccessCertificate (sqlite : Sqlite σ) (db : σ) (serial : Serial) (cert : List UInt8) :
    σ × UInt32 :=
  ((sqlite.addAccessCert db serial cert).1, 0)

structure GetResult where
  ret : UInt32
  cert : Buffer 256
  size : UInt16

/-- `sizeTmp` is uninitialised; the result of the SQLite layer is not looked at. -/
def getAccessCertificate (sqlite : Sqlite σ) (db : σ) (serial : Serial) (cert : Buffer 256)
    (sizeTmp : UInt8) : GetResult :=
  let r := sqlite.getAccessCert db serial cert sizeTmp
  ⟨0, r.1.1, r.1.2.toUInt16⟩

/-- The call that would remove the certificate is commented out. -/
def removeAccessCertificate (db : σ) (_ : HmkitCoreCertificate) : σ × UInt32 := (db, 0)

/-- There is no return statement: the result is whatever is left over. -/
def eraseAccessCertificate (db : σ) (_ : HmkitCoreCertificate) (left : UInt32) : σ × UInt32 :=
  (db, left)

/-- `hmkit_core_persistence_hal_get_serial`, out of a local copy of the certificate. -/
def getSerial (c : Config) : Serial :=
  (HmSdkConfig.getDeviceCertificate c).slice 16 9 (by decide)

/-- `hmkit_core_persistence_hal_get_local_public_key`, out of `hm_car`. -/
def getLocalPublicKey (c : Config) : Config × PublicKey :=
  let (c, pubser) := getSerialPublicPrivate c
  (c, pubser.publicKey)

/-- `hmkit_core_persistence_hal_get_device_certificate` -/
def getDeviceCertificate (c : Config) : Buffer 153 := HmSdkConfig.getDeviceCertificate c

def getCaPublicKey (c : Config) : PublicKey := getDeviceCertIssuerPub c

def getOemCaPublicKey (c : Config) : PublicKey := getAccessCertIssuerPub c

variable {sqlite : Sqlite σ} {stored : σ → Serial → Option (List UInt8)} {db : σ}
  {serial : Serial} {c : List UInt8}

theorem getAccessCertificate_present (reads : sqlite.Reads stored)
    (h : stored db serial = some c) (cert : Buffer 256) (sizeTmp : UInt8) :
    ∃ cert', cert.memcpy c = some cert' ∧
      getAccessCertificate sqlite db serial cert sizeTmp = ⟨0, cert', UInt16.ofNat c.length⟩ := by
  obtain ⟨hlen, hget⟩ := reads.present db serial c h
  obtain ⟨cert', hm, hr⟩ := hget cert sizeTmp
  refine ⟨cert', hm, ?_⟩
  have size : (UInt8.ofNat c.length).toUInt16 = UInt16.ofNat c.length := by
    apply UInt16.toNat_inj.mp
    simp
    omega
  simp [getAccessCertificate, hr, size]

/-- A missing certificate is reported as found, in whatever the locals held before. -/
theorem getAccessCertificate_absent (reads : sqlite.Reads stored)
    (h : stored db serial = none) (cert : Buffer 256) (sizeTmp : UInt8) :
    getAccessCertificate sqlite db serial cert sizeTmp = ⟨0, cert, sizeTmp.toUInt16⟩ := by
  obtain ⟨ret, _, hr⟩ := reads.absent db serial h cert sizeTmp
  simp [getAccessCertificate, hr]

/-! ## An instance -/

/-- A database held in memory. -/
abbrev Table := Serial → Option { c : List UInt8 // c.length ≤ 255 }

def tableSqlite : Sqlite Table where
  addAccessCert db serial c :=
    if h : c.length ≤ 255 then (Function.update db serial (some ⟨c, h⟩), 0) else (db, 1)
  getAccessCert db serial cert size :=
    match db serial with
    | none => ((cert, size), 1)
    | some c => (((cert.memcpy c).getD cert, UInt8.ofNat c.val.length), 0)

def Table.content (db : Table) (serial : Serial) : Option (List UInt8) :=
  (db serial).map Subtype.val

theorem tableSqlite_isMap : tableSqlite.IsMap Table.content := by
  refine ⟨⟨?_, ?_⟩, ?_⟩
  · intro db serial c h
    obtain ⟨⟨_, hlen⟩, hdb, rfl⟩ := Option.map_eq_some_iff.mp h
    refine ⟨hlen, fun cert size => ?_⟩
    obtain ⟨cert', hm⟩ := Buffer.memcpy_isSome (b := cert) (hlen.trans (by decide))
    exact ⟨cert', hm, by simp [tableSqlite, hdb, hm]⟩
  · intro db serial h cert size
    have hdb : db serial = none := Option.map_eq_none_iff.mp h
    exact ⟨1, by decide, by simp [tableSqlite, hdb]⟩
  · intro db serial c hlen
    funext other
    by_cases ho : other = serial
    · subst other; simp [tableSqlite, hlen, Table.content]
    · simp [tableSqlite, hlen, Table.content, ho]

theorem tableSqlite_keyed : tableSqlite.Keyed Table.content := by
  intro db serial c other ho
  by_cases hlen : c.length ≤ 255 <;> simp [tableSqlite, hlen, Table.content, ho]

end HmkitCorePersistenceHal
