import HmkitWorkspace.HmkitCorePersistenceHal
import HmkitWorkspace.SeededGenerators

/-! # The crypto HAL

The elliptic-curve functions and the nonces of `hmkit_core_crypto_hal.c`. OpenSSL, the SQLite
layer, the certificate parser of the core and the generator behind `rand` are parameters; each
call into OpenSSL is recorded. -/
namespace HmkitCoreCryptoHal

open ByteBuffers HmSdkConfig HmkitCorePersistenceHal SeededGenerators

variable {σ : Type*}

abbrev Signature := Buffer 64
abbrev SharedSecret := Buffer 32

/-- `hm_crypto_openssl_dh`, `hm_crypto_openssl_signature` and `hm_crypto_openssl_verify`. -/
structure CryptoLibrary where
  dh : PrivateKey → PublicKey → SharedSecret → UInt32 × SharedSecret
  signature : List UInt8 → PrivateKey → Signature → UInt32 × Signature
  verify : List UInt8 → PublicKey → Signature → UInt32

/-- `certGetAsStruct` is `hmkit_core_cert_get_as_struct`: it is given the buffer, not its size. -/
structure Platform (σ : Type*) where
  sqlite : Sqlite σ
  crypto : CryptoLibrary
  certGetAsStruct : Buffer 256 → HmkitCoreCertificate → HmkitCoreCertificate

inductive CryptoCall where
  | dh (privateKey : PrivateKey) (publicKey : PublicKey)
  | signature (data : List UInt8) (privateKey : PrivateKey)
  | verify (data : List UInt8) (publicKey : PublicKey) (signature : Signature)
  deriving DecidableEq

/-- The uninitialised locals of a look-up: `cert`, `certificate`, and `size_tmp` below it. -/
structure Locals where
  cert : Buffer 256
  certificate : HmkitCoreCertificate
  sizeTmp : UInt8

structure EcdhResult where
  ret : UInt32
  ecdh : SharedSecret
  config : Config
  calls : List CryptoCall
  deriving DecidableEq

/-- `hmkit_core_crypto_hal_ecc_get_ecdh` -/
def eccGetEcdh (p : Platform σ) (db : σ) (config : Config) (serial : Serial)
    (ecdh : SharedSecret) (l : Locals) : EcdhResult :=
  let r := getAccessCertificate p.sqlite db serial l.cert l.sizeTmp
  if r.ret = 1 then ⟨1, ecdh, config, []⟩
  else
    let certificate := p.certGetAsStruct r.cert l.certificate
    let (config, pubser) := getSerialPublicPrivate config
    let (ret, ecdh) := p.crypto.dh pubser.privateKey certificate.publicKey ecdh
    ⟨ret, ecdh, config, [.dh pubser.privateKey certificate.publicKey]⟩

/-- `hmkit_core_crypto_hal_ecc_add_signature`; `data` are the first `size` bytes. -/
def eccAddSignature (p : Platform σ) (config : Config) (data : List UInt8)
    (signature : Signature) : (UInt32 × Signature) × Config × List CryptoCall :=
  let (config, pubser) := getSerialPublicPrivate config
  (p.crypto.signature data pubser.privateKey signature, config,
    [.signature data pubser.privateKey])

/-- `hmkit_core_crypto_hal_ecc_validate_signature` -/
def eccValidateSignature (p : Platform σ) (db : σ) (data : List UInt8) (signature : Signature)
    (serial : Serial) (l : Locals) : UInt32 × List CryptoCall :=
  let r := getAccessCertificate p.sqlite db serial l.cert l.sizeTmp
  if r.ret = 1 then (1, [])
  else
    let certificate := p.certGetAsStruct r.cert l.certificate
    (p.crypto.verify data certificate.publicKey signature,
      [.verify data certificate.publicKey signature])

/-- `hmkit_core_crypto_hal_ecc_validate_ca_signature` -/
def eccValidateCaSignature (p : Platform σ) (config : Config) (data : List UInt8)
    (signature : Signature) : UInt32 × List CryptoCall :=
  (p.crypto.verify data (getCaPublicKey config) signature,
    [.verify data (getCaPublicKey config) signature])

/-- `hmkit_core_crypto_hal_ecc_validate_oem_ca_signature` -/
def eccValidateOemCaSignature (p : Platform σ) (config : Config) (data : List UInt8)
    (signature : Signature) : UInt32 × List CryptoCall :=
  (p.crypto.verify data (getOemCaPublicKey config) signature,
    [.verify data (getOemCaPublicKey config) signature])

abbrev Nonce := Buffer 9

structure NonceResult (G : Type*) where
  ret : UInt32
  nonce : Nonce
  generator : G

/-- `hmkit_core_crypto_hal_generate_nonce`. The generator is seeded with the clock on every
call, so the state it had is lost; `time_t` is narrowed to `unsigned int`. -/
def generateNonce {G : Type*} (r : Generator G) (_ : G) (time : ℕ) : NonceResult G :=
  let generator := r.seed (UInt32.ofNat time)
  ⟨0, ⟨(r.bytes 9 generator).1, r.length_bytes 9 generator⟩, (r.bytes 9 generator).2⟩

end HmkitCoreCryptoHal
