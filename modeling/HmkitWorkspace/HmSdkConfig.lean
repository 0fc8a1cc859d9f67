import HmkitWorkspace.ByteBuffers

/-! # Device credentials

The static data of `hm_sdk_config.c`, its getters and the setters called from Python. -/
namespace HmSdkConfig

open ByteBuffers

abbrev Serial := Buffer 9
abbrev PublicKey := Buffer 64
abbrev PrivateKey := Buffer 32

/-- `hm_car_t` -/
structure HmCar where
  serial : Serial
  publicKey : PublicKey
  privateKey : PrivateKey
  deriving DecidableEq

structure Config where
  mDeviceCertIssuerPub : PublicKey
  hmCar : HmCar
  mLinkDeviceCertificate : Buffer 153
  deriving DecidableEq

def devCertSerialPos : ℕ := 16
def devCertPubKeyPos : ℕ := 25

def getDeviceCertIssuerPub (c : Config) : PublicKey := c.mDeviceCertIssuerPub

def getAccessCertIssuerPub (_ : Config) : PublicKey := 0

/-- `hm_sdk_config_get_serial_public_private`: the copy out of the certificate is kept. -/
def getSerialPublicPrivate (c : Config) : Config × HmCar :=
  let hmCar := { c.hmCar with
    publicKey := c.mLinkDeviceCertificate.slice devCertPubKeyPos 64 (by decide)
    serial := c.mLinkDeviceCertificate.slice devCertSerialPos 9 (by decide) }
  ({ c with hmCar := hmCar }, hmCar)

def getDeviceCertificate (c : Config) : Buffer 153 := c.mLinkDeviceCertificate

def setIssuerPub (c : Config) (pub : PublicKey) : Config := { c with mDeviceCertIssuerPub := pub }

def setDevPrv (c : Config) (prv : PrivateKey) : Config :=
  { c with hmCar := { c.hmCar with privateKey := prv } }

def setDeviceCertificate (c : Config) (device : Buffer 153) : Config :=
  { c with mLinkDeviceCertificate := device }

end HmSdkConfig
