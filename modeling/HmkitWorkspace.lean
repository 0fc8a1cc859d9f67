import HmkitWorkspace.TransitionRuns
import HmkitWorkspace.JustifiedTraces
import HmkitWorkspace.AuxiliaryVariables
import HmkitWorkspace.FixedSlots
import HmkitWorkspace.ByteBuffers
import HmkitWorkspace.LengthTypeValue
import HmkitWorkspace.KeyedHistories
import HmkitWorkspace.StateViews
import HmkitWorkspace.DecimalDigits
import HmkitWorkspace.SeededGenerators
import HmkitWorkspace.HmkitCoreConnectivityHal
import HmkitWorkspace.ConnectionTableInvariant
import HmkitWorkspace.ReadBuffers
import HmkitWorkspace.ReadBufferBounds
import HmkitWorkspace.ConnectionHistory
import HmkitWorkspace.HandleResolution
import HmkitWorkspace.AliasedDelete
import HmkitWorkspace.SessionBuffers
import HmkitWorkspace.NotifyConfidentiality
import HmkitWorkspace.NotifyDelivery
import HmkitWorkspace.NotifyIntegrity
import HmkitWorkspace.ChannelIndependence
import HmkitWorkspace.FailedNotifications
import HmkitWorkspace.OutgoingRequests
import HmkitWorkspace.WriteResponses
import HmkitWorkspace.InfoMtu
import HmkitWorkspace.InfoEncoding
import HmkitWorkspace.ReadIsolation
import HmkitWorkspace.LongRead
import HmkitWorkspace.ConnectionSlotLeak
import HmkitWorkspace.HmSdkConfig
import HmkitWorkspace.HmkitCorePersistenceHal
import HmkitWorkspace.HmkitCoreCryptoHal
import HmkitWorkspace.KeyLookup
import HmkitWorkspace.IdentityGetters
import HmkitWorkspace.NonceReuse
import HmkitWorkspace.PycBindings
import HmkitWorkspace.AccessCertificateStore
import HmkitWorkspace.CertificateRoundTrip
import HmkitWorkspace.BleAdvertisement
import HmkitWorkspace.PycCallbacks
import HmkitWorkspace.CommandTargets
import HmkitWorkspace.CallbackReferences
import HmkitWorkspace.PycExtension
import HmkitWorkspace.SignedMessages
import HmkitWorkspace.CredentialSetting
import HmkitWorkspace.FailureReports
import HmkitWorkspace.Footprints
import HmkitWorkspace.HalFootprints
import HmkitWorkspace.EventOrder
import HmkitWorkspace.RelationalRuns
import HmkitWorkspace.HalParametricity
import HmkitWorkspace.KeyedSlots
import HmkitWorkspace.TableCapacity
import HmkitWorkspace.NotifyAccounting
import HmkitWorkspace.HmPyc
import HmkitWorkspace.PycFootprints
import HmkitWorkspace.ModuleServices
import HmkitWorkspace.Keyring
import HmkitWorkspace.IndexedSystems
import HmkitWorkspace.PeerAuthentication
import HmkitWorkspace.Forwarding
import HmkitWorkspace.HmkitCoreApiCallback
import HmkitWorkspace.CallbackDelivery
import HmkitWorkspace.HmMain
import HmkitWorkspace.OrderlyShutdown
import HmkitWorkspace.AttDatabase
import HmkitWorkspace.GattProfile
import HmkitWorkspace.ScanFormats
import HmkitWorkspace.BtstackStart
import HmkitWorkspace.BringUp
