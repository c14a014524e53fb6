import Hixl.MemStoreConversion
import Hixl.UbMemRemoteTranslation
import Hixl.RtsqPublish
import Hixl.LaunchCapacity
import Hixl.SdmaTiling
import Hixl.UbMemEngineSlots
import Hixl.ScalableAllocatorFit
import Hixl.MsgReceiverFraming
import Hixl.CsServerChannels
import Hixl.CsClientDeviceSlots
import Hixl.CsClientHostFailures
import Hixl.UbMemImportLedger
import Hixl.AsyncRequestNames
import Hixl.BufferClientSoundness
import Hixl.BufferContainment
import Hixl.BufferServerPool
import Hixl.ClientExclusivity
import Hixl.EngineBatchQuery
import Hixl.EngineStatusAgreement
import Hixl.ControlMsgFraming
import Hixl.SegmentSet
import Hixl.ClientRegions
import Hixl.TransferTypeChoice
import Hixl.AdxlEviction
import Hixl.AdxlEvictionChoice
import Hixl.AdxlChannelLimit
import Hixl.AdxlConnectGuard
import Hixl.AdxlSegmentFreshness
import Hixl.CacheManagerCalls
import Hixl.LayerWisePush
import Hixl.SwapBlocks
import Hixl.CommEntityManager
import Hixl.AdxlNotify
import Hixl.CacheTableFreshness
