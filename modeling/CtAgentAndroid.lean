import CtAgentAndroid.Outcome
import CtAgentAndroid.Automaton
import CtAgentAndroid.SealedChannel
import CtAgentAndroid.TransportFallback
import CtAgentAndroid.CallAttempt
import CtAgentAndroid.TransportRuns
import CtAgentAndroid.TransportVisibility
import CtAgentAndroid.TransportAbandonment
import CtAgentAndroid.TransportRace
import CtAgentAndroid.Bytes
import CtAgentAndroid.Hex
import CtAgentAndroid.PrefixCode
import CtAgentAndroid.IncrementalReader
import CtAgentAndroid.SignalWire
import CtAgentAndroid.SignalCodec
import CtAgentAndroid.SignalStream
import CtAgentAndroid.SignalOverflow
import CtAgentAndroid.NoiseSession
import CtAgentAndroid.NoiseLifecycle
import CtAgentAndroid.NoiseSharing
import CtAgentAndroid.HexText
import CtAgentAndroid.HexDecoding
import CtAgentAndroid.HexEncoding
import CtAgentAndroid.ChannelJoin
import CtAgentAndroid.SignalDistinct
import CtAgentAndroid.SignalSession
import CtAgentAndroid.TransportProgress
import CtAgentAndroid.BatchMap
import CtAgentAndroid.KeyStoreIdentity
import CtAgentAndroid.AppLaunch
import CtAgentAndroid.WriteBehind
import CtAgentAndroid.WriteOnce
import CtAgentAndroid.IdentityDurability
import CtAgentAndroid.EmittedKeys
import CtAgentAndroid.NoiseChannel
import CtAgentAndroid.CountedNoise
import CtAgentAndroid.NoiseDelivery
import CtAgentAndroid.HandshakeTurns
import CtAgentAndroid.ScriptedNoise
import CtAgentAndroid.HandshakeRuns
import CtAgentAndroid.CallSetup
import CtAgentAndroid.CallProgress
import CtAgentAndroid.HandshakeAgreement
import CtAgentAndroid.TransportReachability
import CtAgentAndroid.TransportObservation
import CtAgentAndroid.DeviceLaunches
import CtAgentAndroid.LaunchScreens
import CtAgentAndroid.StoredKeys
import CtAgentAndroid.DeviceCall
import CtAgentAndroid.Android
import CtAgentAndroid.PlainAndroid
import CtAgentAndroid.IncomingCall
import CtAgentAndroid.IncomingCallRuns
import CtAgentAndroid.RingingScreen
import CtAgentAndroid.IceServers
