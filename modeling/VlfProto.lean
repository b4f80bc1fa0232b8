import VlfProto.Auth.Binding
import VlfProto.Auth.ReplayWindow
import VlfProto.Client.ControlStream
import VlfProto.Client.Delivery
import VlfProto.Client.Download
import VlfProto.Client.FailReasons
import VlfProto.Client.PendingAnswers
import VlfProto.Client.PushPayload
import VlfProto.Client.Signing
import VlfProto.Link.DroppedFlows
import VlfProto.Link.FailedOpens
import VlfProto.Policy.Admission
import VlfProto.Policy.Agreement
import VlfProto.Policy.PermitRate
import VlfProto.Policy.SurvivalStay
import VlfProto.Relay.Acknowledged
import VlfProto.Relay.EndOfStream
import VlfProto.Relay.Mortality
import VlfProto.Relay.Noninterference
import VlfProto.Relay.PollingRun
import VlfProto.Relay.QueueClose
import VlfProto.Relay.RingQueue
import VlfProto.Relay.Sending
import VlfProto.Relay.SlotHolders
import VlfProto.Relay.WindowBound
import VlfProto.Session.OpenDiscipline
import VlfProto.Session.QUIC.QueueGauge
import VlfProto.Session.QUIC.SequentialRuns
import VlfProto.Session.RoundTrip
import VlfProto.Session.Splicing
import VlfProto.Session.TCP.Leaks
import VlfProto.Session.TCP.UploadRuns
import VlfProto.Session.Unregistered
import VlfProto.SocksClient.NATGauge
import VlfProto.SocksClient.Negotiation
import VlfProto.Store.Firing
import VlfProto.Transit.TCPTransparent
import VlfProto.Transit.UDPSessions
import VlfProto.TunClient.ClientRuns
import VlfProto.TunClient.UDPBalance
import VlfProto.ALPN
import VlfProto.Client.Shutdown
