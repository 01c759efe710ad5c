import Telekit.DataChannelIntegrity
import Telekit.ByteAccounting
import Telekit.ReplaySafety
import Telekit.NonceUniqueness
import Telekit.HelloRejection
import Telekit.BrokerRooms
import Telekit.MqttSubscriptions
import Telekit.TransportChoice
import Telekit.Disclosure
import Telekit.ClientConsistency
import Telekit.ClientStream
import Telekit.DisconnectFinality
import Telekit.AnswerWindow
import Telekit.DerivationContexts
import Telekit.AssociatedData
import Telekit.RawUdp
import Telekit.WritePartition
import Telekit.PacketDelivery
import Telekit.ServerShutdown
import Telekit.BlockedReaders
import Telekit.LeaseKeys
import Telekit.KcpWindow
import Telekit.CentrifugoSubscriptions
import Telekit.MqttDispatch
import Telekit.BrokerAccounting
import Telekit.WorkersAccounting
import Telekit.WebSocketDisconnect
import Telekit.CallbackTasks
import Telekit.NatsBackoff
import Telekit.SctpSession
import Telekit.RelayPackets
import Telekit.Pacer
