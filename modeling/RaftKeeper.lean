import RaftKeeper.Dispatcher.ForwardConnection
import RaftKeeper.Dispatcher.Handshake
import RaftKeeper.Dispatcher.Reconnect
import RaftKeeper.Dispatcher.RequestForwarder
import RaftKeeper.Dispatcher.ResponseSending
import RaftKeeper.Dispatcher.WriteOrder
import RaftKeeper.Dispatcher.ZxidSeen
import RaftKeeper.Log.FlushTarget
import RaftKeeper.Log.Startup
import RaftKeeper.Processor.AuthOrder
import RaftKeeper.Processor.Draining
import RaftKeeper.Processor.Failures
import RaftKeeper.Processor.SingleAnswer
import RaftKeeper.StateMachine.ReplayCompleteness
import RaftKeeper.StateMachine.ReplayProgress
import RaftKeeper.StateMachine.SnapshotCut
import RaftKeeper.Store.AclCounts
import RaftKeeper.Store.Confidentiality
import RaftKeeper.Store.MultiAuth
import RaftKeeper.Store.Reads
import RaftKeeper.Store.SessionExpiry
import RaftKeeper.Store.Versions
import RaftKeeper.Store.WatchDelivery
import RaftKeeper.Store.WatchIndexes
import RaftKeeper.ZooKeeper.MultiRequest
