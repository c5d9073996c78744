import RealtimeServer.Lib.Run
import RealtimeServer.Lib.Unordered
import RealtimeServer.Lib.Tally
import RealtimeServer.Core.Connections
import RealtimeServer.Core.HandleRecv
import RealtimeServer.Core.TrafficPolicy
import RealtimeServer.Core.Accept
import RealtimeServer.Game.Broadcast
import RealtimeServer.Game.Phases
import RealtimeServer.Game.RoomRuns
import RealtimeServer.Game.Rejoin
import RealtimeServer.Game.Validated
import RealtimeServer.Game.Departed
import RealtimeServer.Game.Placement
import RealtimeServer.Game.IdleRooms
import RealtimeServer.Game.Replies
import RealtimeServer.Game.RoomStateView
import RealtimeServer.Game.Snapshots
import RealtimeServer.Game.StartCondition
import RealtimeServer.Core.StreamOrder
import RealtimeServer.Core.ClientStream
import RealtimeServer.Packet.TestClient
import RealtimeServer.Core.Outbound
import RealtimeServer.Game.Agreement
import RealtimeServer.Core.Requests
import RealtimeServer.Core.Answers
import RealtimeServer.Core.Counters
import RealtimeServer.Core.Chats
import RealtimeServer.Core.Lifecycle
import RealtimeServer.Core.Heartbeat
import RealtimeServer.Core.Timeouts
import RealtimeServer.Core.Reports
import RealtimeServer.Core.References
import RealtimeServer.Core.ConformingRate
import RealtimeServer.Core.PolicyPull
import RealtimeServer.Game.IdleSlots
import RealtimeServer.Game.RoomList
import RealtimeServer.Game.Switching
import RealtimeServer.Game.Winner
import RealtimeServer.Utils.AuthJson
import RealtimeServer.Utils.Config
import RealtimeServer.Utils.HttpClient
import RealtimeServer.Utils.Logger
import RealtimeServer.Utils.LogOrder
import RealtimeServer.Utils.JobQueue
import RealtimeServer.Utils.ObjectPool
