import WovenTeam.ReadModels
import WovenTeam.Store.Append
import WovenTeam.Store.Lease
import WovenTeam.Store.Events
import WovenTeam.Roomd.Reclaim
import WovenTeam.Roomd.RemoteLease
import WovenTeam.Roomd.RemoteReport
import WovenTeam.Roomd.AsAllowed
import WovenTeam.Roomd.Capacity
import WovenTeam.Roomd.Budgets
import WovenTeam.Roomd.LedgerStream
import WovenTeam.Roomd.PostConfig
import WovenTeam.Room.Stream
import WovenTeam.Autonomy
import WovenTeam.Renewal
import WovenTeam.Claimers
import WovenTeam.Redaction
import WovenTeam.Package
import WovenTeam.Audit
import WovenTeam.Store.Release
import WovenTeam.ExactPolicy
import WovenTeam.Starvation
import WovenTeam.Roomd.Reroute
import WovenTeam.Deliverable
import WovenTeam.Roomd.ShipGate
import WovenTeam.ShellCommands
import WovenTeam.Attempts
import WovenTeam.Dependents
import WovenTeam.RedactedText
import WovenTeam.TokenHash
import WovenTeam.Roomd.AcceptedArtifact
import WovenTeam.Roomd.Routing
import WovenTeam.Roomd.FailedReads
import WovenTeam.Roomd.ReadRequest
import WovenTeam.Roomd.DeliverableRoot
import WovenTeam.Roomd.CompactReads
import WovenTeam.FlatObjects
import WovenTeam.Roomd.ClientRecords
import WovenTeam.Roomd.Concurrent
import WovenTeam.Roomd.TokenWindows
import WovenTeam.Room.Recent
import WovenTeam.Room.ParentDirs
import WovenTeam.Roomd.CommaLists
import WovenTeam.ScanCounts
import WovenTeam.EventCounts
import WovenTeam.Room.MessagesJson
import WovenTeam.Room.Agents
import WovenTeam.ReadJson
import WovenTeam.Roomd.TrustedPath
import WovenTeam.Roomd.Lasting
import WovenTeam.Roomd.EventFeed
import WovenTeam.BoardPages
import WovenTeam.Agent.Recovery
