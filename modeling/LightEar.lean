import LightEar.Foundation.Effect
import LightEar.Core
import LightEar.MusicState
import LightEar.BufferState
import LightEar.PlaybackHealth
import LightEar.Backend.Music
import LightEar.Backend.State
import LightEar.Backend.Buffer
import LightEar.Backend.Vote
import LightEar.Backend.Playback
import LightEar.Backend.Wire
import LightEar.Backend.Step
import LightEar.Backend.Moves
import LightEar.VoteOrder
import LightEar.BufferHistory
import LightEar.CommitSafety
import LightEar.Orphan
import LightEar.SessionRest
import LightEar.VoteLeftover
import LightEar.Crossing
import LightEar.TornCommit
import LightEar.Foundation.LayeredSort
import LightEar.Chat
import LightEar.ChatRoom
import LightEar.Foundation.GuardedRun
import LightEar.QueueRoom
import LightEar.QueueKeys
import LightEar.QueueClock
import LightEar.PromotionHistory
import LightEar.EnqueueChain
import LightEar.StartedItem
import LightEar.QueueHandlers
import LightEar.Foundation.GracePeriod
import LightEar.HealthHistory
import LightEar.HealthReports
import LightEar.ReAnchoring
import LightEar.Redelivery
import LightEar.FollowerWait
import LightEar.Foundation.History
import LightEar.ConnectionState
import LightEar.ConnectionReactions
import LightEar.ConnectionHistory
import LightEar.Foundation.Tally
import LightEar.VoteLook
import LightEar.VoteHistory
import LightEar.VoteMajority
import LightEar.VoteExecution
import LightEar.VoteConfluence
import LightEar.BufferQuorum
import LightEar.Foundation.RetryLedger
import LightEar.Foundation.SlidingWindow
import LightEar.StreamingPcm
import LightEar.StreamingReader
import LightEar.StreamingDecode
import LightEar.Foundation.Coalesce
import LightEar.MediaRanges
import LightEar.StreamingBytes
import LightEar.StreamingDownload
import LightEar.ServedRequests
import LightEar.CancelAuthority
import LightEar.Foundation.TopK
import LightEar.ChatRetention
import LightEar.ChatConvergence
import LightEar.ChatInsertion
import LightEar.ChatMessages
import LightEar.HistoryExchange
import LightEar.PeerNames
import LightEar.PlaybackClock
import LightEar.StaleVotes
import LightEar.PlayerEvents
import LightEar.QueueVotes
import LightEar.RangeQueries
import LightEar.MediaReads
import LightEar.PcmDrift
import LightEar.Foundation.Text
import LightEar.RangeProbe
import LightEar.Foundation.Utf8
import LightEar.BvId
import LightEar.Foundation.StableSort
import LightEar.MediaSelection
import LightEar.MixinKey
import LightEar.LogFilename
import LightEar.ByteWindows
import LightEar.RequestedOffsets
import LightEar.Foundation.Deadlines
import LightEar.ZeroPeerRecovery
import LightEar.DirectAddresses
import LightEar.Foundation.Gossip
import LightEar.ChatGossip
import LightEar.QueueAgreement
import LightEar.Foundation.FileReader
import LightEar.MediaSources
import LightEar.RelayTopology
import LightEar.RelayHistory
import LightEar.Foundation.Spacing
import LightEar.SyncAnnouncements
import LightEar.RangeRetry
import LightEar.WebStream
import LightEar.Foundation.PercentEncoding
import LightEar.Foundation.Fields
import LightEar.SignedQuery
import LightEar.TrackResolution
import LightEar.Foundation.Words
import LightEar.ShortLinks
import LightEar.Foundation.Eviction
import LightEar.CacheFiles
import LightEar.Overdue
import LightEar.Foundation.WorkQueue
import LightEar.Swarm
import LightEar.SwarmEffects
import LightEar.SwarmEvents
import LightEar.SwarmHistory
import LightEar.GossipPeers
import LightEar.PeerSearch
