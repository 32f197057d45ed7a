import Rec53.CnameChain
import Rec53.LastMessage
import Rec53.ErrorReply
import Rec53.LocalRules
import Rec53.RecordLife
import Rec53.Delegations
import Rec53.FastPathExpiry
import Rec53.FastPathAgreement
import Rec53.CachedReplies
import Rec53.CacheSnapshot
import Rec53.QueryWork
import Rec53.ReplyHeader
import Rec53.UpstreamGate
import Rec53.HotZone
import Rec53.HotZoneEvidence
import Rec53.LimiterAccounting
import Rec53.ObserveMode
import Rec53.CacheShape
import Rec53.DelegationCover
import Rec53.QueriedAddresses
import Rec53.WireName
import Rec53.XdpParser
import Rec53.IPQuality
import Rec53.ServerDemotion
import Rec53.CacheLifetime
import Rec53.RuntimePhase
import Rec53.AcceptedQuestion
import Rec53.TransitionMetrics
import Rec53.NameCase
import Rec53.ZoneProtection
import Rec53.XdpReply
import Rec53.RingWindow
import Rec53.LatencyWindow
import Rec53.SliceSort
import Rec53.IPPool
import Rec53.HostsTable
import Rec53.CachedChain
import Rec53.DomainName
import Rec53.ZoneWalk
import Rec53.ForwardChoice
import Rec53.TruncatedAnswers
import Rec53.OnesComplement
import Rec53.XdpChecksum
import Rec53.AccessLog
import Rec53.XdpBounds
import Rec53.CpuSampler
import Rec53.BestScan
import Rec53.HotspotChoice
import Rec53.ZoneKeys
import Rec53.WindowMeter
import Rec53.OccupancyAccounting
import Rec53.LimitWarnings
import Rec53.FanOut
import Rec53.DomainTrace
import Rec53.CacheFamilies
import Rec53.RaceOutcome
import Rec53.ServerLife
import Rec53.ServerInvariants
import Rec53.ServerShutdown
import Rec53.ConcurrentPool
import Rec53.PoolUpkeep
import Rec53.FastPathUpkeep
import Rec53.Warmup
import Rec53.HonestServers
import Rec53.TruthfulReplies
import Rec53.ResolutionProgress
import Rec53.ShardedLimiter
