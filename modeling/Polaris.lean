import Polaris.AgentChannel
import Polaris.AgentConfig
import Polaris.AgentEtags
import Polaris.AgentTokens
import Polaris.AssetEffects
import Polaris.AssetIndexing
import Polaris.AssetInvariants
import Polaris.AssetLookup
import Polaris.AssetProjection
import Polaris.AssetQuarantine
import Polaris.AssetStore
import Polaris.AssetSync
import Polaris.Auth
import Polaris.AuthRoutes
import Polaris.AutoMonitor
import Polaris.BulkPreview
import Polaris.CapacityAdvisor
import Polaris.Cidr
import Polaris.CidrAllocation
import Polaris.CidrEnumeration
import Polaris.CidrFirstFit
import Polaris.CidrPlacement
import Polaris.CidrPredicates
import Polaris.CidrValidation
import Polaris.ClusterIdentity
import Polaris.ClusterSync
import Polaris.ConflictFailures
import Polaris.ConflictMerge
import Polaris.ConflictRaces
import Polaris.ConflictResolution
import Polaris.ConnectionPaths
import Polaris.Credentials
import Polaris.DecommissionEvidence
import Polaris.DependencyChains
import Polaris.DependencyCycles
import Polaris.DependencyLayers
import Polaris.DependencyOutages
import Polaris.DependencyOverrides
import Polaris.DependencySuppression
import Polaris.DependencyTree
import Polaris.DeviceEntries
import Polaris.DhcpAssociation
import Polaris.DirectorySync
import Polaris.DirectoryTables
import Polaris.DiscoveryDispatch
import Polaris.DiscoveryDurations
import Polaris.DiscoveryFilters
import Polaris.DnsCodec
import Polaris.DnsResolved
import Polaris.DnsSafety
import Polaris.DnsSweep
import Polaris.DnsWire
import Polaris.EndpointBlobs
import Polaris.EnvFile
import Polaris.FmgWorker
import Polaris.FullSubnetClaims
import Polaris.GatewayKnowledge
import Polaris.GatewayRaces
import Polaris.GatewaySync
import Polaris.GatewayWrites
import Polaris.HistoryRates
import Polaris.HistoryStats
import Polaris.HostnameEdits
import Polaris.HostnameLookup
import Polaris.IntegrationFilter
import Polaris.LastAdmin
import Polaris.Lib.Aggregates
import Polaris.Lib.Assoc
import Polaris.Lib.Batches
import Polaris.Lib.Bytes
import Polaris.Lib.Chains
import Polaris.Lib.Checks
import Polaris.Lib.Commits
import Polaris.Lib.Digits
import Polaris.Lib.EcmaRegExp
import Polaris.Lib.Faults
import Polaris.Lib.Jobs
import Polaris.Lib.Joins
import Polaris.Lib.Keyed
import Polaris.Lib.Lines
import Polaris.Lib.Linking
import Polaris.Lib.Loops
import Polaris.Lib.Packing
import Polaris.Lib.Paging
import Polaris.Lib.PrefixBlock
import Polaris.Lib.Priority
import Polaris.Lib.Probe
import Polaris.Lib.Quantile
import Polaris.Lib.Reach
import Polaris.Lib.Regex
import Polaris.Lib.Rollup
import Polaris.Lib.Rounding
import Polaris.Lib.Rounds
import Polaris.Lib.Runs
import Polaris.Lib.Series
import Polaris.Lib.Slots
import Polaris.Lib.Snapshots
import Polaris.Lib.Store
import Polaris.Lib.Streaks
import Polaris.Lib.Summaries
import Polaris.Lib.Text
import Polaris.Lib.Trim
import Polaris.Lib.TwoRuns
import Polaris.Lib.Views
import Polaris.Lib.Walks
import Polaris.Lib.Worklist
import Polaris.LoginFailures
import Polaris.LoginGuesses
import Polaris.LoginLockout
import Polaris.LoginLocks
import Polaris.LoginRequests
import Polaris.LoginTotpRaces
import Polaris.Mac
import Polaris.MacBatches
import Polaris.MacReconcile
import Polaris.ManualReservations
import Polaris.ManufacturerAliases
import Polaris.ManufacturerBackfill
import Polaris.ManufacturerNormalize
import Polaris.MapRegionTags
import Polaris.MapRegions
import Polaris.MfaPending
import Polaris.MibComments
import Polaris.MibOpacity
import Polaris.MibParserUtils
import Polaris.MibRegistry
import Polaris.MibService
import Polaris.MigrationRuns
import Polaris.MonitorReports
import Polaris.MonitorSettings
import Polaris.MonitorStatus
import Polaris.Netmask
import Polaris.NextAvailable
import Polaris.OidPrecedence
import Polaris.OidRegistry
import Polaris.OidScope
import Polaris.OrphanEntries
import Polaris.Permissions
import Polaris.ProjectionSources
import Polaris.PtrNames
import Polaris.QuarantineAtomicity
import Polaris.QuarantineOwnership
import Polaris.QuarantinePush
import Polaris.QuarantineRuns
import Polaris.RefreshView
import Polaris.ReservationAddresses
import Polaris.ReservationAgreement
import Polaris.ReservationAtomicity
import Polaris.ReservationClaims
import Polaris.ReservationConflicts
import Polaris.ReservationDescription
import Polaris.ReservationLifecycle
import Polaris.ReservationPending
import Polaris.ReservationPush
import Polaris.ReservationQueue
import Polaris.ReservationRaces
import Polaris.ReservationService
import Polaris.ReservationStale
import Polaris.ReservationSync
import Polaris.ReservationTracking
import Polaris.Reservations
import Polaris.RoleFreshness
import Polaris.RoleService
import Polaris.SampleHistory
import Polaris.SampleQueryRouter
import Polaris.SampleRetentionService
import Polaris.SampleRollup
import Polaris.SampleRollupDays
import Polaris.SampleRollupRuns
import Polaris.SampleStreams
import Polaris.SampleWriteBuffer
import Polaris.ScopeLookup
import Polaris.SettingsMigrated
import Polaris.SettingsMigration
import Polaris.SidLinks
import Polaris.Sightings
import Polaris.StaleSweep
import Polaris.SubnetDiscovery
import Polaris.SubnetPlan
import Polaris.SubnetRaces
import Polaris.SubnetRefresh
import Polaris.SubnetRuns
import Polaris.SubnetService
import Polaris.TierSettings
import Polaris.TlsVerification
import Polaris.Transport
import Polaris.Utilization
import Polaris.Wildcards
import Polaris.WorkHistogram
import Polaris.WorkerSlots
