import RetailSegmentation.ProgramSyntax
import RetailSegmentation.ProgramInterference
import RetailSegmentation.TransactionTables
import RetailSegmentation.ProgramProtocol
import RetailSegmentation.TransactionServer
import RetailSegmentation.ClusterLabels
import RetailSegmentation.LabelPairing
import RetailSegmentation.IndexedTables
import RetailSegmentation.KMeans
import RetailSegmentation.KMeansPostcondition
import RetailSegmentation.SquaredDeviations
import RetailSegmentation.KMeansDescent
import RetailSegmentation.KMeansOrder
import RetailSegmentation.SegmentMigration
import RetailSegmentation.ModelComparison
import RetailSegmentation.SegmentFlow
import RetailSegmentation.MigrationOrder
import RetailSegmentation.TiledRanks
import RetailSegmentation.SegmentScoring
import RetailSegmentation.SegmentHeatmap
import RetailSegmentation.DatabaseErrors
import RetailSegmentation.SalesSchema
import RetailSegmentation.SalesStatements
import RetailSegmentation.SalesIngestion
import RetailSegmentation.SalesPosting
import RetailSegmentation.SalesLedger
import RetailSegmentation.SalesLoad
import RetailSegmentation.CsvReader
import RetailSegmentation.SalesCsvLines
import RetailSegmentation.SalesSpelling
import RetailSegmentation.SalesVerdicts
import RetailSegmentation.SalesService
import RetailSegmentation.SalesTables
import RetailSegmentation.SalesStock
import RetailSegmentation.SalesRefusals
import RetailSegmentation.SalesStockRuns
import RetailSegmentation.SalesConservation
import RetailSegmentation.SalesReplay
import RetailSegmentation.SalesReplayRuns
import RetailSegmentation.KitErrors
import RetailSegmentation.PreferenceSets
import RetailSegmentation.PreferenceRuns
import RetailSegmentation.PreferenceReplaced
import RetailSegmentation.CheckIns
import RetailSegmentation.CheckInRuns
import RetailSegmentation.CheckInRecorded
import RetailSegmentation.CampaignHistory
import RetailSegmentation.CampaignWriters
import RetailSegmentation.CampaignRuns
import RetailSegmentation.CampaignLifecycle
import RetailSegmentation.CampaignActivation
import RetailSegmentation.UserDirectory
import RetailSegmentation.AdministratorSeat
import RetailSegmentation.AncestorWalk
import RetailSegmentation.AuditActor
import RetailSegmentation.GroupedRows
import RetailSegmentation.RecommendationRule
import RetailSegmentation.UsersService
import RetailSegmentation.UsersServiceRuns
import RetailSegmentation.UsersServiceAdministrator
import RetailSegmentation.UsersWeb
import RetailSegmentation.UsersWebAdministrator
import RetailSegmentation.RedisStore
import RetailSegmentation.AuthSessions
import RetailSegmentation.AuthSessionKeys
import RetailSegmentation.AuthSessionSteps
import RetailSegmentation.AuthSessionIndex
import RetailSegmentation.AuthSessionRuns
import RetailSegmentation.AuthSessionCalls
import RetailSegmentation.AuthRefresh
import RetailSegmentation.AuthIndexRuns
import RetailSegmentation.FloorPhone
import RetailSegmentation.FloorSessions
import RetailSegmentation.FloorOutbox
import RetailSegmentation.FloorQueueRuns
import RetailSegmentation.FloorResponder
import RetailSegmentation.FloorQueue
import RetailSegmentation.FloorUsersRuns
import RetailSegmentation.FloorUsers
import RetailSegmentation.RecommendationRows
import RetailSegmentation.RecommendationPort
import RetailSegmentation.RecommendationRanking
import RetailSegmentation.ConsumptionShift
import RetailSegmentation.ConsumptionShiftReport
import RetailSegmentation.ConsumptionShiftProfile
import RetailSegmentation.ConsumptionShiftAgreement
import RetailSegmentation.RoundRobin
import RetailSegmentation.ExperimentAssignment
import RetailSegmentation.ExperimentConversions
import RetailSegmentation.ExperimentUplift
import RetailSegmentation.IntentToTreat
import RetailSegmentation.CustomerTimeline
import RetailSegmentation.OrderedDict
import RetailSegmentation.LoginThrottle
import RetailSegmentation.LoginThrottleWindow
import RetailSegmentation.OldestFirst
import RetailSegmentation.OutboxRelay
import RetailSegmentation.OutboxProgress
import RetailSegmentation.ImageUploads
import RetailSegmentation.PngGrammar
import RetailSegmentation.SalesLockOrder
import RetailSegmentation.SalesBasket
import RetailSegmentation.SalesAcceptance
import RetailSegmentation.SalesAnswers
import RetailSegmentation.SalesUncaught
import RetailSegmentation.TextCodes
import RetailSegmentation.IsoTimes
import RetailSegmentation.JsonStrings
import RetailSegmentation.SalesIdentity
import RetailSegmentation.XmlReader
import RetailSegmentation.XmlRendering
import RetailSegmentation.XmlServing
import RetailSegmentation.XmlBodies
import RetailSegmentation.XmlNumbers
import RetailSegmentation.XmlAgreement
import RetailSegmentation.Pagination
import RetailSegmentation.RateLimit
import RetailSegmentation.ContentHistory
import RetailSegmentation.StoreDirectory
import RetailSegmentation.CategoryTree
import RetailSegmentation.CategoryCache
import RetailSegmentation.PasswordChange
import RetailSegmentation.SegmentReads
import RetailSegmentation.JwksStore
import RetailSegmentation.AccessChanges
import RetailSegmentation.AccessBatches
import RetailSegmentation.EngagementDays
import RetailSegmentation.RootedTrees
import RetailSegmentation.DesktopCategories
import RetailSegmentation.Rfc4180
import RetailSegmentation.DesktopExports
import RetailSegmentation.PagedRows
import RetailSegmentation.EngagementPages
import RetailSegmentation.RedactedTrees
import RetailSegmentation.AuditPayloads
import RetailSegmentation.FirstBest
import RetailSegmentation.AcceptHeaders
import RetailSegmentation.ProgramCuts
import RetailSegmentation.FloorOpening
import RetailSegmentation.FloorScans
import RetailSegmentation.FloorSales
import RetailSegmentation.ExperimentPages
import RetailSegmentation.PythonIntegers
import RetailSegmentation.WholeNumbers
import RetailSegmentation.FormQuery
import RetailSegmentation.ProductFilters
import RetailSegmentation.IntegerFilters
import RetailSegmentation.LikePatterns
import RetailSegmentation.SearchPatterns
import RetailSegmentation.KMeansSeeds
import RetailSegmentation.WebListings
import RetailSegmentation.MigrationExplanations
import RetailSegmentation.UrlReferences
import RetailSegmentation.SafeReturns
import RetailSegmentation.OutboxDelivery
import RetailSegmentation.OutboxPasses
import RetailSegmentation.TemporalRows
import RetailSegmentation.SegmentRuns
import RetailSegmentation.SegmentHistory
import RetailSegmentation.SegmentRunsRecorded
import RetailSegmentation.SegmentRunResults
import RetailSegmentation.RecentMemory
import RetailSegmentation.StreamConsumer
import RetailSegmentation.StreamGroups
import RetailSegmentation.StreamDiscipline
import RetailSegmentation.StreamPasses
import RetailSegmentation.CategoryHierarchy
