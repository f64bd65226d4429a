import SimplefinBridge.Library.Runs
import SimplefinBridge.Library.Interleaving
import SimplefinBridge.Library.KeyedTable
import SimplefinBridge.Library.Transactional
import SimplefinBridge.Library.CivilDays
import SimplefinBridge.Library.Occurrences
import SimplefinBridge.Library.TextCodecs
import SimplefinBridge.Library.Timestamps
import SimplefinBridge.Library.Separators
import SimplefinBridge.Library.Sorting
import SimplefinBridge.Host
import SimplefinBridge.JsTexts
import SimplefinBridge.Types
import SimplefinBridge.Dates
import SimplefinBridge.DateTexts
import SimplefinBridge.Ids
import SimplefinBridge.Normalize
import SimplefinBridge.Ordinals
import SimplefinBridge.IdStability
import SimplefinBridge.Migrations
import SimplefinBridge.ConcurrentOpening
import SimplefinBridge.Consumers
import SimplefinBridge.CredentialRaces
import SimplefinBridge.AccessUrl
import SimplefinBridge.ClaimLifecycle
import SimplefinBridge.ArchiveInstallments
import SimplefinBridge.SqliteLedger
import SimplefinBridge.SyntheticPayments
import SimplefinBridge.FeedDates
import SimplefinBridge.Payload
import SimplefinBridge.Scheduler
import SimplefinBridge.Bookkeeping
import SimplefinBridge.FreezeSemantics
import SimplefinBridge.JsonStrings
import SimplefinBridge.Coalesce
import SimplefinBridge.MemoryLedger
import SimplefinBridge.Conservation
import SimplefinBridge.LockoutGuard
import SimplefinBridge.Coverage
import SimplefinBridge.RunIsolation
import SimplefinBridge.AtomicIngestion
import SimplefinBridge.PaymentsInStep
import SimplefinBridge.IdEncoding
import SimplefinBridge.Fingerprints
import SimplefinBridge.OrdinalLabels
import SimplefinBridge.StableIds
import SimplefinBridge.Library.Pairings
import SimplefinBridge.PaymentAmounts
import SimplefinBridge.Library.Statements
import SimplefinBridge.Library.Histories
import SimplefinBridge.InvestmentSchema
import SimplefinBridge.InvestmentStore
import SimplefinBridge.InvestmentClock
import SimplefinBridge.InvestmentWrites
import SimplefinBridge.InvestmentFrames
import SimplefinBridge.InvestmentRelations
import SimplefinBridge.InvestmentRevisions
import SimplefinBridge.StateRaces
import SimplefinBridge.FeedWindows
import SimplefinBridge.OtpBroker
import SimplefinBridge.OtpDelivery
import SimplefinBridge.OtpLeases
import SimplefinBridge.ManualRecovery
import SimplefinBridge.Library.Awaits
import SimplefinBridge.InvestmentRuntime
import SimplefinBridge.RuntimeChanges
import SimplefinBridge.RuntimeExclusion
import SimplefinBridge.ClalRecovery
import SimplefinBridge.SmsRetries
import SimplefinBridge.Library.Windows
import SimplefinBridge.LateDelivery
import SimplefinBridge.InvestmentOrder
import SimplefinBridge.Library.RollingLimits
import SimplefinBridge.RollingLimiters
import SimplefinBridge.Library.Csv
import SimplefinBridge.CsvExport
import SimplefinBridge.Library.Decimals
import SimplefinBridge.JsValues
import SimplefinBridge.SourceDecimals
import SimplefinBridge.Library.JsonTexts
import SimplefinBridge.BestInvestJson
import SimplefinBridge.Library.Replacements
import SimplefinBridge.Logging
import SimplefinBridge.ProviderValues
import SimplefinBridge.BestInvestSnapshot
import SimplefinBridge.ClalPortfolio
import SimplefinBridge.Library.Tallies
import SimplefinBridge.ClalActivities
import SimplefinBridge.ClalHistories
import SimplefinBridge.ActivityConservation
import SimplefinBridge.ClalAcceptance
import SimplefinBridge.Library.Reorderings
import SimplefinBridge.ReorderedHistories
import SimplefinBridge.InvestmentIds
import SimplefinBridge.Library.Segments
import SimplefinBridge.MytradeRequests
import SimplefinBridge.Library.Paging
import SimplefinBridge.HapoalimPages
import SimplefinBridge.HapoalimExecutions
import SimplefinBridge.InvestmentFeed
import SimplefinBridge.HapoalimArchive
import SimplefinBridge.Library.Agreements
import SimplefinBridge.StoredRecords
import SimplefinBridge.FeedReadability
import SimplefinBridge.RetainedReports
import SimplefinBridge.CollectedSnapshots
import SimplefinBridge.CollectedPortfolios
import SimplefinBridge.ClalReports
import SimplefinBridge.CollectedImports
import SimplefinBridge.ProfileLock
import SimplefinBridge.OtpInput
import SimplefinBridge.ConsumerAccess
import SimplefinBridge.BridgeHealth
import SimplefinBridge.BridgeServer
import SimplefinBridge.InvestmentRouters
import SimplefinBridge.InvestmentAccess
import SimplefinBridge.OtpExchange
import SimplefinBridge.ScrapeRun
import SimplefinBridge.StoredTexts
