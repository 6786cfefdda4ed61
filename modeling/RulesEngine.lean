import RulesEngine.Foundations.TransitionSystem
import RulesEngine.Foundations.KeyedTable
import RulesEngine.Foundations.LookAside
import RulesEngine.Foundations.PairedLists
import RulesEngine.Foundations.Settlement
import RulesEngine.Foundations.PartialUpdates
import RulesEngine.Foundations.Paging
import RulesEngine.Foundations.Json
import RulesEngine.Foundations.JsonPaths
import RulesEngine.Foundations.OverlayLaws
import RulesEngine.Foundations.TimeValue
import RulesEngine.Foundations.Calendar
import RulesEngine.Foundations.DecimalText
import RulesEngine.Foundations.Ruler
import RulesEngine.Foundations.UuidText
import RulesEngine.AlertEvents
import RulesEngine.AlertsService
import RulesEngine.AlertHistory
import RulesEngine.AlertInterleaving
import RulesEngine.AlertLedger
import RulesEngine.AlertUniqueness
import RulesEngine.AlertDecisions
import RulesEngine.AlertDedupKeys
import RulesEngine.AlertWindows
import RulesEngine.AlertWindowUnits
import RulesEngine.ActionHandlers
import RulesEngine.Database
import RulesEngine.RuleConfiguration
import RulesEngine.ConfigurationInheritance
import RulesEngine.MergeLaws
import RulesEngine.ListsService
import RulesEngine.FactProviders
import RulesEngine.TransactionHistory
import RulesEngine.AggregationOperators
import RulesEngine.EngineService
import RulesEngine.RuleConditions
import RulesEngine.TransactionsService
import RulesEngine.Application
import RulesEngine.EvaluationHonesty
import RulesEngine.EvaluationAgreement
import RulesEngine.AccountRoutes
import RulesEngine.SettledEvaluations
import RulesEngine.AlertDelivery
import RulesEngine.EventAttribution
import RulesEngine.AlertTenantIsolation
import RulesEngine.TenantViews
import RulesEngine.StoredAmounts
import RulesEngine.HistoryLedger
import RulesEngine.UpdateInterleaving
import RulesEngine.PaginatedQueries
import RulesEngine.TenantWrites
import RulesEngine.ListExpiry
import RulesEngine.CacheTransparency
import RulesEngine.OrganizationHeader
import RulesEngine.CacheInterleaving
import RulesEngine.CacheCoherence
import RulesEngine.CacheStaleness
import RulesEngine.TenantNoninterference
import RulesEngine.AlertQueue
import RulesEngine.AuditTrail
import RulesEngine.ConfigurationImpact
import RulesEngine.DatabaseWrites
import RulesEngine.ReferentialIntegrity
import RulesEngine.TransactionQueue
import RulesEngine.Foundations.AcknowledgedQueue
import RulesEngine.Foundations.Accesses
import RulesEngine.WriteAccesses
import RulesEngine.WriteOrigins
import RulesEngine.WriteEffects
import RulesEngine.WriteInterleaving
import RulesEngine.AlertProvenance
import RulesEngine.AlertPipeline
import RulesEngine.PipelineDelivery
import RulesEngine.ListLedger
import RulesEngine.RuleOperators
import RulesEngine.RuleLanguage
import RulesEngine.TransactionLedger
import RulesEngine.RuleTests
import RulesEngine.RuleMeaning
import RulesEngine.Organizations
