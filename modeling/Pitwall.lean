import Pitwall.Library.Grouping
import Pitwall.Core.Workloads
import Pitwall.Cost.BudgetGate
import Pitwall.Cost.BudgetCap
import Pitwall.Core.Ledger
import Pitwall.Cost.MonthViews
import Pitwall.Cost.Alerts
import Pitwall.Cost.CostDaily
import Pitwall.Core.Text
import Pitwall.Cost.ReconcileCost
import Pitwall.Cost.TruthUp
import Pitwall.Cost.SyncGate
import Pitwall.Core.Inference
import Pitwall.Core.Requests
import Pitwall.Core.Admission
import Pitwall.Core.Absorbing
import Pitwall.RunPod.Pods
import Pitwall.RunPod.PodLeaks
import Pitwall.Leases.Leases
import Pitwall.Leases.Mutations
import Pitwall.Leases.ExactlyOnce
import Pitwall.Leases.Launch
import Pitwall.Leases.Reservation
import Pitwall.Leases.OnePod
import Pitwall.Leases.Teardown
import Pitwall.Leases.Moves
import Pitwall.Leases.StateMachine
import Pitwall.Reconciler.LeaseExpiry
import Pitwall.Reconciler.Expired
import Pitwall.Reconciler.Renewed
import Pitwall.Retention.Archive
import Pitwall.Retention.NothingLost
import Pitwall.Retention.Purge
import Pitwall.Retention.BudgetReopened
import Pitwall.Cost.DailyHistory
import Pitwall.Cost.OrderlyHistory
import Pitwall.Webhooks.Receiver
import Pitwall.Webhooks.NotLost
import Pitwall.Webhooks.Dispatcher
import Pitwall.Reconciler.Terminal
import Pitwall.Reconciler.Poll
import Pitwall.Reconciler.PathsAgree
import Pitwall.Reconciler.PollerSafety
import Pitwall.Reconciler.Stranded
import Pitwall.Core.CancelRace
import Pitwall.Core.CancelsAgree
import Pitwall.Routing.PlanSafety
import Pitwall.Routing.OrderIndependence
import Pitwall.Routing.Replay
import Pitwall.Resolver.Service
import Pitwall.Resolver.Eligibility
import Pitwall.Core.CanonicalJson
import Pitwall.Api.CreateInference
import Pitwall.Api.KeyedRows
import Pitwall.Api.SameRetry
import Pitwall.Api.KeyBinds
import Pitwall.Cost.Estimator
import Pitwall.Routing.CooldownRuns
import Pitwall.Cost.CircuitBreaker
import Pitwall.RateLimits.Store
import Pitwall.RateLimits.BucketInvariant
import Pitwall.RateLimits.Versions
import Pitwall.RateLimits.Conservation
import Pitwall.RateLimits.Limiter
import Pitwall.RateLimits.AcquireWait
import Pitwall.Cost.SubBudgets
import Pitwall.Cost.SubBudgetCap
import Pitwall.Library.Fresh
import Pitwall.Resolver.Registry
import Pitwall.Resolver.Completeness
import Pitwall.Routing.OpenAI
import Pitwall.Routing.Fallback
import Pitwall.Routing.FallbackOutcomes
import Pitwall.Routing.Prewarm
import Pitwall.Routing.CanarySafety
import Pitwall.Routing.FailoverCleanup
import Pitwall.Api.OpenAIProxy
import Pitwall.Api.ProxyCooldown
import Pitwall.Api.Authorization
import Pitwall.Api.ProxyCredentials
import Pitwall.Api.ProxyLedger
import Pitwall.Api.ProxyCover
import Pitwall.Routing.Coalescing
import Pitwall.Routing.CoalescingProtocol
import Pitwall.Library.Eviction
import Pitwall.Routing.SemanticCacheSafety
import Pitwall.Routing.HedgedRuns
import Pitwall.Api.KillReach
import Pitwall.Autopilot.Rails
import Pitwall.Gitops.Targets
import Pitwall.Gitops.Convergence
import Pitwall.RunPod.TemplateCache
import Pitwall.Providers.Orphans
import Pitwall.Cost.QuoteOrder
import Pitwall.Cost.QuoteErrors
import Pitwall.Cost.QuoteRounding
import Pitwall.Routing.CudaVersions
import Pitwall.Routing.ScoreOrder
import Pitwall.RateLimits.AdaptiveCapacity
import Pitwall.Cost.WhatIfAdmission
import Pitwall.Db.MigrationReruns
import Pitwall.Finops.TimeMachineIdentity
import Pitwall.Routing.Arbitrage
import Pitwall.Cost.Chargeback
import Pitwall.Finops.DailyTotals
import Pitwall.Finops.BiddingRails
import Pitwall.Routing.OpenAIChain
import Pitwall.Routing.OpenAIPathSafety
import Pitwall.Leases.PodEnv
import Pitwall.Webhooks.Security
import Pitwall.Webhooks.Signatures
import Pitwall.Reconciler.HibernateSweep
import Pitwall.Api.RateLimitSyntax
import Pitwall.Library.JsonText
import Pitwall.Cost.Usage
import Pitwall.Webhooks.EgressPolicy
import Pitwall.Library.JsonWriting
import Pitwall.Webhooks.Dispatch
import Pitwall.Routing.PricedScores
import Pitwall.Routing.DemandForecast
import Pitwall.Routing.PrewarmPlan
import Pitwall.Cost.SloGovernor
import Pitwall.Api.Middlewares
import Pitwall.RunPod.Readiness
import Pitwall.RunPod.ReadinessRuns
import Pitwall.Routing.SemanticKey
import Pitwall.Db.ResetGuard
import Pitwall.Audit.PreSpendScan
import Pitwall.Audit.PreSpendCoverage
import Pitwall.Security.Redaction
import Pitwall.Security.RedactionOrder
import Pitwall.Policy.Engine
import Pitwall.Policy.Leaks
