import NewApi.Subscription.Store
import NewApi.Subscription.Refund
import NewApi.Billing.Funding
import NewApi.Billing.Session
import NewApi.Billing.Atomicity
import NewApi.Billing.Ledger
import NewApi.AsyncTask.Row
import NewApi.AsyncTask.Unconfirmed
import NewApi.AsyncTask.Plan
import NewApi.AsyncTask.Polling
import NewApi.AsyncTask.Submission
import NewApi.Quota.Reserve
import NewApi.Quota.Batch
import NewApi.Quota.Conservation
import NewApi.Realtime.Price
import NewApi.Realtime.Session
import NewApi.Realtime.Cost
import NewApi.Channel.Breaker
import NewApi.Channel.Index
import NewApi.Subscription.Plan
import NewApi.Subscription.Table
import NewApi.Subscription.Usage
import NewApi.Subscription.Deletion
import NewApi.Subscription.Period
import NewApi.Subscription.Group
import NewApi.Payment.Wallet
import NewApi.Payment.Order
import NewApi.Payment.Redemption
import NewApi.Quota.Ceiling
import NewApi.Subscription.Purchase
import NewApi.Channel.Retry
import NewApi.Pricing.ExprCache
import NewApi.Pricing.Tokens
import NewApi.Convert.Usage
import NewApi.Convert.UsageStream
import NewApi.Convert.Responses
import NewApi.Convert.ResponsesStream
import NewApi.Convert.ChatToResponses
import NewApi.Convert.ChatToResponsesItems
import NewApi.Convert.ChatToResponsesStream
import NewApi.Convert.Claude
import NewApi.Convert.ResponsesRead
import NewApi.Convert.ResponsesToClaude
import NewApi.Convert.ResponsesToClaudeStream
import NewApi.Convert.ChatReply
import NewApi.Convert.ResponsesToChat
import NewApi.Convert.ResponsesToChatReply
import NewApi.Convert.ChatRoundTrip
import NewApi.Convert.ChatToClaude
import NewApi.Convert.ChatBlocks
import NewApi.Convert.ChatToClaudeBlocks
import NewApi.Convert.ChatToClaudeStream
import NewApi.Pricing.FixedTree
import NewApi.Auth.Session
import NewApi.Auth.SessionCalls
import NewApi.Auth.SessionRevoked
import NewApi.Auth.Refresh
import NewApi.Auth.RefreshRotation
import NewApi.Auth.UserCache
import NewApi.Auth.UserAuthFence
import NewApi.Auth.UserGroupCache
import NewApi.SystemTasks.Lease
import NewApi.SystemTasks.LeaseTables
import NewApi.SystemTasks.LeaseSafety
import NewApi.Auth.AccountLockout
import NewApi.Auth.LockoutSafety
import NewApi.Relay.HeaderOverride
import NewApi.Relay.HeaderLeak
import NewApi.Channel.Status
import NewApi.Channel.Abilities
import NewApi.Channel.AbilityMirror
import NewApi.ResponseCache.Disk
import NewApi.Relay.ConcurrencyGate
import NewApi.Relay.GateSafety
import NewApi.TrainingCapture.TextIncrement
import NewApi.Tokens.Cache
import NewApi.AsyncTask.QuotaMarker
import NewApi.Tokens.Balance
import NewApi.Tokens.Fence
import NewApi.Billing.Opening
import NewApi.RateLimit.Memory
import NewApi.RateLimit.Slots
import NewApi.RateLimit.Handlers
import NewApi.TrainingCapture.Parts
import NewApi.TrainingCapture.Records
import NewApi.TrainingCapture.Selection
import NewApi.TrainingCapture.Attempt
import NewApi.AsyncTask.Dispatch
import NewApi.Auth.Flow
import NewApi.Events.Bus
import NewApi.Auth.TwoFactor
import NewApi.Relay.StreamFailover
import NewApi.RateLimit.Buckets
import NewApi.Fetch.PrivateIP
import NewApi.Fetch.ProtectedDial
import NewApi.Subscription.FirstPurchase
import NewApi.Channel.Polling
import NewApi.Channel.Selection
import NewApi.Channel.TableSelection
import NewApi.Logs.ConsumeFlusher
import NewApi.Logs.FlusherSafety
import NewApi.RequestBody.Storage
import NewApi.RequestBody.StorageSafety
import NewApi.RequestBody.StorageRuns
import NewApi.Subscription.PlanEnd
import NewApi.Subscription.ResetCatchup
import NewApi.Subscription.ResetPeriods
import NewApi.Convert.GeminiMeaning
import NewApi.Convert.ChatToClaudeRequest
import NewApi.Convert.ChatRequestKept
import NewApi.Convert.ChatResponsesRequest
import NewApi.Pricing.TextQuota
import NewApi.Convert.ClaudeToChat
import NewApi.Convert.ClaudeToChatAgree
import NewApi.Convert.GeminiPartialArgs
import NewApi.Convert.GeminiToChat
import NewApi.Convert.GeminiToChatParts
import NewApi.Convert.GeminiToChatAgree
import NewApi.Convert.GeminiPartialPaths
import NewApi.Convert.GeminiPartialRebuild
import NewApi.Pricing.ExprLang
import NewApi.Pricing.FixedPricing
import NewApi.Pricing.RequestRules
import NewApi.Convert.ChatToGeminiStream
import NewApi.Convert.GeminiGrounding
import NewApi.Convert.MarkdownImages
import NewApi.Reasoning.ModelModifiers
import NewApi.Reasoning.Intent
import NewApi.Convert.ClaudeStreamBilling
import NewApi.Plugin.RoutePaths
import NewApi.ResponseCache.Lru
