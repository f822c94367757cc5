import OneApi.Subscription.LazyReset
import OneApi.Subscription.PreConsumeRace
import OneApi.Subscription.GroupRestore
import OneApi.Subscription.PurchaseLimit
import OneApi.AgentPlan.NotOversold
import OneApi.TaskBilling.SunoData
import OneApi.TaskBilling.Refund
import OneApi.TaskBilling.Pricing
import OneApi.Billing.BatchUpdater
import OneApi.Billing.Invite
import OneApi.Billing.Overdraw
import OneApi.Billing.Exclusive
import OneApi.Realtime.Session
import OneApi.Tokens.PromptTotal
import OneApi.Responses.RoundTrip
import OneApi.Responses.StreamRoundTrip
import OneApi.Claude.WellFormed
import OneApi.Claude.Conservation
import OneApi.Auth.Assertion
import OneApi.Auth.Consume
import OneApi.Auth.RefreshChain
import OneApi.Auth.RenewalAtomic
import OneApi.Payment.TopUpAmount
import OneApi.Payment.ProductLedger
import OneApi.Payment.Redeem
import OneApi.SystemTasks.Lease
import OneApi.Channels.Disabled
import OneApi.Channels.Retry
import OneApi.Relay.Retry
import OneApi.Billing.Tiered
import OneApi.Subscription.Choice
import OneApi.Channels.Polling
import OneApi.Relay.TokenBucket
import OneApi.Relay.Limiter
