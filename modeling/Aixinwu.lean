import Aixinwu.Lib.Runs
import Aixinwu.Lib.Streak
import Aixinwu.Lib.Table
import Aixinwu.Lib.Decimals
import Aixinwu.Core.Mutations
import Aixinwu.Account.Models
import Aixinwu.Account.ContinuousDays
import Aixinwu.Donation.Models
import Aixinwu.Database
import Aixinwu.Donation.Mutations
import Aixinwu.Donation.Credit
import Aixinwu.Lib.KeyedSums
import Aixinwu.Donation.BulkComplete
import Aixinwu.Lib.OrderBy
import Aixinwu.Payment.TransactionCalculations
import Aixinwu.Payment.TransactionAmounts
import Aixinwu.Payment.ManualAdjustment
import Aixinwu.Lib.Transactions
import Aixinwu.Checkout.Models
import Aixinwu.Checkout.VoucherUsage
import Aixinwu.Checkout.CompleteCheckout
import Aixinwu.Order.Confirm
import Aixinwu.Account.BalanceUpdate
import Aixinwu.Payment.BalanceGateway
import Aixinwu.Account.OidcLogin
import Aixinwu.Account.Ledger
import Aixinwu.Account.ConcurrentRequests
import Aixinwu.Payment.Gateway
import Aixinwu.Order.Refund
import Aixinwu.Order.RefundConservation
import Aixinwu.Payment.MoneyConservation
import Aixinwu.Order.ConfirmRuns
import Aixinwu.Warehouse.Models
import Aixinwu.Lib.Aggregates
import Aixinwu.Warehouse.Preorders
import Aixinwu.Lib.Greedy
import Aixinwu.Warehouse.Allocate
import Aixinwu.Warehouse.Oversell
import Aixinwu.Warehouse.Reserve
import Aixinwu.Warehouse.ReservationOutcomes
import Aixinwu.Warehouse.ReservationRuns
import Aixinwu.Checkout.Prices
import Aixinwu.Checkout.ConcurrentCheckouts
import Aixinwu.Checkout.GiftCardCharges
import Aixinwu.Checkout.LinePrices
import Aixinwu.Checkout.GiftCards
import Aixinwu.Warehouse.Deallocate
import Aixinwu.Warehouse.Counter
import Aixinwu.Warehouse.CounterRuns
import Aixinwu.Order.ChargeStatus
import Aixinwu.Core.Reordering
import Aixinwu.Core.Connection
import Aixinwu.Core.Pagination
import Aixinwu.Order.OrderListing
import Aixinwu.Permission.Models
import Aixinwu.Permission.Utils
import Aixinwu.Permission.Accepted
import Aixinwu.Permission.Escalation
import Aixinwu.Permission.ChannelAccess
import Aixinwu.Permission.Manageable
import Aixinwu.Payment.EventReport
import Aixinwu.Payment.EventReportRuns
import Aixinwu.Payment.ConcurrentReports
import Aixinwu.Order.ExpireOrders
import Aixinwu.Order.VoucherRelease
import Aixinwu.Product.Promotions
import Aixinwu.Product.BestPromotion
import Aixinwu.Product.PromotionBookkeeping
import Aixinwu.Barcode.Barcodes
import Aixinwu.Lib.Numbering
import Aixinwu.Order.OrderNumbers
import Aixinwu.Permission.DelegatedTokens
import Aixinwu.Account.FirstLogin
import Aixinwu.Product.CataloguePredicates
import Aixinwu.Product.PredicateMeaning
import Aixinwu.Product.RuleTargets
import Aixinwu.Core.QueryCost
import Aixinwu.Core.RankPaging
import Aixinwu.Core.CostSpecification
import Aixinwu.Lib.GraphqlExecution
import Aixinwu.Webhook.Obfuscation
import Aixinwu.Lib.Json
import Aixinwu.Webhook.JsonTruncText
import Aixinwu.Webhook.Payloads
import Aixinwu.Lib.Tentative
import Aixinwu.Order.BulkCreate
import Aixinwu.Order.BulkPolicies
import Aixinwu.Lib.LeftJoin
import Aixinwu.Payment.AuthorizationAdjustment
import Aixinwu.Warehouse.Availability
import Aixinwu.Warehouse.BulkAvailability
import Aixinwu.Lib.KeyedDraws
import Aixinwu.Warehouse.DecreaseStock
import Aixinwu.Lib.Closures
import Aixinwu.Warehouse.StockNotifications
import Aixinwu.Order.BulkVoucherRelease
import Aixinwu.Lib.BoundedQueue
import Aixinwu.Lib.Calendar
import Aixinwu.Report.DateRanges
import Aixinwu.Payment.StatusMachine
import Aixinwu.Checkout.LineDiscounts
import Aixinwu.Order.Fulfillments
import Aixinwu.Product.PromotionRuleUpdate
import Aixinwu.Lib.Dictionaries
import Aixinwu.Order.BulkInstances
import Aixinwu.Order.ReturnLines
import Aixinwu.Checkout.CartLines
import Aixinwu.Checkout.CartReservations
import Aixinwu.Checkout.CartUpdate
import Aixinwu.Checkout.CartChecks
import Aixinwu.Checkout.CartVariants
import Aixinwu.Core.FirstAndLast
import Aixinwu.Order.BaseCalculations
import Aixinwu.Checkout.PromoCodes
import Aixinwu.Warehouse.DisplayedAvailability
import Aixinwu.Warehouse.EndingPreorders
import Aixinwu.Warehouse.PreorderChecks
import Aixinwu.Order.FlatRates
import Aixinwu.Checkout.UntaxedPrices
import Aixinwu.Warehouse.BulkUpdate
import Aixinwu.Order.BulkAmounts
import Aixinwu.Order.ImportedOrders
import Aixinwu.Webhook.ObservabilityBuffer
import Aixinwu.Webhook.Deliveries
import Aixinwu.Order.OrderStatus
import Aixinwu.Order.LineEditing
import Aixinwu.Order.LinesInFull
import Aixinwu.Lib.Patterns
import Aixinwu.Shipping.PostalCodes
import Aixinwu.Lib.Base64
import Aixinwu.Webhook.AppIds
import Aixinwu.Lib.DecimalContext
import Aixinwu.Webhook.TaxResponses
import Aixinwu.Lib.JsonFields
import Aixinwu.Core.EditorJs
import Aixinwu.Core.EditorJsDocuments
import Aixinwu.Order.PriceRefresh
import Aixinwu.Order.RefreshAgain
import Aixinwu.Warehouse.LineAllocations
import Aixinwu.Scheduler.Ticks
import Aixinwu.Account.Sessions
import Aixinwu.Account.SessionRuns
import Aixinwu.Account.Entitlement
