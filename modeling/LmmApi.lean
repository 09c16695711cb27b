import LmmApi.Bounty.Appeal
import LmmApi.Bounty.Payout
import LmmApi.Bounty.PullRequest
import LmmApi.Bounty.Idempotency
import LmmApi.Bounty.Confirmation
import LmmApi.Bounty.Fee
import LmmApi.Subscription.ExactlyOnce
import LmmApi.Subscription.Voucher
import LmmApi.AsyncTask.Isolation
import LmmApi.AsyncTask.Terminal
import LmmApi.Billing.FinalizeOnce
import LmmApi.AsyncTask.Dispatch
import LmmApi.Recurring.Convergence
import LmmApi.Recharge.RefundShare
import LmmApi.Recurring.OrderRefund
import LmmApi.Recurring.PaymentRefund
import LmmApi.Recharge.DiscountUse
import LmmApi.Responses.FinalizedOnce
import LmmApi.Responses.Isolation
import LmmApi.HeroSms.Sms.Idempotency
import LmmApi.HeroSms.Email.Abort
import LmmApi.HeroSms.Email.Recovery
import LmmApi.Cache.Lru
import LmmApi.WsManager.Drain
import LmmApi.StreamPipeline.Bridge
import LmmApi.Auth.Refresh
import LmmApi.Auth.BackupCodes
import LmmApi.Channels.Polling
import LmmApi.Channels.Retry
import LmmApi.Channels.Status
import LmmApi.OAuth.Consent
import LmmApi.PublicRelay
import LmmApi.Gemini.Images
import LmmApi.Migrate.Evidence
