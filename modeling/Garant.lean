import Garant.Lib.Decimal
import Garant.Lib.Table
import Garant.Lib.Keyset
import Garant.Lib.Runs
import Garant.Lib.Journal
import Garant.Lib.Datetime
import Garant.Lib.Window
import Garant.Lib.Mailbox
import Garant.Lib.Sha
import Garant.Lib.Text
import Garant.Lib.Quote
import Garant.Lib.Json
import Garant.Schema
import Garant.Money
import Garant.Invoices
import Garant.Deals
import Garant.AdminDeals
import Garant.Withdrawals
import Garant.Deposits
import Garant.System
import Garant.Effects
import Garant.Operations
import Garant.Commission
import Garant.WalletOperations
import Garant.Sessions
import Garant.Turns
import Garant.Escrow
import Garant.Ledger
import Garant.WithdrawalRuns
import Garant.Settlement
import Garant.Solvency
import Garant.Topup
import Garant.Crediting
import Garant.Replacement
import Garant.ManualCredits
import Garant.Activation
import Garant.DepositEvents
import Garant.Expiry
import Garant.Requests
import Garant.DealLife
import Garant.DealStats
import Garant.Approvals
import Garant.Interests
import Garant.LockOrder
import Garant.Maintenance
import Garant.Accounts
import Garant.PinSessions
import Garant.Totp
import Garant.TotpCodes
import Garant.Transfers
import Garant.Inbox
import Garant.LastAdmin
import Garant.Revocation
import Garant.Reviews
import Garant.ReviewLocks
import Garant.CallLocks
import Garant.Inactivity
import Garant.Precision
import Garant.PaidEvents
import Garant.RateLimit
import Garant.Supervisor
import Garant.Fanout
import Garant.Chat
import Garant.ChatHistory
import Garant.Notifications
import Garant.Services
import Garant.PinRequests
import Garant.PinLockout
import Garant.Shells
import Garant.InitData
import Garant.MediaUrls
import Garant.Logins
import Garant.Broadcasts
