import Garant.AdminDeals
import Garant.Withdrawals
import Garant.Deposits
import Garant.Lib.Runs
/-!
# The running system

The database together with the withdrawal requests that are between two of
their transactions, and the transfers CryptoBot has executed. A step is one
committed transaction, one action of CryptoBot, or a request giving up; a
transaction that fails leaves no trace, so it is not a step.
-/
open Decimal

namespace Garant

/-! ## Withdrawal requests in flight -/

/-- A request between two of its transactions, with what its session still holds. -/
inductive Session
  /-- `create_withdrawal`, its transfer call under way. -/
  | creating (withdrawal_id user_id currency_id : ℕ) (amount : ℚ) (admin_exists : Bool)
  /-- `decide_withdrawal` approving, its transfer call under way. -/
  | approving (withdrawal_id : ℕ) (seen : WalletWithdrawal)
  /-- `sweep_stale_withdrawals` with a candidate it has not asked about yet. -/
  | sweeping (withdrawal_id : ℕ) (seen : WalletWithdrawal)
  /-- `sweep_stale_withdrawals` with CryptoBot's answer about a candidate. -/
  | reconciling (withdrawal_id : ℕ) (seen : WalletWithdrawal) (matched : Option String)

/-- The withdrawal a session is about. -/
def Session.subject : Session → ℕ
  | .creating i .. | .approving i .. | .sweeping i .. | .reconciling i .. => i

/-- Whether the session has a transfer call under way. -/
def Session.transferring : Session → Bool
  | .creating .. | .approving .. => true
  | .sweeping .. | .reconciling .. => false

/-- `executed i` says that CryptoBot has executed the transfer with spend id
`wd:{i}`. The last two fields add up what the transactions after phase 1 did
to the balance of each withdrawal's owner. -/
structure Sys where
  db : Db
  sessions : Table Session
  executed : ℕ → Bool
  amount_moved : ℕ → ℚ
  locked_moved : ℕ → ℚ

/-- No request in flight, nothing executed, nothing counted. -/
def Sys.start (db : Db) : Sys := ⟨db, .empty, fun _ => false, fun _ => 0, fun _ => 0⟩

inductive WithdrawalOp
  | create (fullmatch : String → String → Bool) (user_id : ℕ) (currency_code : String) (amount : ℚ)
      (address : Option String) (now : Time)
  | create_sent (session : ℕ) (transfer_id : String) (now : Time)
  | create_failed (session : ℕ) (now : Time)
  | approve (withdrawal_id : ℕ) (note : Option String)
  | approve_sent (session : ℕ) (transfer_id : String) (now : Time)
  | approve_failed (session : ℕ) (err : String)
  | reject (withdrawal_id : ℕ) (note : Option String) (now : Time)
  | mark_sent (withdrawal_id : ℕ) (note : Option String) (now : Time)
  | sweep_select (now : Time)
  | sweep_query (session : ℕ) (transfer_id : String)
  | sweep_error (session : ℕ)
  | sweep_apply (session : ℕ) (now : Time)
  /-- CryptoBot executes the transfer a session has asked for. -/
  | execute (session : ℕ)

namespace Sys

def session (s : Sys) (i : ℕ) : Result Session := orRaise (s.sessions.row i) .no_result

/-- The end of a request. -/
def close (s : Sys) (session : ℕ) : Sys := { s with sessions := s.sessions.erase session }

def opened (s : Sys) (session : Session) : Sys := { s with sessions := s.sessions.insert session }

/-- A committed transaction on behalf of a withdrawal: the new database, with
the move of the owner's balance added to the withdrawal's account. -/
def commit (s : Sys) (withdrawal_id : ℕ) (db : Db) : Sys :=
  match s.db.wallet_withdrawals.row withdrawal_id with
  | none => { s with db }
  | some w =>
    let old := s.db.balance w.user_id w.currency_id
    let new := db.balance w.user_id w.currency_id
    { s with
      db
      amount_moved := fun i => s.amount_moved i + if i = withdrawal_id then new.amount.val - old.amount.val else 0
      locked_moved := fun i => s.locked_moved i + if i = withdrawal_id then new.locked.val - old.locked.val else 0 }

/-- The session a sweep holds for each candidate. -/
def openSweeps (s : Sys) (candidates : List ℕ) : Sys :=
  candidates.foldl (fun t i => match s.db.wallet_withdrawals.row i with
    | none => t
    | some w => t.opened (.sweeping i w)) s

/-- One step of the withdrawal requests. -/
def withdrawal (s : Sys) : WithdrawalOp → Result Sys
  | .create fullmatch user_id currency_code amount address now => do
    let (i, db) ← createWithdrawal s.db fullmatch user_id currency_code amount address now
    let w ← orRaise (db.wallet_withdrawals.row i) .no_result
    let t := { s with db }
    pure (if s.db.autoWithdraw then t.opened (.creating i user_id w.currency_id amount s.db.adminExists) else t)
  | .create_sent j transfer_id now => do
    match ← s.session j with
    | .creating i _ _ amount _ => do
      raiseIf (s.executed i = false) .no_result
      let db ← createWithdrawalSent s.db i amount transfer_id now
      pure ((s.commit i db).close j)
    | _ => throw .no_result
  | .create_failed j now => do
    match ← s.session j with
    | .creating i user_id currency_id amount admin_exists =>
      if admin_exists then pure (s.close j)
      else do
        let db ← createWithdrawalAutoFailed s.db i user_id currency_id amount now
        pure ((s.commit i db).close j)
    | _ => throw .no_result
  | .approve i note => do
    let db ← decideApprove s.db i note
    let w ← orRaise (db.wallet_withdrawals.row i) .no_result
    let t := s.commit i db
    pure (if isCryptopayConfigured s.db.settings then t.opened (.approving i w) else t)
  | .approve_sent j transfer_id now => do
    match ← s.session j with
    | .approving i seen => do
      raiseIf (s.executed i = false) .no_result
      let db ← decideApproveSent s.db i seen transfer_id now
      pure ((s.commit i db).close j)
    | _ => throw .no_result
  | .approve_failed j err => do
    match ← s.session j with
    | .approving i _ => do
      let db ← decideApproveFailed s.db i err
      pure ((s.commit i db).close j)
    | _ => throw .no_result
  | .reject i note now => do
    let db ← decideReject s.db i note now
    pure (s.commit i db)
  | .mark_sent i note now => do
    let db ← decideMarkSent s.db i note now
    pure (s.commit i db)
  | .sweep_select now => pure (s.openSweeps (staleWithdrawals s.db now))
  | .sweep_query j transfer_id => do
    match ← s.session j with
    | .sweeping i seen =>
      let matched := if s.executed i then some transfer_id else none
      pure { s with sessions := s.sessions.set j (.reconciling i seen matched) }
    | _ => throw .no_result
  | .sweep_error j => do
    match ← s.session j with
    | .sweeping _ _ => pure (s.close j)
    | _ => throw .no_result
  | .sweep_apply j now => do
    match ← s.session j with
    | .reconciling i seen matched => do
      let db ← sweepStaleWithdrawal s.db i seen matched now
      pure ((s.commit i db).close j)
    | _ => throw .no_result
  | .execute j => do
    match ← s.session j with
    | .creating i .. | .approving i .. => pure { s with executed := fun k => decide (k = i) || s.executed k }
    | _ => throw .no_result

end Sys

/-! ## All operations -/

/-- The operations that are one transaction. -/
inductive Op
  | createDepositInvoice (user_id : ℕ) (currency_code : String) (amount : ℚ) (purpose : Purpose) (provider : String)
      (min_check : Bool) (reply : InvoiceReply) (now : Time)
  | createDeal (buyer_id seller_id : ℕ) (currency_code : String) (amount : Option ℚ) (payment_provider : String)
      (now : Time)
  | createDealWithTopup (buyer_id seller_id : ℕ) (currency_code : String) (amount : Option ℚ)
      (payment_provider : String) (reply : InvoiceReply) (now : Time)
  | completeDealTopupPayment (deposit_id : ℕ) (paid_amount : Option ℚ) (reply : InvoiceReply) (now : Time)
  | sweepPendingTopup (picked : List ℕ) (now : Time)
  | cancelPendingTopup (deal_id user_id : ℕ) (now : Time)
  | acceptDeal (deal_id user_id : ℕ) (now : Time)
  | declineDeal (deal_id user_id : ℕ) (now : Time)
  | finishDeal (deal_id user_id : ℕ) (now : Time)
  | requestCancel (deal_id user_id : ℕ) (reason : String) (now : Time)
  | revokeCancel (deal_id user_id : ℕ)
  | acceptCancel (deal_id user_id : ℕ) (now : Time)
  | startArbitration (deal_id user_id : ℕ) (reason : String)
  | resolveArbitration (deal_id admin_id : ℕ) (winner note : String) (now : Time)
  | sweepInactivity (picked : List ℕ) (now : Time)
  | approveDealApproval (approval_id admin_id : ℕ) (now : Time)
  | rejectDealApproval (approval_id : ℕ) (now : Time)
  | forceRelease (deal_id admin_id : ℕ) (reason : Option String) (approval_id : Option ℕ) (now : Time)
  | forceRefund (deal_id admin_id : ℕ) (reason : Option String) (approval_id : Option ℕ) (now : Time)
  | splitDeal (deal_id admin_id : ℕ) (body : BodyDecimal) (reason : Option String) (approval_id : Option ℕ) (now : Time)
  | forceArbitration (deal_id admin_id : ℕ) (reason : Option String)
  | assignArbiter (deal_id : ℕ) (arbiter_id : Option ℕ)
  | deleteDeal (deal_id : ℕ)
  | handleInvoicePaid (payload : InvoicePayload) (reply : InvoiceReply) (now : Time)
  | handleInvoiceExpired (payload : InvoicePayload)
  | handleCrystalpayInvoice (payload : InvoicePayload) (reply : InvoiceReply) (now : Time)
  | pollDepositStatus (deposit_id : ℕ) (answer : PollReply) (reply : InvoiceReply) (now : Time)
  | sweepExpiredDeposits (picked : List ℕ) (now : Time)
  | markPaid (deposit_id : ℕ) (now : Time)
  | refundDeposit (deposit_id : ℕ)
  | adjustUserBalance (user_id : ℕ) (currency_code : String) (delta : ℚ)
  | pinResetPaid (user_id : ℕ)

def Op.run (db : Db) : Op → Result Db
  | .createDepositInvoice u code amount purpose provider min_check reply now =>
    (·.2) <$> Garant.createDepositInvoice db u code amount purpose provider min_check reply now
  | .createDeal b s code amount provider now => Garant.createDeal db b s code amount provider now
  | .createDealWithTopup b s code amount provider reply now =>
    Garant.createDealWithTopup db b s code amount provider reply now
  | .completeDealTopupPayment i paid reply now => Garant.completeDealTopupPayment db i paid reply now
  | .sweepPendingTopup picked now => Garant.sweepPendingTopup db picked now
  | .cancelPendingTopup i u now => Garant.cancelPendingTopup db i u now
  | .acceptDeal i u now => Garant.acceptDeal db i u now
  | .declineDeal i u now => Garant.declineDeal db i u now
  | .finishDeal i u now => Garant.finishDeal db i u now
  | .requestCancel i u reason now => Garant.requestCancel db i u reason now
  | .revokeCancel i u => Garant.revokeCancel db i u
  | .acceptCancel i u now => Garant.acceptCancel db i u now
  | .startArbitration i u reason => Garant.startArbitration db i u reason
  | .resolveArbitration i a winner note now => Garant.resolveArbitration db i a winner note now
  | .sweepInactivity picked now => Garant.sweepInactivity db picked now
  | .approveDealApproval i a now => Garant.approveDealApproval db i a now
  | .rejectDealApproval i now => Garant.rejectDealApproval db i now
  | .forceRelease i a reason approval now => Garant.forceRelease db i a reason approval now
  | .forceRefund i a reason approval now => Garant.forceRefund db i a reason approval now
  | .splitDeal i a p reason approval now => Garant.splitDeal db i a p reason approval now
  | .forceArbitration i a reason => Garant.forceArbitration db i a reason
  | .assignArbiter i a => Garant.assignArbiter db i a
  | .deleteDeal i => Garant.deleteDeal db i
  | .handleInvoicePaid payload reply now => (·.1) <$> Garant.handleInvoicePaid db payload reply now
  | .handleInvoiceExpired payload => (·.1) <$> Garant.handleInvoiceExpired db payload
  | .handleCrystalpayInvoice payload reply now => (·.1) <$> Garant.handleCrystalpayInvoice db payload reply now
  | .pollDepositStatus i answer reply now => Garant.pollDepositStatus db i answer reply now
  | .sweepExpiredDeposits picked now => pure (Garant.sweepExpiredDeposits db picked now)
  | .markPaid i now => Garant.markPaid db i now
  | .refundDeposit i => Garant.refundDeposit db i
  | .adjustUserBalance u code delta => Garant.adjustUserBalance db u code delta
  | .pinResetPaid u => Garant.pinResetPaid db u

/-- One step of the system: an operation, or a step of a withdrawal request. -/
inductive Action
  | op (op : Op)
  | withdrawal (op : WithdrawalOp)

def Sys.exec (s : Sys) : Action → Result Sys
  | .op op => do
    let db ← op.run s.db
    pure { s with db }
  | .withdrawal op => s.withdrawal op

def Step (a : Action) (s t : Sys) : Prop := s.exec a = .ok t

/-! ## A small database

User 1 buys from user 2, user 3 is an admin, and there is one currency. -/

def sampleUser (is_admin : Bool) : User where
  tg_user_id := 100
  is_admin := is_admin
  is_arbiter := false
  is_vip := false
  trust_deposit_balance := ⟨0, money_zero_fits⟩
  deals_total := 0
  deals_success := 0
  deals_failed := 0
  deals_arbitrage := 0

def sampleCurrency (decimals : ℕ) : Currency where
  code := "USDT"
  decimals := decimals
  min_deposit := ⟨0, money_zero_fits⟩
  min_withdraw := ⟨0, money_zero_fits⟩
  is_active := true
  address_regex := ""

/-- No deals, deposits or withdrawals; user 1 has `amount` to spend. -/
def sampleDb (decimals : ℕ) (amount : Money) : Db where
  settings := ⟨"1:live", "", "", 1200, 600, 0⟩
  app_settings := ⟨⟨500, by decide⟩, ⟨0, by decide⟩, 3, 3, 24, false, ⟨0, money_zero_fits⟩⟩
  users := ((Table.empty.insert (sampleUser false)).insert (sampleUser false)).insert (sampleUser true)
  currencies := Table.empty.insert (sampleCurrency decimals)
  usd_rates := fun _ => none
  user_balances := fun u c => if u = 1 ∧ c = 1 then some ⟨amount, ⟨0, money_zero_fits⟩⟩ else none
  wallet_ledger_entries := []
  deals := .empty
  wallet_deposits := .empty
  wallet_withdrawals := .empty
  admin_approval_requests := .empty
  provider_webhook_events := .empty

end Garant
