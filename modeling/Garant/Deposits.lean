import Garant.Deals
/-!
# Deposits

Crediting and expiring deposits: `credit_deposit`, the sweep and the poller of
`services_wallet.py`, the webhook handlers of `services_payments.py`, and the
admin actions of `routers/admin/deposits.py`, `wallets.py` and the paid reset
of `routers/pin.py`.
-/
open Decimal

namespace Garant

/-! ## Reported amounts -/

/-- What `Decimal(str(reported))` parses to. -/
inductive Number
  | finite (q : ℚ)
  | nan
  | infinity (negative : Bool)
deriving DecidableEq

/-- The `amount` of a webhook payload. -/
inductive Reported
  | missing
  | unparseable
  | number (n : Number)
deriving DecidableEq

/-- `_parse_paid_amount`. -/
def parsePaidAmount : Reported → Option Number
  | .number n => some n
  | _ => none

/-- `_AMOUNT_MISMATCH_TOLERANCE`. -/
def amountMismatchTolerance : ℚ := 1 / 100000000

/-- `_amounts_match`. Comparing a NaN raises. -/
def amountsMatch (reported : Reported) (expected : Money) : Result Bool :=
  match reported with
  | .missing | .unparseable => pure false
  | .number (.finite q) => pure (decide (minus expected.val amountMismatchTolerance ≤ q))
  | .number .nan => throw .invalid_operation
  | .number (.infinity negative) => pure !negative

/-- `quantize_money` of a reported amount; what is not finite cannot be quantised or compared. -/
def quantizeReported (decimals : ℕ) : Option Number → Result (Option ℚ)
  | none => pure none
  | some (.finite q) => do
    let y ← quantizeMoney q decimals
    pure (some y)
  | some _ => throw .invalid_operation

/-- The amount as `complete_deal_topup_payment` gets it. -/
def Number.toRat? : Number → Option ℚ
  | .finite q => some q
  | _ => none

/-! ## Crediting -/

/-- `record_synthetic_ledger`: the trust balance has no row of its own. -/
def recordSyntheticLedger (db : Db) (user_id currency_id : ℕ) (before_amount after_amount : ℚ) (ref : LedgerRef) :
    Result Db :=
  if minus after_amount before_amount = 0 then pure db
  else do
    let amount_before ← store before_amount
    let amount_delta ← store (minus after_amount before_amount)
    let amount_after ← store after_amount
    let zero := Numeric.zero 28 8
    pure { db with
      wallet_ledger_entries := db.wallet_ledger_entries ++ [
        { user_id, currency_id, event_type := ref.event_type, source_type := ref.source_type,
          source_id := ref.source_id, provider := ref.provider, provider_event_id := ref.provider_event_id,
          amount_before, amount_delta, amount_after, locked_before := zero, locked_delta := zero,
          locked_after := zero }] }

def Db.setUser (db : Db) (user_id : ℕ) (user : User) : Db := { db with users := db.users.set user_id user }

/-- The `trust` branch of `credit_deposit`. -/
def creditTrust (db : Db) (deposit_id : ℕ) (deposit : WalletDeposit) (credit_amount : ℚ) : Result Db := do
  let user ← orRaise (db.users.row deposit.user_id) .no_result
  let before_trust := user.trust_deposit_balance.val
  let after_trust := plus before_trust credit_amount
  let trust_deposit_balance ← store after_trust
  recordSyntheticLedger (db.setUser deposit.user_id { user with trust_deposit_balance })
    deposit.user_id deposit.currency_id before_trust after_trust (depositRef "deposit.trust_credit" deposit_id deposit)

/-- The `wallet` branch of `credit_deposit`. -/
def creditWallet (db : Db) (deposit_id : ℕ) (deposit : WalletDeposit) (credit_amount : ℚ) : Result Db :=
  creditAmount db deposit.user_id deposit.currency_id credit_amount
    (depositRef "deposit.wallet_credit" deposit_id deposit)

/-- The credit itself, for a deposit that is not a deal top-up. -/
def creditBalance (db : Db) (deposit_id : ℕ) (deposit : WalletDeposit) (credit_amount : ℚ) : Result Db :=
  if deposit.purpose = .trust then creditTrust db deposit_id deposit credit_amount
  else creditWallet db deposit_id deposit credit_amount

/-- `credit_deposit` on the locked row. -/
def creditDeposit (db : Db) (deposit_id : ℕ) (paid_amount : Option Number) (reply : InvoiceReply) (now : Time) :
    Result Db := do
  let deposit ← orRaise (db.wallet_deposits.row deposit_id) .no_result
  if deposit.status = .paid then pure db
  else do
    let decimals := (db.currencies.row deposit.currency_id).elim 8 (·.decimals)
    let nominal_amount ← quantizeMoney deposit.amount.val decimals
    let reported_amount ← quantizeReported decimals paid_amount
    let credit_amount := max nominal_amount (reported_amount.getD nominal_amount)
    if deposit.purpose = .deal_topup then
      completeDealTopupPayment db deposit_id (paid_amount.bind (·.toRat?)) reply now
    else do
      let db ← creditBalance db deposit_id deposit credit_amount
      let amount ← store credit_amount
      let reported ← storeOpt reported_amount
      pure (db.setDeposit deposit_id { deposit.settle now (reported <|> deposit.paid_amount) with amount })

/-! ## Expiring -/

def expireDeposit (db : Db) (deposit_id : ℕ) (deposit : WalletDeposit) : Db :=
  db.setDeposit deposit_id { deposit with status := .expired }

/-- `sweep_expired_deposits`. `picked` is as in `sweepPendingTopup`. -/
def sweepExpiredDeposits (db : Db) (picked : List ℕ) (now : Time) : Db :=
  if db.settings.wallet_deposit_expiry_seconds ≤ 0 then db
  else
    let cutoff := now - seconds db.settings.wallet_deposit_expiry_seconds
    let rows := picked.dedup.filter fun i => (db.wallet_deposits.row i).any fun d =>
      d.status = .pending ∧ d.created_at ≤ cutoff
    rows.foldl (fun db i => match db.wallet_deposits.row i with
      | none => db
      | some d => expireDeposit db i d) db

/-! ## Polling -/

/-- What the provider answered to a status query: an error, no such invoice, or its state. -/
inductive PollReply
  | error
  | missing
  | state (s : String)
deriving DecidableEq

/-- `_lock_and_credit_deposit`. -/
def lockAndCreditDeposit (db : Db) (deposit_id : ℕ) (reply : InvoiceReply) (now : Time) : Result Db := do
  let deposit ← orRaise (db.wallet_deposits.row deposit_id) .no_result
  if deposit.status ≠ .pending then pure db else creditDeposit db deposit_id none reply now

/-- `_lock_and_expire_deposit`. -/
def lockAndExpireDeposit (db : Db) (deposit_id : ℕ) : Result Db := do
  let deposit ← orRaise (db.wallet_deposits.row deposit_id) .no_result
  if deposit.status ≠ .pending then pure db else pure (expireDeposit db deposit_id deposit)

/-- Whether the poller can ask the provider at all. -/
def pollConfigured (settings : Settings) : WalletDepositProvider → Bool
  | .cryptobot => settings.cryptobot_token ≠ ""
  | .crystalpay => settings.crystalpay_login ≠ "" ∧ settings.crystalpay_secret ≠ ""

/-- The provider's words for paid and for dead. -/
def paidState : WalletDepositProvider → String
  | .cryptobot => "paid"
  | .crystalpay => "payed"

def deadStates : WalletDepositProvider → List String
  | .cryptobot => ["expired"]
  | .crystalpay => ["unavailable", "failed"]

/-- `poll_deposit_status`. -/
def pollDepositStatus (db : Db) (deposit_id : ℕ) (answer : PollReply) (reply : InvoiceReply) (now : Time) : Result Db := do
  let deposit ← orRaise (db.wallet_deposits.row deposit_id) .no_result
  if deposit.status ≠ .pending ∨ pollConfigured db.settings deposit.provider = false then pure db
  else match answer with
    | .error | .missing => pure db
    | .state s =>
      if s = paidState deposit.provider then lockAndCreditDeposit db deposit_id reply now
      else if s ∈ deadStates deposit.provider then lockAndExpireDeposit db deposit_id
      else pure db

/-! ## Webhook handlers -/

/-- The body of a delivery, as far as the handlers read it. -/
structure InvoicePayload where
  invoice_id : Option String
  status : String
  amount : Reported
deriving DecidableEq

/-- The status dict a handler returns. -/
inductive Handled
  | credited
  | already_paid
  | expired
  | already_terminal
  | ignored_state
  | refused (reason : String)
deriving DecidableEq

/-- `result["ok"]`. -/
def Handled.ok : Handled → Bool
  | .refused _ => false
  | _ => true

/-- `_find_wallet_deposit`. -/
def findWalletDeposit (db : Db) (provider_invoice_id : String) (provider : WalletDepositProvider) : Result (Option ℕ) :=
  match db.wallet_deposits.ids fun d => d.provider = provider ∧ d.provider_invoice_id = provider_invoice_id with
  | [] => pure none
  | [i] => pure (some i)
  | _ :: _ :: _ => throw .multiple_results

/-- The amount check both paid handlers make; any amount may be paid towards a deal. -/
def amountAccepted (deposit : WalletDeposit) (reported : Reported) : Result Bool :=
  if deposit.purpose = .deal_topup then pure true else amountsMatch reported deposit.amount

/-- The amount check and the credit both paid handlers end with. -/
def creditReported (db : Db) (deposit_id : ℕ) (deposit : WalletDeposit) (reported : Reported) (reply : InvoiceReply)
    (now : Time) : Result (Db × Handled) := do
  let accepted ← amountAccepted deposit reported
  if accepted = false then pure (db, .refused "amount mismatch")
  else do
    let db ← creditDeposit db deposit_id (parsePaidAmount reported) reply now
    pure (db, .credited)

/-- The expiry both handlers apply: only a pending deposit expires. -/
def expireReported (db : Db) (deposit_id : ℕ) (deposit : WalletDeposit) : Db × Handled :=
  if deposit.status = .pending then (expireDeposit db deposit_id deposit, .expired) else (db, .already_terminal)

/-- `handle_invoice_paid`. -/
def handleInvoicePaid (db : Db) (payload : InvoicePayload) (reply : InvoiceReply) (now : Time) : Result (Db × Handled) :=
  if payload.status ≠ "paid" then pure (db, .refused "status is not paid")
  else match payload.invoice_id with
    | none => pure (db, .refused "missing invoice_id")
    | some provider_id => do
      match ← findWalletDeposit db provider_id .cryptobot with
      | none => pure (db, .refused "unknown invoice")
      | some deposit_id => do
        let wallet ← orRaise (db.wallet_deposits.row deposit_id) .no_result
        if wallet.status = .paid then pure (db, .already_paid)
        else creditReported db deposit_id wallet payload.amount reply now

/-- `handle_invoice_expired`. -/
def handleInvoiceExpired (db : Db) (payload : InvoicePayload) : Result (Db × Handled) :=
  match payload.invoice_id with
  | none => pure (db, .refused "missing invoice_id")
  | some provider_id => do
    match ← findWalletDeposit db provider_id .cryptobot with
    | none => pure (db, .refused "unknown invoice")
    | some deposit_id => do
      let wallet ← orRaise (db.wallet_deposits.row deposit_id) .no_result
      pure (expireReported db deposit_id wallet)

/-- `handle_crystalpay_invoice`; `status` is the payload's `state`. -/
def handleCrystalpayInvoice (db : Db) (payload : InvoicePayload) (reply : InvoiceReply) (now : Time) :
    Result (Db × Handled) :=
  match payload.invoice_id with
  | none => pure (db, .refused "missing invoice id")
  | some provider_id => do
    let state := payload.status.toLower
    match ← findWalletDeposit db provider_id .crystalpay with
    | none => pure (db, .refused "unknown invoice")
    | some deposit_id => do
      let wallet ← orRaise (db.wallet_deposits.row deposit_id) .no_result
      if state = paidState .crystalpay then
        if wallet.status = .paid then pure (db, .already_paid)
        else if wallet.status = .expired ∨ wallet.status = .refunded then
          -- expired and refunded are final here, unlike in `handle_invoice_paid`
          pure (db, .refused "deposit not pending")
        else creditReported db deposit_id wallet payload.amount reply now
      else if state ∈ deadStates .crystalpay then pure (expireReported db deposit_id wallet)
      else pure (db, .ignored_state)

/-! ## Admin actions and the paid PIN reset -/

/-- `mark_paid`: credited whatever the purpose, with no ledger entry. -/
def markPaid (db : Db) (deposit_id : ℕ) (now : Time) : Result Db := do
  let d ← orRaise (db.wallet_deposits.row deposit_id) (.http 404 "Депозит не найден")
  if d.status = .paid then pure db
  else do
    let _ ← orRaise (db.currencies.row d.currency_id) (.http 500 "Валюта не найдена")
    let db := lockUserBalance db d.user_id d.currency_id
    let bal := db.balance d.user_id d.currency_id
    let db ← writeBalance db d.user_id d.currency_id (plus bal.amount.val d.amount.val) bal.locked.val
    pure (db.setDeposit deposit_id { d with status := .paid, paid_at := some now })

/-- `refund_deposit`: debited from the spendable amount, with no ledger entry. -/
def refundDeposit (db : Db) (deposit_id : ℕ) : Result Db := do
  let d ← orRaise (db.wallet_deposits.row deposit_id) (.http 404 "Депозит не найден")
  raiseIf (d.status ≠ .paid) (.http 400 "Можно вернуть только зачисленный депозит")
  let _ ← orRaise (db.currencies.row d.currency_id) (.http 500 "Валюта не найдена")
  let bal ← orRaise (db.user_balances d.user_id d.currency_id)
    (.http 400 "Недостаточно средств у пользователя для возврата")
  raiseIf (bal.amount.val < d.amount.val) (.http 400 "Недостаточно средств у пользователя для возврата")
  let db ← writeBalance db d.user_id d.currency_id (minus bal.amount.val d.amount.val) bal.locked.val
  pure (db.setDeposit deposit_id { d with status := .refunded, paid_at := none })

/-- The currency with that code, active or not. -/
def findCurrency (db : Db) (code : String) (e : Exc) : Result ℕ :=
  match db.currencies.ids fun c => c.code = code with
  | [] => throw e
  | i :: _ => pure i

/-- `adjust_user_balance`. -/
def adjustUserBalance (db : Db) (user_id : ℕ) (currency_code : String) (delta : ℚ) : Result Db := do
  let code := (strip currency_code).toUpper
  raiseIf (code = "" ∨ 16 < code.length) (.http 422 "Некорректный код валюты")
  raiseIf (delta = 0) (.http 422 "Сумма не может быть равна нулю")
  let _ ← orRaise (db.users.row user_id) (.http 404 "Пользователь не найден")
  let currency_id ← findCurrency db code (.http 404 ("Валюта " ++ code ++ " не найдена"))
  let bal := db.balance user_id currency_id
  let new_amount := plus bal.amount.val delta
  raiseIf (new_amount < 0) (.adjust_below_zero bal.amount.val delta)
  changeBalance db user_id currency_id new_amount bal.locked.val
    ⟨"admin_wallet.adjust", "admin_adjustment", some user_id, none, none⟩

/-- `pin_reset_paid`: the price is taken from the USD balance, with no ledger entry. -/
def pinResetPaid (db : Db) (user_id : ℕ) : Result Db := do
  let price := db.app_settings.pin_reset_price_usd
  let usd ← findCurrency db "USD" (.http 503 "USD валюта не настроена на платформе — обратитесь к администрации")
  if price.val ≤ 0 then pure db
  else do
    let db := lockUserBalance db user_id usd
    let bal := db.balance user_id usd
    raiseIf (bal.amount.val < price.val) (.pin_reset_insufficient price.val bal.amount.val)
    writeBalance db user_id usd (minus bal.amount.val price.val) bal.locked.val

end Garant
