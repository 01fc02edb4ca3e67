import Garant.Invoices
/-!
# The deal life cycle

The operations of `services_deals.py`. Each takes the database, runs as one
transaction, and gives the committed database or the exception that rolled it
back. Notifications leave no trace in the rows modelled here.
-/
open Decimal

namespace Garant

/-! ## Moving funds -/

/-- Credits `x` to the spendable amount. -/
def creditAmount (db : Db) (user_id currency_id : ℕ) (x : ℚ) (ref : LedgerRef) : Result Db :=
  let bal := db.balance user_id currency_id
  changeBalance db user_id currency_id (plus bal.amount.val x) bal.locked.val ref

/-- Takes `x` out of the locked funds, at most what is there. -/
def dropLocked (db : Db) (user_id currency_id : ℕ) (x : ℚ) (ref : LedgerRef) : Result Db :=
  let bal := db.balance user_id currency_id
  changeBalance db user_id currency_id bal.amount.val (max 0 (minus bal.locked.val x)) ref

/-- Takes `x` out of the locked funds, at most what is there, and credits `y` to the spendable amount. -/
def unlockAndCredit (db : Db) (user_id currency_id : ℕ) (x y : ℚ) (ref : LedgerRef) : Result Db :=
  let bal := db.balance user_id currency_id
  changeBalance db user_id currency_id (plus bal.amount.val y) (max 0 (minus bal.locked.val x)) ref

def dealRef (event_type : String) (source_id : Option ℕ) : LedgerRef := ⟨event_type, "deal", source_id, none, none⟩

/-- `_debit`: moves `amount` from spendable to locked. -/
def debit (db : Db) (user_id currency_id : ℕ) (amount : ℚ) : Result Db := do
  let bal := db.balance user_id currency_id
  raiseIf (bal.amount.val < amount) (.insufficient_funds amount bal.amount.val (minus amount bal.amount.val)
    ((db.currencies.row currency_id).map (·.code)))
  changeBalance db user_id currency_id (minus bal.amount.val amount) (plus bal.locked.val amount)
    (dealRef "deal.lock" none)

/-- `_refund_principal`. -/
def refundPrincipal (db : Db) (user_id currency_id : ℕ) (principal : ℚ) : Result Db :=
  unlockAndCredit db user_id currency_id principal principal (dealRef "deal.refund_principal" none)

/-- `_release_to`. Payer and payee are different users (`create_deal` refuses
a deal with oneself), so the two rows are written one after the other. -/
def releaseTo (db : Db) (payer_id payee_id currency_id : ℕ) (locked_amount payout_amount : ℚ) : Result Db := do
  let db ← dropLocked db payer_id currency_id locked_amount (dealRef "deal.release_debit" none)
  creditAmount db payee_id currency_id payout_amount (dealRef "deal.release_credit" none)

/-! ## Rows -/

def Db.setDeal (db : Db) (deal_id : ℕ) (deal : Deal) : Db := { db with deals := db.deals.set deal_id deal }

def Db.setDeposit (db : Db) (deposit_id : ℕ) (deposit : WalletDeposit) : Db :=
  { db with wallet_deposits := db.wallet_deposits.set deposit_id deposit }

/-- `update(User).where(User.id.in_(ids))`. -/
def Db.updateUsers (db : Db) (ids : List ℕ) (f : User → User) : Db :=
  { db with users := db.users.mapRows fun i u => if i ∈ ids then f u else u }

/-- `_get_locked` / `_get_deal_or_404`. -/
def getDeal (db : Db) (deal_id : ℕ) : Result Deal := orRaise (db.deals.row deal_id) (.http 404 "Сделка не найдена")

/-- The deal's currency and its amount quantised to it. -/
def dealAmount (db : Db) (deal : Deal) (e : Exc) : Result ℚ := do
  let currency ← orRaise (db.currencies.row deal.currency_id) e
  quantizeMoney deal.amount.val currency.decimals

def currencyVanished : Exc := .value_error "currency vanished"

/-! ## Creation -/

/-- `_commission`. -/
def commissionOf (amount percent : ℚ) (decimals : ℕ) : Result ℚ :=
  quantizeMoney (quotient (times amount percent) 100) decimals

/-- `_resolve_commission_rate`. -/
def resolveCommissionRate (settings : AppSettings) (buyer seller : User) : ℚ :=
  if 0 ≤ settings.vip_commission_percent.val ∧ (buyer.is_vip ∨ seller.is_vip) then settings.vip_commission_percent.val
  else settings.deal_commission_percent.val

/-- A fresh deal row. -/
def newDeal (buyer_id seller_id currency_id : ℕ) (amount : Money) (commission_amount : Money) (status : DealStatus)
    (payment_provider : String) (commission_paid : Bool) (now : Time) : Deal :=
  { buyer_id, seller_id, status, confirm_buyer := false, confirm_seller := false, created_at := now,
    completed_at := none, currency_id, amount, commission_amount := some commission_amount, in_progress_at := none,
    cancellation_initiator_id := none, cancellation_reason := none, cancellation_requested_at := none,
    arbitration_initiator_id := none, arbitration_reason := none, arbitration_resolved_by := none,
    arbitration_resolution := none, arbitration_resolved_at := none, payment_provider,
    topup_deposit_id := none, commission_paid }

def insertDeal (db : Db) (deal : Deal) : Db := { db with deals := db.deals.insert deal }

def amountNotPositive : Exc := .value_error "Сумма должна быть больше нуля"

/-- The checks both creation paths start with: the parties, the currency, the
amount and the commission. `amount = none` is a number that is not finite. -/
def dealTerms (db : Db) (buyer_id seller_id : ℕ) (currency_code : String) (amount : Option ℚ) :
    Result (ℕ × Currency × ℚ × ℚ) := do
  raiseIf (buyer_id = seller_id) (.value_error "Нельзя создать сделку с самим собой")
  let buyer ← orRaise (db.users.row buyer_id) .no_result
  let seller ← orRaise (db.users.row seller_id) .no_result
  let (currency_id, currency) ← getCurrencyByCode db currency_code
  let raw ← orRaise amount amountNotPositive
  raiseIf (raw ≤ 0) amountNotPositive
  let amt ← quantizeMoney raw currency.decimals
  raiseIf (amt ≤ 0) amountNotPositive
  let commission ← commissionOf amt (resolveCommissionRate db.app_settings buyer seller) currency.decimals
  pure (currency_id, currency, amt, commission)

/-- `create_deal`. -/
def createDeal (db : Db) (buyer_id seller_id : ℕ) (currency_code : String) (amount : Option ℚ)
    (payment_provider : String) (now : Time) : Result Db := do
  let (currency_id, _, amt, commission) ← dealTerms db buyer_id seller_id currency_code amount
  let db ← debit db buyer_id currency_id amt
  let amount ← store amt
  let commission_amount ← store commission
  pure (insertDeal db
    (newDeal buyer_id seller_id currency_id amount commission_amount .pending_confirmation payment_provider true now))

/-- Points a deposit and its deal at each other. -/
def linkDeposit (db : Db) (deal_id deposit_id : ℕ) : Db :=
  { db with
    wallet_deposits := match db.wallet_deposits.row deposit_id with
      | some deposit => db.wallet_deposits.set deposit_id { deposit with linked_deal_id := some deal_id }
      | none => db.wallet_deposits
    deals := match db.deals.row deal_id with
      | some deal => db.deals.set deal_id { deal with topup_deposit_id := some deposit_id }
      | none => db.deals }

/-- `create_deal_with_topup`: paid from the balance when it covers amount and
commission, else waiting for the linked invoice. -/
def createDealWithTopup (db : Db) (buyer_id seller_id : ℕ) (currency_code : String) (amount : Option ℚ)
    (payment_provider : String) (reply : InvoiceReply) (now : Time) : Result Db := do
  let (currency_id, currency, amt, commission) ← dealTerms db buyer_id seller_id currency_code amount
  let db := lockUserBalance db buyer_id currency_id
  let bal := db.balance buyer_id currency_id
  let needed ← quantizeMoney (plus amt commission) currency.decimals
  let topup_principal ← quantizeMoney (max 0 (minus amt bal.amount.val)) currency.decimals
  let invoice_total ← quantizeMoney (plus topup_principal commission) currency.decimals
  let amount ← store amt
  let commission_amount ← store commission
  if needed ≤ bal.amount.val then do
    let deal_id := db.deals.next
    let db := insertDeal db
      (newDeal buyer_id seller_id currency_id amount commission_amount .pending_confirmation payment_provider true now)
    changeBalance db buyer_id currency_id (minus bal.amount.val needed) (plus bal.locked.val amt)
      (dealRef "deal.create_balance_funded" (some deal_id))
  else do
    let deal_id := db.deals.next
    let db := insertDeal db
      (newDeal buyer_id seller_id currency_id amount commission_amount .pending_topup payment_provider false now)
    raiseIf (invoice_total ≤ 0)
      (.value_error "Сумма комиссии меньше точности валюты — используйте обычную сделку")
    let skip_min : Bool := invoice_total < currency.min_deposit.val
    let (deposit_id, db) ← createDepositInvoice db buyer_id currency.code invoice_total .deal_topup payment_provider
      (!skip_min) reply now
    pure (linkDeposit db deal_id deposit_id)

/-! ## Top-up payments -/

/-- What is still missing for activation: the commission due and the amount. -/
def topupDue (deal : Deal) (currency : Currency) : Result (ℚ × ℚ) := do
  let amt ← quantizeMoney deal.amount.val currency.decimals
  let commission ← quantizeMoney (deal.commission_amount.elim 0 (·.val)) currency.decimals
  pure (amt, if deal.commission_paid then 0 else commission)

/-- `_issue_remaining_topup_invoice`: a fresh invoice for the remaining gap, if there is one. -/
def issueRemainingTopupInvoice (db : Db) (deal_id : ℕ) (deal : Deal) (currency : Currency) (current_balance : ℚ)
    (reply : InvoiceReply) (now : Time) : Result Db := do
  let _ ← orRaise (db.users.row deal.buyer_id) (.value_error "buyer vanished")
  let (amt, commission_due) ← topupDue deal currency
  let principal_gap := max 0 (minus amt current_balance)
  let invoice_total ← quantizeMoney (plus principal_gap commission_due) currency.decimals
  if invoice_total ≤ 0 then pure db
  else do
    let provider := if deal.payment_provider = "" then "cryptobot" else deal.payment_provider
    let (deposit_id, db) ← createDepositInvoice db deal.buyer_id currency.code invoice_total .deal_topup provider false
      reply now
    pure (linkDeposit db deal_id deposit_id)

/-- `deposit.status = paid`, with the time and the amount the provider reported. -/
def WalletDeposit.settle (deposit : WalletDeposit) (now : Time) (paid_amount : Option Money) : WalletDeposit :=
  { deposit with status := .paid, paid_at := some now, paid_amount }

def depositRef (event_type : String) (deposit_id : ℕ) (deposit : WalletDeposit) : LedgerRef :=
  ⟨event_type, "deposit", some deposit_id, some deposit.provider, some deposit.provider_invoice_id⟩

/-- The branches of `complete_deal_topup_payment` for a deposit with no deal:
it is marked paid and nothing is credited. -/
def settleUnattached (db : Db) (deposit_id : ℕ) (deposit : WalletDeposit) (paid_amount : Option ℚ) (now : Time) :
    Result Db := do
  let reported ← storeOpt paid_amount
  pure (db.setDeposit deposit_id (deposit.settle now (reported <|> deposit.paid_amount)))

/-- A payment for a deal that no longer waits for it: all of it is credited. -/
def lateCredit (db : Db) (deposit_id : ℕ) (deposit : WalletDeposit) (deal : Deal) (paid : ℚ) (now : Time) :
    Result Db := do
  let db ← creditAmount db deal.buyer_id deal.currency_id paid (depositRef "deal_topup.late_credit" deposit_id deposit)
  let reported ← store paid
  pure (db.setDeposit deposit_id (deposit.settle now (some reported)))

/-- A payment for a deal in `pending_topup`. -/
def settleTopup (db : Db) (deposit_id : ℕ) (deposit : WalletDeposit) (deal_id : ℕ) (deal : Deal) (currency : Currency)
    (paid : ℚ) (reply : InvoiceReply) (now : Time) : Result Db := do
  let (amt, commission_due) ← topupDue deal currency
  let bal := db.balance deal.buyer_id deal.currency_id
  let reported ← store paid
  if paid < commission_due then do
    -- not even the commission: everything goes to the balance
    let new_balance := plus bal.amount.val paid
    let db ← changeBalance db deal.buyer_id deal.currency_id new_balance bal.locked.val
      (depositRef "deal_topup.partial_credit" deposit_id deposit)
    let db := db.setDeposit deposit_id (deposit.settle now (some reported))
    issueRemainingTopupInvoice db deal_id deal currency new_balance reply now
  else do
    let principal_credit ← quantizeMoney (minus paid commission_due) currency.decimals
    let new_balance := plus bal.amount.val principal_credit
    let commission_paid := deal.commission_paid || decide (0 < commission_due)
    if new_balance < amt then do
      let deal := { deal with commission_paid }
      let db ← changeBalance db deal.buyer_id deal.currency_id new_balance bal.locked.val
        (depositRef "deal_topup.partial_credit" deposit_id deposit)
      let db := (db.setDeal deal_id deal).setDeposit deposit_id (deposit.settle now (some reported))
      issueRemainingTopupInvoice db deal_id deal currency new_balance reply now
    else do
      let db ← changeBalance db deal.buyer_id deal.currency_id (minus new_balance amt) (plus bal.locked.val amt)
        (depositRef "deal_topup.activate" deposit_id deposit)
      let db := db.setDeal deal_id { deal with status := .pending_confirmation, commission_paid := true }
      pure (db.setDeposit deposit_id (deposit.settle now (some reported)))

/-- `complete_deal_topup_payment` on the locked deposit row. `reply` is the
provider's answer should a replacement invoice be needed. -/
def completeDealTopupPayment (db : Db) (deposit_id : ℕ) (paid_amount : Option ℚ) (reply : InvoiceReply) (now : Time) :
    Result Db := do
  let deposit ← orRaise (db.wallet_deposits.row deposit_id) .no_result
  if deposit.status = .paid then pure db
  else match deposit.linked_deal_id with
    | none => settleUnattached db deposit_id deposit paid_amount now
    | some deal_id => match db.deals.row deal_id with
      | none => settleUnattached db deposit_id deposit paid_amount now
      | some deal => do
        let currency ← orRaise (db.currencies.row deal.currency_id) currencyVanished
        let paid ← quantizeMoney (paid_amount.getD deposit.amount.val) currency.decimals
        if deal.status = .pending_topup then
          settleTopup db deposit_id deposit deal_id deal currency paid reply now
        else lateCredit db deposit_id deposit deal paid now

/-- The linked deposit of a deal that stops waiting is expired if it is still pending. -/
def expireTopupDeposit (db : Db) (deal : Deal) : Db :=
  match deal.topup_deposit_id with
  | none => db
  | some deposit_id => match db.wallet_deposits.row deposit_id with
    | none => db
    | some deposit =>
      if deposit.status = .pending then db.setDeposit deposit_id { deposit with status := .expired } else db

/-- One deal of `sweep_pending_topup`. -/
def sweepPendingTopupDeal (now : Time) (db : Db) (deal_id : ℕ) : Result Db := do
  let deal ← getDeal db deal_id
  pure ((expireTopupDeposit db deal).setDeal deal_id
    { deal with status := .cancelled_for_inactivity, completed_at := some now })

/-- `sweep_pending_topup`. `picked` are the rows the locking `SELECT` got to,
in the order it returned them. -/
def sweepPendingTopup (db : Db) (picked : List ℕ) (now : Time) : Result Db :=
  let hrs := if db.app_settings.pending_topup_expiry_hours = 0 then 24 else db.app_settings.pending_topup_expiry_hours
  if hrs ≤ 0 then pure db
  else
    let rows := picked.dedup.filter fun i => (db.deals.row i).any fun d =>
      d.status = .pending_topup ∧ d.created_at ≤ now - hours hrs
    rows.foldlM (sweepPendingTopupDeal now) db

/-- `cancel_pending_topup`. -/
def cancelPendingTopup (db : Db) (deal_id user_id : ℕ) (now : Time) : Result Db := do
  let deal ← getDeal db deal_id
  raiseIf (user_id ≠ deal.buyer_id) (.value_error "Отменить ожидающую оплату сделку может только покупатель")
  raiseIf (deal.status ≠ .pending_topup) (.value_error "Сделку нельзя отменить в текущем статусе")
  pure ((expireTopupDeposit db deal).setDeal deal_id { deal with status := .cancelled, completed_at := some now })

/-! ## From acceptance to completion -/

/-- `accept_deal`. -/
def acceptDeal (db : Db) (deal_id user_id : ℕ) (now : Time) : Result Db := do
  let deal ← getDeal db deal_id
  raiseIf (user_id ≠ deal.seller_id) (.value_error "Принять сделку может только продавец")
  raiseIf (deal.status ≠ .pending_confirmation) (.value_error "Сделку нельзя принять в текущем статусе")
  let db := db.setDeal deal_id
    { deal with status := .in_progress, in_progress_at := some now, confirm_buyer := true, confirm_seller := true }
  pure (db.updateUsers [deal.buyer_id, deal.seller_id] fun u => { u with deals_total := u.deals_total + 1 })

/-- `decline_deal`. -/
def declineDeal (db : Db) (deal_id user_id : ℕ) (now : Time) : Result Db := do
  let deal ← getDeal db deal_id
  raiseIf (user_id ≠ deal.seller_id) (.value_error "Отклонить сделку может только продавец")
  raiseIf (deal.status ≠ .pending_confirmation) (.value_error "Сделку нельзя отклонить в текущем статусе")
  let amt ← dealAmount db deal currencyVanished
  let db ← refundPrincipal db deal.buyer_id deal.currency_id amt
  pure (db.setDeal deal_id { deal with status := .cancelled, completed_at := some now })

/-- `finish_deal`. -/
def finishDeal (db : Db) (deal_id user_id : ℕ) (now : Time) : Result Db := do
  let deal ← getDeal db deal_id
  raiseIf (user_id ≠ deal.buyer_id) (.value_error "Завершить сделку может только покупатель")
  raiseIf (deal.status ≠ .in_progress) (.value_error "Сделку нельзя завершить в текущем статусе")
  let amt ← dealAmount db deal currencyVanished
  let db ← releaseTo db deal.buyer_id deal.seller_id deal.currency_id amt amt
  let db := db.setDeal deal_id { deal with status := .completed, completed_at := some now }
  pure (db.updateUsers [deal.buyer_id, deal.seller_id] fun u => { u with deals_success := u.deals_success + 1 })

/-! ## Cancellation by agreement -/

def notParticipant : Exc := .value_error "Вы не участник сделки"

/-- `request_cancel`. -/
def requestCancel (db : Db) (deal_id user_id : ℕ) (reason : String) (now : Time) : Result Db := do
  let deal ← getDeal db deal_id
  raiseIf (user_id ≠ deal.buyer_id ∧ user_id ≠ deal.seller_id) notParticipant
  raiseIf (deal.status ≠ .in_progress) (.value_error "Отмену можно запросить только во время работы по сделке")
  pure (db.setDeal deal_id
    { deal with
      status := .pending_cancellation, cancellation_initiator_id := some user_id,
      cancellation_reason := some reason, cancellation_requested_at := some now })

/-- `revoke_cancel`. -/
def revokeCancel (db : Db) (deal_id user_id : ℕ) : Result Db := do
  let deal ← getDeal db deal_id
  raiseIf (deal.status ≠ .pending_cancellation) (.value_error "Запроса на отмену нет")
  raiseIf (some user_id ≠ deal.cancellation_initiator_id) (.value_error "Отозвать запрос может только инициатор")
  pure (db.setDeal deal_id
    { deal with
      status := .in_progress, cancellation_initiator_id := none, cancellation_reason := none,
      cancellation_requested_at := none })

/-- `accept_cancel`. -/
def acceptCancel (db : Db) (deal_id user_id : ℕ) (now : Time) : Result Db := do
  let deal ← getDeal db deal_id
  raiseIf (deal.status ≠ .pending_cancellation) (.value_error "Запроса на отмену нет")
  raiseIf (user_id ≠ deal.buyer_id ∧ user_id ≠ deal.seller_id) notParticipant
  raiseIf (some user_id = deal.cancellation_initiator_id)
    (.value_error "Инициатор не может согласиться с собственным запросом отмены")
  let amt ← dealAmount db deal currencyVanished
  let db ← refundPrincipal db deal.buyer_id deal.currency_id amt
  pure (db.setDeal deal_id { deal with status := .cancelled, completed_at := some now })

/-! ## Arbitration -/

/-- `start_arbitration`. -/
def startArbitration (db : Db) (deal_id user_id : ℕ) (reason : String) : Result Db := do
  let deal ← getDeal db deal_id
  raiseIf (user_id ≠ deal.buyer_id ∧ user_id ≠ deal.seller_id) notParticipant
  raiseIf (deal.status ≠ .in_progress ∧ deal.status ≠ .pending_cancellation)
    (.value_error "Сделку нельзя передать в арбитраж в текущем статусе")
  raiseIf (strip reason = "") (.value_error "Опишите причину арбитража")
  let db := db.setDeal deal_id
    { deal with status := .arbitration, arbitration_initiator_id := some user_id, arbitration_reason := some reason }
  pure (db.updateUsers [deal.buyer_id, deal.seller_id] fun u => { u with deals_arbitrage := u.deals_arbitrage + 1 })

/-- The money part of `resolve_arbitration`, and the status it leads to. -/
def payWinner (db : Db) (deal : Deal) (winner : String) (amt : ℚ) : Result (Db × DealStatus) :=
  if winner = "buyer" then do
    let db ← refundPrincipal db deal.buyer_id deal.currency_id amt
    pure (db, .resolved_for_buyer)
  else do
    let db ← releaseTo db deal.buyer_id deal.seller_id deal.currency_id amt amt
    pure (db, .resolved_for_seller)

/-- `resolve_arbitration`. -/
def resolveArbitration (db : Db) (deal_id admin_id : ℕ) (winner note : String) (now : Time) : Result Db := do
  let deal ← getDeal db deal_id
  let admin ← orRaise (db.users.row admin_id) .no_result
  raiseIf (¬(admin.is_admin ∨ admin.is_arbiter))
    (.value_error "Только администратор или арбитр может разрешать спор")
  raiseIf (deal.status ≠ .arbitration) (.value_error "Сделка не в статусе арбитража")
  raiseIf (winner ≠ "buyer" ∧ winner ≠ "seller") (.value_error "winner должен быть 'buyer' или 'seller'")
  let amt ← dealAmount db deal currencyVanished
  let (db, status) ← payWinner db deal winner amt
  let reason := if note = "" then deal.arbitration_reason
    else some (strip (deal.arbitration_reason.getD "" ++ "\n— Решение арбитра: " ++ note))
  let db := db.setDeal deal_id
    { deal with
      status, arbitration_resolved_by := some admin_id, arbitration_resolution := some winner,
      arbitration_resolved_at := some now, completed_at := some now, arbitration_reason := reason }
  let (winner_id, loser_id) :=
    if winner = "buyer" then (deal.buyer_id, deal.seller_id) else (deal.seller_id, deal.buyer_id)
  let db := db.updateUsers [loser_id] fun u => { u with deals_failed := u.deals_failed + 1 }
  pure (db.updateUsers [winner_id] fun u => { u with deals_success := u.deals_success + 1 })

/-! ## Inactivity -/

/-- Whether `sweep_inactivity` picks the deal. -/
def inactive (settings : AppSettings) (now : Time) (d : Deal) : Bool :=
  (d.status = .pending_confirmation ∧ d.created_at ≤ now - days settings.inactivity_pending_confirmation_days) ∨
    (d.status = .pending_cancellation ∧
      d.cancellation_requested_at.any (· ≤ now - days settings.inactivity_pending_cancellation_days))

/-- One deal of `sweep_inactivity`; a deal whose currency is gone is passed over. -/
def sweepInactivityDeal (now : Time) (db : Db) (deal_id : ℕ) : Result Db := do
  let deal ← getDeal db deal_id
  match db.currencies.row deal.currency_id with
  | none => pure db
  | some currency => do
    let amt ← quantizeMoney deal.amount.val currency.decimals
    let db ← refundPrincipal db deal.buyer_id deal.currency_id amt
    let status := if deal.status = .pending_confirmation then .cancelled_for_inactivity else .cancelled
    pure (db.setDeal deal_id { deal with status, completed_at := some now })

/-- `sweep_inactivity`. `picked` is as in `sweepPendingTopup`. -/
def sweepInactivity (db : Db) (picked : List ℕ) (now : Time) : Result Db :=
  let rows := picked.dedup.filter fun i => (db.deals.row i).any (inactive db.app_settings now)
  rows.foldlM (sweepInactivityDeal now) db

end Garant
