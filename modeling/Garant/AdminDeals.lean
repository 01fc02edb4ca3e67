import Garant.Deals
/-!
# Admin actions on deals

`routers/admin/deals.py`: the approval gate for large amounts, the forced
settlements, forced arbitration, and deletion. Every action is committed or
rolled back as a whole; the audit rows are not modelled. A forced settlement
also says what it executed (`Execution`), which the program does not keep.
-/
open Decimal

namespace Garant

/-- `_is_terminal`. -/
def isTerminal (status : DealStatus) : Bool :=
  status ∈ [.cancelled, .completed, .resolved_for_buyer, .resolved_for_seller, .cancelled_for_inactivity]

/-- `_is_active_for_money_movement`. -/
def isActiveForMoneyMovement (status : DealStatus) : Bool :=
  status ∈ [.pending_confirmation, .in_progress, .pending_cancellation, .arbitration]

/-! ## Approvals -/

/-- What the approval gate answers: go on, with the approval to mark as
executed, or stop because a second admin has to decide. -/
inductive Gate
  | proceed (approval_id : Option ℕ)
  | held (approval_id : ℕ)
deriving DecidableEq

/-- `_estimate_usd`. -/
def estimateUsd (db : Db) (currency_id : ℕ) (amount : ℚ) : Option ℚ × Option CurrencyUsdRate :=
  match db.usd_rates currency_id with
  | none => (none, none)
  | some rate => (some (times amount rate.usd_rate.val), some rate)

/-- The request a later call can refer to: the open one for the same action and payload, or a new one. -/
def requestApproval (db : Db) (admin_id deal_id currency_id : ℕ) (action : String) (amount : ℚ)
    (reason : Option String) (payload : ApprovalPayload) : Result (Db × Gate) := do
  let (amount_usd, rate) := estimateUsd db currency_id amount
  match db.admin_approval_requests.ids fun a =>
    a.action = action ∧ a.target_type = "deal" ∧ a.target_id = deal_id ∧ a.status = .pending ∧ a.payload = payload with
  | [existing] => pure (db, .held existing)
  | _ :: _ :: _ => throw .multiple_results
  | [] => do
    let amount ← store amount
    let amount_usd_estimate ← storeOpt amount_usd
    let approval : AdminApprovalRequest :=
      { action, target_type := "deal", target_id := deal_id, status := .pending, requested_by_id := admin_id,
        approved_by_id := none, executed_by_id := none, currency_id, rate_id := rate.map (·.id), amount,
        amount_usd_estimate, reason, payload, approved_at := none, executed_at := none, rejected_at := none }
    pure ({ db with admin_approval_requests := db.admin_approval_requests.insert approval },
      .held db.admin_approval_requests.next)

/-- The checks on a request the caller refers to. -/
def checkApproval (db : Db) (admin_id deal_id : ℕ) (action : String) (payload : ApprovalPayload) (approval_id : ℕ) :
    Result Unit := do
  let approval ← orRaise (db.admin_approval_requests.row approval_id) (.http 404 "Approval request not found")
  raiseIf (approval.status ≠ .approved) (.http 409 "Approval request is not approved")
  raiseIf (approval.target_type ≠ "deal" ∨ approval.target_id ≠ deal_id ∨ approval.action ≠ action)
    (.http 400 "Approval request does not match this action")
  raiseIf (approval.payload ≠ payload) (.http 400 "Approval request payload does not match this action")
  raiseIf (approval.requested_by_id = admin_id ∧ approval.approved_by_id = none)
    (.http 400 "Approval request needs a second admin")

/-- `_ensure_approval_or_create`. -/
def ensureApprovalOrCreate (db : Db) (admin_id deal_id currency_id : ℕ) (action : String) (amount : ℚ)
    (reason : Option String) (payload : ApprovalPayload) (approval_id : Option ℕ) : Result (Db × Gate) :=
  let threshold := db.settings.admin_deal_approval_threshold_usd
  if threshold ≤ 0 then pure (db, .proceed none)
  else if (estimateUsd db currency_id amount).1.any (· < threshold) then pure (db, .proceed none)
  else match approval_id with
    | none => requestApproval db admin_id deal_id currency_id action amount reason payload
    | some approval_id => do
      checkApproval db admin_id deal_id action payload approval_id
      pure (db, .proceed (some approval_id))

def Db.setApproval (db : Db) (approval_id : ℕ) (approval : AdminApprovalRequest) : Db :=
  { db with admin_approval_requests := db.admin_approval_requests.set approval_id approval }

/-- `_mark_approval_executed`. -/
def markApprovalExecuted (db : Db) (approval_id : Option ℕ) (admin_id : ℕ) (now : Time) : Db :=
  match approval_id with
  | none => db
  | some i => match db.admin_approval_requests.row i with
    | none => db
    | some approval => db.setApproval i
        { approval with status := .executed, executed_by_id := some admin_id, executed_at := some now }

/-- `_get_approval_or_404`, which only sees requests about deals. -/
def getApproval (db : Db) (approval_id : ℕ) : Result AdminApprovalRequest := do
  let approval ← orRaise (db.admin_approval_requests.row approval_id) (.http 404 "Approval request not found")
  raiseIf (approval.target_type ≠ "deal") (.http 404 "Approval request not found")
  pure approval

/-- `approve_deal_approval`. -/
def approveDealApproval (db : Db) (approval_id admin_id : ℕ) (now : Time) : Result Db := do
  let approval ← getApproval db approval_id
  raiseIf (approval.status ≠ .pending) (.http 409 "Approval request is not pending")
  raiseIf (approval.requested_by_id = admin_id) (.http 400 "Approval request needs a second admin")
  pure (db.setApproval approval_id
    { approval with status := .approved, approved_by_id := some admin_id, approved_at := some now })

/-- `reject_deal_approval`. -/
def rejectDealApproval (db : Db) (approval_id : ℕ) (now : Time) : Result Db := do
  let approval ← getApproval db approval_id
  raiseIf (approval.status ≠ .pending) (.http 409 "Approval request is not pending")
  pure (db.setApproval approval_id { approval with status := .rejected, rejected_at := some now })

/-! ## Forced settlements -/

def adminRef (event_type : String) (deal_id : ℕ) : LedgerRef := dealRef event_type (some deal_id)

/-- `_release_locked_to_seller`. -/
def releaseLockedToSeller (db : Db) (deal_id : ℕ) (deal : Deal) (amt : ℚ) : Result Db := do
  let db ← dropLocked db deal.buyer_id deal.currency_id amt (adminRef "admin_deal.force_release.debit" deal_id)
  creditAmount db deal.seller_id deal.currency_id amt (adminRef "admin_deal.force_release.credit" deal_id)

/-- `_refund_locked_to_buyer`. -/
def refundLockedToBuyer (db : Db) (deal_id : ℕ) (deal : Deal) (amt : ℚ) : Result Db :=
  unlockAndCredit db deal.buyer_id deal.currency_id amt amt (adminRef "admin_deal.force_refund" deal_id)

/-- The buyer's share of a split. -/
def buyerShare (amt buyer_percent : ℚ) (decimals : ℕ) : Result ℚ :=
  quantizeMoney (quotient (times amt buyer_percent) 100) decimals

/-- `_split_locked`. -/
def splitLocked (db : Db) (deal_id : ℕ) (deal : Deal) (amt buyer_percent : ℚ) (decimals : ℕ) : Result Db := do
  let buyer_share ← buyerShare amt buyer_percent decimals
  let seller_share := minus amt buyer_share
  let db ← unlockAndCredit db deal.buyer_id deal.currency_id amt buyer_share (adminRef "admin_deal.split.buyer" deal_id)
  creditAmount db deal.seller_id deal.currency_id seller_share (adminRef "admin_deal.split.seller" deal_id)

/-- A forced settlement: what it is called, how it moves the money, and where it leads. -/
structure ForcedSettlement where
  action : String
  buyer_percent : Option String
  move : Db → ℕ → Deal → ℚ → ℕ → Result Db
  status : DealStatus
  resolution : String

/-- An executed settlement: what it settled, the rate its gate read, and the request it used. -/
structure Execution where
  deal_id : ℕ
  action : String
  payload : ApprovalPayload
  currency_id : ℕ
  amount : ℚ
  rate : Option CurrencyUsdRate
  approval : Option ℕ

/-- The body `force_release`, `force_refund` and `split_deal` share: the status
gate, the approval gate, the movement, and the closing of the deal. -/
def forceSettleTraced (f : ForcedSettlement) (db : Db) (deal_id admin_id : ℕ) (reason : Option String)
    (approval_id : Option ℕ) (now : Time) : Result (Db × Option Execution) := do
  let deal ← getDeal db deal_id
  raiseIf (isActiveForMoneyMovement deal.status = false) (.http 400 "Сделка не в активной фазе расчётов")
  let currency ← orRaise (db.currencies.row deal.currency_id) (.http 500 "Внутренняя ошибка: валюта сделки не найдена")
  let amt ← quantizeMoney deal.amount.val currency.decimals
  let payload : ApprovalPayload := ⟨currency.code, str currency.decimals amt, f.buyer_percent⟩
  let rate := db.usd_rates deal.currency_id
  let (db, gate) ← ensureApprovalOrCreate db admin_id deal_id deal.currency_id f.action amt reason payload approval_id
  match gate with
  | .held _ => pure (db, none)
  | .proceed approval_id => do
    let db ← f.move db deal_id deal amt currency.decimals
    let db := db.setDeal deal_id
      { deal with
        status := f.status, completed_at := some now, arbitration_resolved_by := some admin_id,
        arbitration_resolution := some f.resolution,
        arbitration_resolved_at := deal.arbitration_resolved_at <|> some now }
    pure (markApprovalExecuted db approval_id admin_id now,
      some ⟨deal_id, f.action, payload, deal.currency_id, amt, rate, approval_id⟩)

def forceSettle (f : ForcedSettlement) (db : Db) (deal_id admin_id : ℕ) (reason : Option String)
    (approval_id : Option ℕ) (now : Time) : Result Db :=
  (·.1) <$> forceSettleTraced f db deal_id admin_id reason approval_id now

def releaseSettlement : ForcedSettlement where
  action := "deal.force_release"
  buyer_percent := none
  move db deal_id deal amt _ := releaseLockedToSeller db deal_id deal amt
  status := .resolved_for_seller
  resolution := "seller"

def refundSettlement : ForcedSettlement where
  action := "deal.force_refund"
  buyer_percent := none
  move db deal_id deal amt _ := refundLockedToBuyer db deal_id deal amt
  status := .resolved_for_buyer
  resolution := "buyer"

def splitSettlement (buyer_percent : ℚ) (text : String) : ForcedSettlement where
  action := "deal.split"
  buyer_percent := some text
  move db deal_id deal amt decimals := splitLocked db deal_id deal amt buyer_percent decimals
  status := if 50 ≤ buyer_percent then .resolved_for_buyer else .resolved_for_seller
  resolution := if 50 ≤ buyer_percent then "buyer" else "seller"

/-- `force_release`. -/
def forceRelease : Db → ℕ → ℕ → Option String → Option ℕ → Time → Result Db := forceSettle releaseSettlement

/-- `force_refund`. -/
def forceRefund : Db → ℕ → ℕ → Option String → Option ℕ → Time → Result Db := forceSettle refundSettlement

/-- A `Decimal` of a request body. A zero has a sign too. -/
structure BodyDecimal where
  val : ℚ
  neg : Bool
  sign : if neg then val ≤ 0 else 0 ≤ val

/-- `AdminDealSplitIn._percent_ok`: the percentage must lie in 0..100 and is rounded to two digits. -/
def percentOk (v : BodyDecimal) : Result ℚ := do
  raiseIf (v.val < 0 ∨ 100 < v.val) (.http 422 "Доля покупателя должна быть в диапазоне 0..100")
  quantizeMoney v.val 2

/-- The rounded percentage as the payload has it; rounding keeps the sign. -/
def percentText (v : BodyDecimal) (buyer_percent : ℚ) : String := (if v.neg then "-" else "") ++ str 2 buyer_percent

/-- `split_deal`. -/
def splitDeal (db : Db) (deal_id admin_id : ℕ) (body : BodyDecimal) (reason : Option String) (approval_id : Option ℕ)
    (now : Time) : Result Db := do
  let buyer_percent ← percentOk body
  forceSettle (splitSettlement buyer_percent (percentText body buyer_percent)) db deal_id admin_id reason approval_id now

/-! ## Arbitration and deletion -/

/-- `force_arbitration`. -/
def forceArbitration (db : Db) (deal_id admin_id : ℕ) (reason : Option String) : Result Db := do
  let deal ← getDeal db deal_id
  raiseIf (isTerminal deal.status = true) (.http 400 "Сделка уже завершена")
  if deal.status = .arbitration then pure db
  else pure (db.setDeal deal_id
    { deal with
      status := .arbitration, arbitration_initiator_id := some admin_id,
      arbitration_reason := some (match reason with
        | none => "Открыто администратором"
        | some r => if r = "" then "Открыто администратором" else r) })

/-- `assign_arbiter`. -/
def assignArbiter (db : Db) (deal_id : ℕ) (arbiter_id : Option ℕ) : Result Db := do
  let deal ← getDeal db deal_id
  raiseIf (deal.status ≠ .arbitration) (.http 400 "Назначить арбитра можно только для сделки в арбитраже")
  match arbiter_id with
  | none => pure ()
  | some i => do
    let arbiter ← orRaise (db.users.row i) (.http 404 "Пользователь не найден")
    raiseIf (¬(arbiter.is_arbiter ∨ arbiter.is_admin)) (.http 400 "Назначаемый пользователь не имеет роли арбитра")
  if deal.arbitration_resolved_by = arbiter_id then pure db
  else pure (db.setDeal deal_id { deal with arbitration_resolved_by := arbiter_id })

/-- `session.delete(deal)`: the row goes, and `ON DELETE SET NULL` clears the deposits that point at it. -/
def removeDeal (db : Db) (deal_id : ℕ) : Db :=
  { db with
    deals := db.deals.erase deal_id
    wallet_deposits := db.wallet_deposits.mapRows fun _ d =>
      if d.linked_deal_id = some deal_id then { d with linked_deal_id := none } else d }

/-- `delete_deal`: what is still locked goes back to the buyer, with no ledger entry. -/
def deleteDeal (db : Db) (deal_id : ℕ) : Result Db := do
  let deal ← getDeal db deal_id
  match db.currencies.row deal.currency_id with
  | none => pure (removeDeal db deal_id)
  | some currency =>
    if isActiveForMoneyMovement deal.status then do
      let locked_pot ← quantizeMoney deal.amount.val currency.decimals
      let db := lockUserBalance db deal.buyer_id deal.currency_id
      let bal := db.balance deal.buyer_id deal.currency_id
      let db ← writeBalance db deal.buyer_id deal.currency_id (plus bal.amount.val locked_pot)
        (max 0 (minus bal.locked.val locked_pot))
      pure (removeDeal db deal_id)
    else pure (removeDeal db deal_id)

end Garant
