import Garant.Deals
/-!
# Withdrawals

`create_withdrawal` and `sweep_stale_withdrawals` of `services_wallet.py` and
`decide_withdrawal` of `routers/admin/withdrawals.py`, one definition for each
database transaction; the calls to CryptoBot lie between them.

A session keeps the attributes of a row it has loaded. Where the source locks
a row again without `populate_existing`, the transaction takes the row as the
session last saw it (`seen`) and decides on that; the columns it sets are
written to the committed row.
-/
open Decimal

namespace Garant

def Db.setWithdrawal (db : Db) (withdrawal_id : ℕ) (w : WalletWithdrawal) : Db :=
  { db with wallet_withdrawals := db.wallet_withdrawals.set withdrawal_id w }

def withdrawalRef (event_type : String) (withdrawal_id : ℕ) : LedgerRef :=
  ⟨event_type, "withdrawal", some withdrawal_id, none, none⟩

def sentRef (withdrawal_id : ℕ) (transfer_id : Option String) : LedgerRef :=
  ⟨"withdrawal.sent", "withdrawal", some withdrawal_id, some .cryptobot, transfer_id⟩

/-- The spend of a withdrawal that was paid out: the locked funds are gone. -/
def spendLocked (db : Db) (user_id currency_id : ℕ) (x : ℚ) (ref : LedgerRef) : Result Db :=
  match db.user_balances user_id currency_id with
  | none => pure db
  | some _ => dropLocked db user_id currency_id x ref

/-- The return of a withdrawal that was not: the locked funds are spendable again. -/
def returnLocked (db : Db) (user_id currency_id : ℕ) (x : ℚ) (ref : LedgerRef) : Result Db :=
  match db.user_balances user_id currency_id with
  | none => pure db
  | some _ => unlockAndCredit db user_id currency_id x x ref

/-! ## create_withdrawal -/

/-- `_sanitise_withdraw_address`. -/
def sanitiseWithdrawAddress (raw : String) : String :=
  let cleaned := strip (String.ofList (raw.toList.filter fun c => ¬(c.toNat < 32 ∨ c.toNat = 127 ∨ c = '\\')))
  String.ofList (cleaned.toList.take 256)

/-- The address as it is stored, checked against the currency's pattern. -/
def withdrawAddress (fullmatch : String → String → Bool) (currency : Currency) : Option String → Result (Option String)
  | none => pure none
  | some raw => do
    let address := sanitiseWithdrawAddress raw
    raiseIf (address ≠ "" ∧ currency.address_regex ≠ "" ∧ fullmatch currency.address_regex address = false)
      (.http 400 "Адрес не соответствует формату валюты")
    pure (if address = "" then none else some address)

def Db.adminExists (db : Db) : Bool := db.users.ids (·.is_admin) ≠ []

/-- Whether `create_withdrawal` sends the transfer itself. -/
def Db.autoWithdraw (db : Db) : Bool := isCryptopayConfigured db.settings && db.app_settings.auto_withdraw_enabled

/-- `create_withdrawal` up to its first commit: the funds are locked and the
request is stored. Gives the request's key. -/
def createWithdrawal (db : Db) (fullmatch : String → String → Bool) (user_id : ℕ) (currency_code : String) (amount : ℚ)
    (address : Option String) (now : Time) : Result (ℕ × Db) := do
  raiseIf (amount ≤ 0) (.http 422 "Сумма должна быть больше нуля")
  let (currency_id, currency) ← getCurrencyByCode db currency_code
  raiseIf (amount < currency.min_withdraw.val)
    (.below_minimum 400 "Минимальная сумма вывода" currency.min_withdraw currency.code)
  let address ← withdrawAddress fullmatch currency address
  raiseIf (db.autoWithdraw = false ∧ db.adminExists = false)
    (.http 503 "Вывод временно недоступен: нет доступного способа обработки заявки")
  let bal := db.balance user_id currency_id
  raiseIf (bal.amount.val < amount) (.http 400 "Недостаточно средств")
  let stored ← store amount
  let withdrawal_id := db.wallet_withdrawals.next
  let db ← changeBalance db user_id currency_id (minus bal.amount.val amount) (plus bal.locked.val amount)
    (withdrawalRef "withdrawal.lock" withdrawal_id)
  pure (withdrawal_id,
    { db with
      wallet_withdrawals := db.wallet_withdrawals.insert
        { user_id, currency_id, amount := stored, address, status := .pending, admin_note := "", created_at := now,
          processed_at := none } })

/-- Phase 3 after a transfer that went through: the row is read afresh and
sent once. `amount` is the requested amount, which the session still holds. -/
def createWithdrawalSent (db : Db) (withdrawal_id : ℕ) (amount : ℚ) (transfer_id : String) (now : Time) : Result Db :=
  match db.wallet_withdrawals.row withdrawal_id with
  | none => pure db
  | some w =>
    if w.status = .pending then do
      let db ← spendLocked db w.user_id w.currency_id amount (sentRef withdrawal_id (some transfer_id))
      pure (db.setWithdrawal withdrawal_id
        { w with
          status := .sent, processed_at := some now, admin_note := "cryptobot_transfer_id=" ++ transfer_id })
    else pure db

/-- The refund after a failed transfer when there is no admin. The row is read
afresh, but its status is not looked at. -/
def createWithdrawalAutoFailed (db : Db) (withdrawal_id user_id currency_id : ℕ) (amount : ℚ) (now : Time) :
    Result Db :=
  match db.wallet_withdrawals.row withdrawal_id, db.user_balances user_id currency_id with
  | some w, some _ => do
    let db ← unlockAndCredit db user_id currency_id amount amount
      (withdrawalRef "withdrawal.auto_failed_refund" withdrawal_id)
    pure (db.setWithdrawal withdrawal_id
      { w with
        status := .rejected, processed_at := some now, admin_note := "auto-withdraw failed; no admins available" })
  | _, _ => pure db

/-! ## decide_withdrawal -/

/-- The row, its currency and its user, as `decide_withdrawal` looks them up. -/
def getWithdrawal (db : Db) (withdrawal_id : ℕ) : Result WalletWithdrawal := do
  let w ← orRaise (db.wallet_withdrawals.row withdrawal_id) (.http 404 "Заявка не найдена")
  let _ ← orRaise (db.currencies.row w.currency_id) (.http 404 "Валюта не найдена")
  let _ ← orRaise (db.users.row w.user_id) (.http 404 "Пользователь не найден")
  pure w

def alreadyDecided : Exc := .http 409 "Заявка уже обработана"

/-- `approve`: phase 1 when CryptoBot is configured, and all of it when it is not. -/
def decideApprove (db : Db) (withdrawal_id : ℕ) (note : Option String) : Result Db := do
  let w ← getWithdrawal db withdrawal_id
  raiseIf (w.status ≠ .pending) alreadyDecided
  pure (db.setWithdrawal withdrawal_id { w with status := .approved, admin_note := note.getD "" })

/-- `approve`, after the transfer failed: the error is noted on the fresh row. -/
def decideApproveFailed (db : Db) (withdrawal_id : ℕ) (err : String) : Result Db :=
  match db.wallet_withdrawals.row withdrawal_id with
  | none => pure db
  | some w =>
    let err_tag := String.ofList (("[auto-send failed] " ++ err).toList.take 500)
    let existing := strip w.admin_note
    pure (db.setWithdrawal withdrawal_id
      { w with admin_note := if existing = "" then err_tag else strip (existing ++ "\n" ++ err_tag) })

/-- `approve`, phase 3: the row is locked again, but the status looked at is
the one the session loaded in phase 1. -/
def decideApproveSent (db : Db) (withdrawal_id : ℕ) (seen : WalletWithdrawal) (transfer_id : String) (now : Time) :
    Result Db := do
  let w ← orRaise (db.wallet_withdrawals.row withdrawal_id) (.http 404 "Заявка не найдена")
  raiseIf (seen.status ≠ .approved ∧ seen.status ≠ .sent) alreadyDecided
  if seen.status = .sent then pure db
  else do
    let db ← spendLocked db seen.user_id seen.currency_id seen.amount.val (sentRef withdrawal_id (some transfer_id))
    pure (db.setWithdrawal withdrawal_id { w with status := .sent, processed_at := some now })

/-- `reject`. -/
def decideReject (db : Db) (withdrawal_id : ℕ) (note : Option String) (now : Time) : Result Db := do
  let w ← getWithdrawal db withdrawal_id
  raiseIf (w.status ≠ .pending ∧ w.status ≠ .approved) alreadyDecided
  let db ← returnLocked db w.user_id w.currency_id w.amount.val (withdrawalRef "withdrawal.reject" withdrawal_id)
  pure (db.setWithdrawal withdrawal_id
    { w with status := .rejected, admin_note := note.getD "", processed_at := some now })

/-- `mark_sent`. -/
def decideMarkSent (db : Db) (withdrawal_id : ℕ) (note : Option String) (now : Time) : Result Db := do
  let w ← getWithdrawal db withdrawal_id
  raiseIf (w.status ≠ .approved) (.http 409 "Можно отметить отправленным только одобренную заявку")
  let db ← spendLocked db w.user_id w.currency_id w.amount.val (withdrawalRef "withdrawal.sent" withdrawal_id)
  pure (db.setWithdrawal withdrawal_id
    { w with status := .sent, admin_note := note.getD w.admin_note, processed_at := some now })

/-! ## sweep_stale_withdrawals -/

/-- Phase A: the rows the sweep will ask CryptoBot about, read without a lock. -/
def staleWithdrawals (db : Db) (now : Time) : List ℕ :=
  let stale_seconds := db.settings.wallet_withdrawal_stale_seconds
  if stale_seconds ≤ 0 ∨ isCryptopayConfigured db.settings = false then []
  else db.wallet_withdrawals.ids fun w => w.status = .pending ∧ w.created_at ≤ now - seconds stale_seconds

/-- `existing_note + ("\n" if existing_note else "") + stamp`. -/
def appendNote (existing stamp : String) : String := if existing = "" then stamp else existing ++ "\n" ++ stamp

/-- Phase C for one row: it is locked again, but the status looked at is the
one the session loaded in phase A. `matched` is the completed transfer
CryptoBot reported, if any. The balance is written without a ledger entry. -/
def sweepStaleWithdrawal (db : Db) (withdrawal_id : ℕ) (seen : WalletWithdrawal) (matched : Option String) (now : Time) :
    Result Db :=
  match db.wallet_withdrawals.row withdrawal_id with
  | none => pure db
  | some w =>
    if seen.status ≠ .pending then pure db
    else do
      let db := lockUserBalance db seen.user_id seen.currency_id
      let bal := db.balance seen.user_id seen.currency_id
      let locked := max 0 (minus bal.locked.val seen.amount.val)
      match matched with
      | some transfer_id => do
        let db ← writeBalance db seen.user_id seen.currency_id bal.amount.val locked
        pure (db.setWithdrawal withdrawal_id
          { w with
            status := .sent, processed_at := some now,
            admin_note := appendNote seen.admin_note ("sweep-reconcile: cryptobot_transfer_id=" ++ transfer_id) })
      | none => do
        let db ← writeBalance db seen.user_id seen.currency_id (plus bal.amount.val seen.amount.val) locked
        pure (db.setWithdrawal withdrawal_id
          { w with
            status := .rejected, processed_at := some now,
            admin_note := appendNote seen.admin_note
              ("sweep-reconcile: no cryptobot transfer for spend_id=wd:" ++ toString withdrawal_id ++
                ", funds refunded") })

end Garant
