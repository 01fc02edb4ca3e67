import Garant.Lib.Decimal
import Garant.Lib.Table
/-!
# Rows and the database

The rows the money operations read and write, with the columns they use, and
the database as a whole. Money columns are `Numeric(28, 8)`. Times are whole
microseconds. An operation takes the database and gives the committed one, or
the exception that rolled it back.
-/

namespace Garant

/-- A money column, `Numeric(MONEY_PRECISION, MONEY_SCALE)`. -/
abbrev Money := Decimal.Numeric 28 8

theorem money_zero_fits : (0 : ℤ).natAbs < 10 ^ 28 := by decide

theorem money_ten_fits : (1000000000 : ℤ).natAbs < 10 ^ 28 := by decide

/-- A percentage column, `Numeric(5, 2)`. -/
abbrev Percent := Decimal.Numeric 5 2

abbrev Time := ℤ

def seconds (n : ℤ) : Time := n * 1000000
def hours (n : ℤ) : Time := seconds (n * 3600)
def days (n : ℤ) : Time := hours (n * 24)

/-! ## Enumerations -/

inductive DealStatus
  | cancelled
  | pending_confirmation
  | pending_payment
  | in_progress
  | completed
  | arbitration
  | resolved_for_buyer
  | resolved_for_seller
  | pending_cancellation
  | cancelled_for_inactivity
  | pending_topup
deriving DecidableEq, Repr

inductive WalletDepositProvider
  | cryptobot
  | crystalpay
deriving DecidableEq, Repr

inductive WalletDepositStatus
  | pending
  | paid
  | expired
  | refunded
deriving DecidableEq, Repr

/-- `WalletDeposit.purpose`, the closed set of `ck_wallet_deposits_purpose_known`. -/
inductive Purpose
  | wallet
  | trust
  | deal_topup
deriving DecidableEq, Repr

inductive WalletWithdrawStatus
  | pending
  | approved
  | sent
  | rejected
deriving DecidableEq, Repr

/-- `AdminApprovalRequest.status`. -/
inductive ApprovalStatus
  | pending
  | approved
  | rejected
  | executed
deriving DecidableEq, Repr

/-- `ProviderWebhookEvent.status`. -/
inductive WebhookStatus
  | received
  | processing
  | processed
  | ignored
  | failed
deriving DecidableEq, Repr

/-! ## Rows -/

structure User where
  tg_user_id : ℤ
  is_admin : Bool
  is_arbiter : Bool
  is_vip : Bool
  trust_deposit_balance : Money
  deals_total : ℕ
  deals_success : ℕ
  deals_failed : ℕ
  deals_arbitrage : ℕ
deriving DecidableEq

structure Currency where
  code : String
  decimals : ℕ
  min_deposit : Money
  min_withdraw : Money
  is_active : Bool
  address_regex : String
deriving DecidableEq

structure AppSettings where
  deal_commission_percent : Percent
  vip_commission_percent : Percent
  inactivity_pending_confirmation_days : ℤ
  inactivity_pending_cancellation_days : ℤ
  pending_topup_expiry_hours : ℤ
  auto_withdraw_enabled : Bool
  pin_reset_price_usd : Money

/-- The process settings (`config.settings`). -/
structure Settings where
  cryptobot_token : String
  crystalpay_login : String
  crystalpay_secret : String
  wallet_deposit_expiry_seconds : ℤ
  wallet_withdrawal_stale_seconds : ℤ
  admin_deal_approval_threshold_usd : ℚ

structure CurrencyUsdRate where
  id : ℕ
  usd_rate : Money

/-- One user's funds in one currency: `amount` is spendable, `locked` is held. -/
structure UserBalance where
  amount : Money
  locked : Money
deriving DecidableEq

theorem UserBalance.eta (b : UserBalance) : (⟨b.amount, b.locked⟩ : UserBalance) = b := rfl

structure WalletLedgerEntry where
  user_id : ℕ
  currency_id : ℕ
  event_type : String
  source_type : String
  source_id : Option ℕ
  provider : Option WalletDepositProvider
  provider_event_id : Option String
  amount_before : Money
  amount_delta : Money
  amount_after : Money
  locked_before : Money
  locked_delta : Money
  locked_after : Money

structure Deal where
  buyer_id : ℕ
  seller_id : ℕ
  status : DealStatus
  confirm_buyer : Bool
  confirm_seller : Bool
  created_at : Time
  completed_at : Option Time
  currency_id : ℕ
  amount : Money
  commission_amount : Option Money
  in_progress_at : Option Time
  cancellation_initiator_id : Option ℕ
  cancellation_reason : Option String
  cancellation_requested_at : Option Time
  arbitration_initiator_id : Option ℕ
  arbitration_reason : Option String
  arbitration_resolved_by : Option ℕ
  arbitration_resolution : Option String
  arbitration_resolved_at : Option Time
  payment_provider : String
  topup_deposit_id : Option ℕ
  commission_paid : Bool
deriving DecidableEq

structure WalletDeposit where
  user_id : ℕ
  currency_id : ℕ
  amount : Money
  provider : WalletDepositProvider
  provider_invoice_id : String
  status : WalletDepositStatus
  purpose : Purpose
  linked_deal_id : Option ℕ
  created_at : Time
  paid_at : Option Time
  paid_amount : Option Money
deriving DecidableEq

structure WalletWithdrawal where
  user_id : ℕ
  currency_id : ℕ
  amount : Money
  address : Option String
  status : WalletWithdrawStatus
  admin_note : String
  created_at : Time
  processed_at : Option Time

/-- What an approval request was asked for, as its JSON column keeps it; a later call must ask for the same. -/
structure ApprovalPayload where
  currency : String
  amount : String
  buyer_percent : Option String
deriving DecidableEq

structure AdminApprovalRequest where
  action : String
  target_type : String
  target_id : ℕ
  status : ApprovalStatus
  requested_by_id : ℕ
  approved_by_id : Option ℕ
  executed_by_id : Option ℕ
  currency_id : ℕ
  rate_id : Option ℕ
  amount : Money
  amount_usd_estimate : Option Money
  reason : Option String
  payload : ApprovalPayload
  approved_at : Option Time
  executed_at : Option Time
  rejected_at : Option Time

structure ProviderWebhookEvent where
  provider : WalletDepositProvider
  event_id : String
  status : WebhookStatus
  attempts : ℕ
  created_at : Time
  processed_at : Option Time

/-! ## The database -/

structure Db where
  settings : Settings
  app_settings : AppSettings
  users : Table User
  currencies : Table Currency
  usd_rates : ℕ → Option CurrencyUsdRate
  user_balances : ℕ → ℕ → Option UserBalance
  wallet_ledger_entries : List WalletLedgerEntry
  deals : Table Deal
  wallet_deposits : Table WalletDeposit
  wallet_withdrawals : Table WalletWithdrawal
  admin_approval_requests : Table AdminApprovalRequest
  provider_webhook_events : Table ProviderWebhookEvent

/-- Why an operation ended without a commit. -/
inductive Exc
  | value_error (msg : String)
  | insufficient_funds (required balance deficit : ℚ) (currency_code : Option String)
  | http (status_code : ℕ) (detail : String)
  /-- A minimum the text ends with: `"{detail}: {minimum} {code}"`. -/
  | below_minimum (status_code : ℕ) (detail : String) (minimum : Money) (code : String)
  | adjust_below_zero (before delta : ℚ)
  | pin_reset_insufficient (price available : ℚ)
  /-- `decimal.InvalidOperation`: the result of `quantize` needs more digits than the context has. -/
  | invalid_operation
  /-- The database refused a value that does not fit its column. -/
  | numeric_overflow
  /-- The database refused a row that breaks a unique constraint. -/
  | integrity_error
  | multiple_results
  | no_result
  /-- `StaleDataError`: the row of an `UPDATE` is gone. -/
  | stale_data
deriving DecidableEq

abbrev Result := Except Exc

/-- `if c: raise e`. -/
def raiseIf (c : Prop) [Decidable c] (e : Exc) : Result Unit := if c then .error e else .ok ()

/-- The row, or the exception if there is none. -/
def orRaise {α : Type} (x : Option α) (e : Exc) : Result α := x.elim (.error e) .ok

section
variable {α β : Type}

theorem bind_ok {x : Result α} {f : α → Result β} {b : β} : (x >>= f) = .ok b ↔ ∃ a, x = .ok a ∧ f a = .ok b := by
  cases x <;> simp [bind, Except.bind]

theorem raiseIf_ok {c : Prop} [Decidable c] {e : Exc} {u : Unit} : raiseIf c e = .ok u ↔ ¬c := by
  unfold raiseIf
  split <;> simp_all

theorem orRaise_ok {x : Option α} {e : Exc} {a : α} : orRaise x e = .ok a ↔ x = some a := by
  cases x <;> simp [orRaise]

theorem pure_ok {a b : α} : (pure a : Result α) = .ok b ↔ a = b := by simp [pure, Except.pure]

theorem map_ok {x : Result α} {f : α → β} {b : β} : (f <$> x) = .ok b ↔ ∃ a, x = .ok a ∧ f a = b := by
  cases x <;> simp [Functor.map, Except.map]

theorem bind_error {x : Result α} {f : α → Result β} {e : Exc} :
    (x >>= f) = .error e ↔ x = .error e ∨ ∃ a, x = .ok a ∧ f a = .error e := by
  cases x <;> simp [bind, Except.bind]

theorem ok_bind (a : α) (f : α → Result β) : (.ok a >>= f : Result β) = f a := rfl

theorem throw_ok {e : Exc} {b : α} : (throw e : Result α) = .ok b ↔ False := by simp [throw, throwThe, MonadExceptOf.throw]

/-- The computation does not end in the exception `e`. -/
def Avoids (e : Exc) (x : Result α) : Prop := x ≠ .error e

variable {e e' : Exc} {x : Result α} {f : α → Result β}

theorem Avoids.ok (a : α) : Avoids e (.ok a : Result α) := nofun

theorem Avoids.pure (a : α) : Avoids e (pure a : Result α) := nofun

theorem Avoids.of_ok {a : α} (h : x = .ok a) : Avoids e x := by
  rw [h]
  exact .ok a

theorem Avoids.bind (hx : Avoids e x) (hf : ∀ a, x = .ok a → Avoids e (f a)) : Avoids e (x >>= f) := by
  intro h
  rcases bind_error.1 h with h | ⟨a, ha, h⟩
  · exact hx h
  · exact hf a ha h

theorem Avoids.throw (he : e' ≠ e) : Avoids e (throw e' : Result α) := fun h => he (Except.error.inj h)

theorem Avoids.orRaise {o : Option α} (he : e' ≠ e) : Avoids e (orRaise o e') := by
  cases o with
  | none => exact fun h => he (Except.error.inj h)
  | some a => exact .ok a

theorem Avoids.raiseIf {c : Prop} [Decidable c] (he : e' ≠ e) : Avoids e (raiseIf c e') := by
  unfold Garant.raiseIf
  split
  · exact fun h => he (Except.error.inj h)
  · exact .ok ()

end

end Garant
