import Garant.Money
/-!
# Deposit invoices

`create_deposit_invoice` of `services_wallet.py`: a pending deposit row for an
invoice the provider issued. What the provider answered is an argument.
-/
open Decimal

namespace Garant

/-- The provider's answer to `create_invoice`. -/
inductive InvoiceReply
  | error (msg : String)
  | invoice (id pay_url : String)
deriving DecidableEq

/-- White space as `str.strip` and `str.isspace` see it. -/
def isSpace (c : Char) : Bool :=
  let n := c.toNat
  (9 ≤ n && n ≤ 13) || (28 ≤ n && n ≤ 32) || n == 0x85 || n == 0xA0 || n == 0x1680 || (0x2000 ≤ n && n ≤ 0x200A) ||
    n == 0x2028 || n == 0x2029 || n == 0x202F || n == 0x205F || n == 0x3000

/-- `str.strip`. -/
def strip (s : String) : String :=
  String.ofList ((s.toList.dropWhile isSpace).reverse.dropWhile isSpace).reverse

/-- `is_cryptopay_configured`. -/
def isCryptopayConfigured (settings : Settings) : Bool :=
  let token := strip settings.cryptobot_token
  token ≠ "" ∧ token ∉ ["000000:FAKE", "0000000000:FAKE", "000000:REPLACE_ME", "0000000000:REPLACE_ME"]

/-- The provider part: configuration checks, the provider's answer, and the invoice's id. -/
def createCryptobotInvoice (db : Db) : InvoiceReply → Result String
  | reply => do
    raiseIf (isCryptopayConfigured db.settings = false) (.http 502 "CryptoBot не настроен")
    match reply with
    | .error e => throw (.http 502 ("Ошибка CryptoBot: " ++ e))
    | .invoice id pay_url => do
      raiseIf (pay_url = "") (.http 502 "CryptoBot не вернул ссылку для оплаты")
      pure id

def createCrystalpayInvoice (db : Db) : InvoiceReply → Result String
  | reply => do
    raiseIf (db.settings.crystalpay_login = "" ∨ db.settings.crystalpay_secret = "") (.http 502 "Crystalpay не настроен")
    match reply with
    | .error e => throw (.http 502 ("Ошибка Crystalpay: " ++ e))
    | .invoice id url => do
      raiseIf (id = "" ∨ url = "") (.http 502 "Crystalpay не вернул ссылку для оплаты")
      pure id

/-- The invoice is issued by the named provider. -/
def createProviderInvoice (db : Db) (provider : String) (reply : InvoiceReply) :
    Result (WalletDepositProvider × String) :=
  if provider = "crystalpay" then do
    let id ← createCrystalpayInvoice db reply
    pure (.crystalpay, id)
  else if provider = "cryptobot" then do
    let id ← createCryptobotInvoice db reply
    pure (.cryptobot, id)
  else throw (.http 400 ("Неизвестный провайдер: " ++ provider))

/-- The deposit row of a provider's invoice; `(provider, provider_invoice_id)` is unique. -/
def insertDeposit (db : Db) (deposit : WalletDeposit) : Result (ℕ × Db) := do
  let same := db.wallet_deposits.ids fun d =>
    d.provider == deposit.provider && d.provider_invoice_id == deposit.provider_invoice_id
  raiseIf (same ≠ []) .integrity_error
  pure (db.wallet_deposits.next, { db with wallet_deposits := db.wallet_deposits.insert deposit })

/-- `create_deposit_invoice`. Gives the key of the new row. -/
def createDepositInvoice (db : Db) (user_id : ℕ) (currency_code : String) (amount : ℚ) (purpose : Purpose)
    (provider : String) (min_check : Bool) (reply : InvoiceReply) (now : Time) : Result (ℕ × Db) := do
  let (currency_id, currency) ← getCurrencyByCode db currency_code
  let amount_d ← quantizeMoney amount currency.decimals
  raiseIf (min_check = true ∧ amount_d < currency.min_deposit.val)
    (.below_minimum 400 "Минимальная сумма пополнения" currency.min_deposit currency.code)
  let (provider, provider_invoice_id) ← createProviderInvoice db provider reply
  let amount ← store amount_d
  insertDeposit db
    { user_id, currency_id, amount, provider, provider_invoice_id, status := .pending, purpose,
      linked_deal_id := none, created_at := now, paid_at := none, paid_amount := none }

/-! ## Failures -/

/-- Issuing an invoice raises HTTP errors and those of the database, but no
`ValueError`, and `InvalidOperation` only where it quantises. -/
def Foreign : Exc → Prop
  | .value_error _ | .invalid_operation => True
  | _ => False

section
variable {db : Db} {e : Exc} {reply : InvoiceReply}

theorem Foreign.ne {e' : Exc} (he : Foreign e) (h : ¬Foreign e') : e' ≠ e := by
  rintro rfl
  exact h he

theorem getCurrencyByCode_avoids (he : Foreign e) (code : String) : Avoids e (getCurrencyByCode db code) := by
  unfold getCurrencyByCode
  split
  · exact Avoids.throw (he.ne id)
  · exact (Avoids.orRaise (he.ne id)).bind fun _ _ => .pure _

theorem createProviderInvoice_avoids (he : Foreign e) (provider : String) :
    Avoids e (createProviderInvoice db provider reply) := by
  unfold createProviderInvoice
  split
  · refine Avoids.bind ?_ fun _ _ => .pure _
    refine (Avoids.raiseIf (he.ne id)).bind fun _ _ => ?_
    cases reply with
    | error msg => exact .throw (he.ne id)
    | invoice pid url => exact (Avoids.raiseIf (he.ne id)).bind fun _ _ => .pure _
  split
  · refine Avoids.bind ?_ fun _ _ => .pure _
    refine (Avoids.raiseIf (he.ne id)).bind fun _ _ => ?_
    cases reply with
    | error msg => exact .throw (he.ne id)
    | invoice pid url => exact (Avoids.raiseIf (he.ne id)).bind fun _ _ => .pure _
  · exact .throw (he.ne id)

theorem createDepositInvoice_avoids {u : ℕ} {code provider : String} {amount : ℚ} {purpose : Purpose} {m : Bool} {now : Time}
    (he : Foreign e) (h : ∀ c cur, getCurrencyByCode db code = .ok (c, cur) → Avoids e (quantizeMoney amount cur.decimals)) :
    Avoids e (createDepositInvoice db u code amount purpose provider m reply now) := by
  refine (getCurrencyByCode_avoids he code).bind ?_
  rintro ⟨c, cur⟩ hc
  refine (h c cur hc).bind fun y _ => (Avoids.raiseIf (he.ne id)).bind fun _ _ => ?_
  refine (createProviderInvoice_avoids he provider).bind ?_
  rintro ⟨p, pid⟩ -
  exact (Avoids.orRaise (he.ne id)).bind fun _ _ => (Avoids.raiseIf (he.ne id)).bind fun _ _ => .pure _

end

/-- A new invoice only adds a pending deposit row under the next key. -/
theorem createDepositInvoice_ok {db : Db} {user_id : ℕ} {code : String} {amount : ℚ} {purpose : Purpose}
    {provider : String} {min_check : Bool} {reply : InvoiceReply} {now : Time} {r : ℕ × Db}
    (h : createDepositInvoice db user_id code amount purpose provider min_check reply now = .ok r) :
    ∃ d : WalletDeposit, d.status = .pending ∧ d.purpose = purpose ∧ d.user_id = user_id ∧ d.linked_deal_id = none ∧
      r = (db.wallet_deposits.next, { db with wallet_deposits := db.wallet_deposits.insert d }) := by
  simp only [createDepositInvoice, bind_ok] at h
  obtain ⟨⟨cid, c⟩, -, amount_d, -, -, -, ⟨p, pid⟩, -, a, -, h⟩ := h
  simp only [insertDeposit, bind_ok, pure_ok] at h
  obtain ⟨-, -, rfl⟩ := h
  exact ⟨_, rfl, rfl, rfl, rfl, rfl⟩

end Garant
