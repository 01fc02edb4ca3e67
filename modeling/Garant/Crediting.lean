import Garant.Topup
/-!
# Crediting a deposit

`credit_deposit` is reached from the webhooks and from the poller.
`creditOutcome` says what a credit is on the numbers alone;
`creditDeposit_outcome` that `creditDeposit` does just that. The two ways of
crediting are then compared on their outcomes.
-/
open Decimal

namespace Garant

/-! ## The books -/

/-- What a credit is about: the funds, the trust balances and the state of the deals. -/
@[ext] structure Books where
  balances : ℕ → ℕ → UserBalance
  trust : ℕ → Option Money
  deals : ℕ → Option (DealStatus × Bool)

def Db.books (db : Db) : Books where
  balances := db.balance
  trust u := (db.users.row u).map (·.trust_deposit_balance)
  deals i := (db.deals.row i).map fun d => (d.status, d.commission_paid)

namespace Books

def setBalance (b : Books) (u c : ℕ) (bal : UserBalance) : Books :=
  { b with balances := fun v d => if v = u ∧ d = c then bal else b.balances v d }

def setTrust (b : Books) (u : ℕ) (trust : Money) : Books :=
  { b with trust := fun v => if v = u then some trust else b.trust v }

def setDeal (b : Books) (i : ℕ) (status : DealStatus) (commission_paid : Bool) : Books :=
  { b with deals := fun k => if k = i then some (status, commission_paid) else b.deals k }

end Books

/-- Status, amount and reported amount of a deposit. -/
def WalletDeposit.view (d : WalletDeposit) : WalletDepositStatus × Money × Option Money := (d.status, d.amount, d.paid_amount)

def Db.deposit (db : Db) (j : ℕ) : Option (WalletDepositStatus × Money × Option Money) :=
  (db.wallet_deposits.row j).map (·.view)

section
variable {db db₁ db' : Db} {i j k u c : ℕ} {d d' : Deal} {dep dep' : WalletDeposit} {bal : UserBalance} {cur : Currency}
  {now : Time}

theorem Moved.books {F : Prop} (h : Moved F db db' u c bal) : db'.books = db.books.setBalance u c bal := by
  apply Books.ext
  · funext v e
    exact h.balance v e
  · simp only [Db.books, Books.setBalance, h.users]
  · simp only [Db.books, Books.setBalance, h.deals]

theorem setDeposit_books (db : Db) (j : ℕ) (dep : WalletDeposit) : (db.setDeposit j dep).books = db.books := rfl

theorem setDeposit_row (hj : db.wallet_deposits.row j = some dep) :
    (db.setDeposit j dep').wallet_deposits.row j = some dep' := by
  simp only [Db.setDeposit]
  rw [Table.set_row hj, if_pos rfl]

/-- The row of `dep` as a credit leaves it. -/
def PaidRow (db : Db) (j : ℕ) (dep : WalletDeposit) (amount : Money) (paid_amount : Option Money) : Prop :=
  ∃ paid_at, db.wallet_deposits.row j = some { dep with status := .paid, paid_at, amount, paid_amount }

theorem PaidRow.deposit {amount : Money} {rep : Option Money} (h : PaidRow db j dep amount rep) :
    db.deposit j = some (.paid, amount, rep) := by
  obtain ⟨_, h⟩ := h
  rw [Db.deposit, h]
  rfl

theorem setDeal_books (hr : db.deals.row k = some d) :
    (db.setDeal k d').books = db.books.setDeal k d'.status d'.commission_paid := by
  apply Books.ext
  · rfl
  · rfl
  · funext i
    simp only [Db.books, Db.setDeal, Books.setDeal]
    rw [Table.set_row hr]
    split <;> rfl

/-- Writing back what is there. -/
theorem Books.setDeal_self (hr : db.deals.row k = some d) :
    db.books.setDeal k d.status d.commission_paid = db.books := by
  apply Books.ext
  · rfl
  · rfl
  · funext i
    simp only [Books.setDeal]
    split
    · subst i
      simp [Db.books, hr]
    · rfl

/-- A replacement invoice leaves the books and the other deposits alone. -/
theorem issueRemainingTopupInvoice_books {x : ℚ} {reply : InvoiceReply} {e : Deal} (hr : db.deals.row k = some d)
    (hj : db.wallet_deposits.row j = some dep) (h : issueRemainingTopupInvoice db k e cur x reply now = .ok db') :
    db'.books = db.books ∧ db'.wallet_deposits.row j = some dep := by
  simp only [issueRemainingTopupInvoice, bind_ok] at h
  obtain ⟨_, -, ⟨amt, due⟩, -, total, -, h⟩ := h
  split at h
  · rw [← pure_ok.1 h]
    exact ⟨rfl, hj⟩
  · simp only [bind_ok, pure_ok] at h
    obtain ⟨⟨j', db₁⟩, hi, rfl⟩ := h
    obtain ⟨dep₁, -, -, -, -, hdep⟩ := createDepositInvoice_ok hi
    simp only [Prod.mk.injEq] at hdep
    obtain ⟨rfl, rfl⟩ := hdep
    obtain ⟨hdeals, hdeps⟩ := linkDeposit_new k dep₁ hr
    constructor
    · apply Books.ext
      · rfl
      · rfl
      · funext i
        simp only [Db.books, hdeals]
        rw [Table.set_row hr]
        split
        · subst i
          simp [hr]
        · rfl
    · rw [hdeps, Table.insert_row, if_neg (Table.lt_next hj).ne, hj]

/-! ## What a credit is -/

/-- A payment of `paid` for a waiting deal: the buyer's funds afterwards, and
the status and `commission_paid` of the deal. -/
def topupOutcome (bal : UserBalance) (deal : Deal) (currency : Currency) (paid : ℚ) :
    Result (UserBalance × DealStatus × Bool) := do
  let (amt, commission_due) ← topupDue deal currency
  if paid < commission_due then do
    let amount ← store (plus bal.amount.val paid)
    pure (⟨amount, bal.locked⟩, deal.status, deal.commission_paid)
  else do
    let principal_credit ← quantizeMoney (minus paid commission_due) currency.decimals
    let new_balance := plus bal.amount.val principal_credit
    if new_balance < amt then do
      let amount ← store new_balance
      pure (⟨amount, bal.locked⟩, deal.status, deal.commission_paid || decide (0 < commission_due))
    else do
      let amount ← store (minus new_balance amt)
      let locked ← store (plus bal.locked.val amt)
      pure (⟨amount, locked⟩, .pending_confirmation, true)

/-- The same for a deal top-up in general: the books and the reported amount afterwards. -/
def topupBooks (db : Db) (deposit : WalletDeposit) (paid_amount : Option ℚ) : Result (Books × Option Money) :=
  match deposit.linked_deal_id.bind fun k => (db.deals.row k).map (k, ·) with
  | none => do
    let reported ← storeOpt paid_amount
    pure (db.books, reported <|> deposit.paid_amount)
  | some (deal_id, deal) => do
    let currency ← orRaise (db.currencies.row deal.currency_id) currencyVanished
    let paid ← quantizeMoney (paid_amount.getD deposit.amount.val) currency.decimals
    let reported ← store paid
    let bal := db.balance deal.buyer_id deal.currency_id
    if deal.status = .pending_topup then do
      let (bal, status, commission_paid) ← topupOutcome bal deal currency paid
      pure ((db.books.setBalance deal.buyer_id deal.currency_id bal).setDeal deal_id status commission_paid, some reported)
    else do
      let amount ← store (plus bal.amount.val paid)
      pure (db.books.setBalance deal.buyer_id deal.currency_id ⟨amount, bal.locked⟩, some reported)

theorem settleTopup_outcome {paid : ℚ} {reply : InvoiceReply} (hr : db.deals.row k = some d)
    (hj : db.wallet_deposits.row j = some dep) (h : settleTopup db j dep k d cur paid reply now = .ok db') :
    ∃ bal st cp rep, topupOutcome (db.balance d.buyer_id d.currency_id) d cur paid = .ok (bal, st, cp) ∧
      store paid = .ok rep ∧ db'.books = (db.books.setBalance d.buyer_id d.currency_id bal).setDeal k st cp ∧
        PaidRow db' j dep dep.amount (some rep) := by
  obtain ⟨amt, due, rep, bal, db₁, hdue, hrep, hm, h⟩ := settleTopup_ok h
  have hr₁ : db₁.deals.row k = some d := by rw [hm.deals, hr]
  have hj₁ : db₁.wallet_deposits.row j = some dep := by rw [hm.deposits, hj]
  have hset (db₂ : Db) (hj₂ : db₂.wallet_deposits.row j = some dep) :
      (db₂.setDeposit j (dep.settle now (some rep))).wallet_deposits.row j = some (dep.settle now (some rep)) := by
    simp only [Db.setDeposit]
    rw [Table.set_row hj₂, if_pos rfl]
  cases h with
  | short hlt ha hl hi =>
    have hr₂ : (db₁.setDeposit j (dep.settle now (some rep))).deals.row k = some d := hr₁
    obtain ⟨hb, hd⟩ := issueRemainingTopupInvoice_books hr₂ (hset db₁ hj₁) hi
    refine ⟨bal, d.status, d.commission_paid, rep, ?_, hrep, ?_, ?_⟩
    · simp only [topupOutcome, bind_ok]
      refine ⟨(amt, due), hdue, ?_⟩
      rw [if_pos hlt, bind_ok]
      exact ⟨bal.amount, ha, by rw [pure_ok, ← hl]⟩
    · rw [hb, setDeposit_books, ← hm.books, Books.setDeal_self hr₁]
    · exact ⟨_, hd⟩
  | @partly credit e _ hle hq hlt ha hl he hi =>
    have hr₂ : ((db₁.setDeal k e).setDeposit j (dep.settle now (some rep))).deals.row k = some e := by
      simp only [Db.setDeal, Db.setDeposit]
      rw [Table.set_row hr₁, if_pos rfl]
    obtain ⟨hb, hd⟩ := issueRemainingTopupInvoice_books hr₂ (hset (db₁.setDeal k e) hj₁) hi
    refine ⟨bal, e.status, e.commission_paid, rep, ?_, hrep, ?_, ?_⟩
    · simp only [topupOutcome, bind_ok]
      refine ⟨(amt, due), hdue, ?_⟩
      rw [if_neg (not_lt.2 hle), bind_ok]
      refine ⟨credit, hq, ?_⟩
      rw [if_pos hlt, bind_ok]
      exact ⟨bal.amount, ha, by rw [pure_ok, ← hl, he]⟩
    · rw [hb, setDeposit_books, setDeal_books hr₁, hm.books]
    · exact ⟨_, hd⟩
  | @activated credit hle hq hge ha hl =>
    refine ⟨bal, .pending_confirmation, true, rep, ?_, hrep, ?_, ?_⟩
    · simp only [topupOutcome, bind_ok]
      refine ⟨(amt, due), hdue, ?_⟩
      rw [if_neg (not_lt.2 hle), bind_ok]
      refine ⟨credit, hq, ?_⟩
      rw [if_neg (not_lt.2 hge), bind_ok]
      refine ⟨bal.amount, ha, ?_⟩
      rw [bind_ok]
      exact ⟨bal.locked, hl, rfl⟩
    · rw [setDeposit_books, setDeal_books hr₁, hm.books]
    · exact ⟨_, setDeposit_row hj₁⟩

theorem completeDealTopupPayment_outcome {paid : Option ℚ} {reply : InvoiceReply}
    (hj : db.wallet_deposits.row j = some dep) (hunpaid : dep.status ≠ .paid)
    (h : completeDealTopupPayment db j paid reply now = .ok db') :
    ∃ b rep, topupBooks db dep paid = .ok (b, rep) ∧ db'.books = b ∧ PaidRow db' j dep dep.amount rep := by
  have halone (h : settleUnattached db j dep paid now = .ok db') :
      ∃ reported, storeOpt paid = .ok reported ∧ db'.books = db.books ∧
        PaidRow db' j dep dep.amount (reported <|> dep.paid_amount) := by
    obtain ⟨reported, hrep, h⟩ := bind_ok.1 h
    rw [← pure_ok.1 h]
    exact ⟨reported, hrep, rfl, ⟨_, setDeposit_row hj⟩⟩
  simp only [completeDealTopupPayment, bind_ok, orRaise_ok] at h
  obtain ⟨dep', hj', h⟩ := h
  cases hj.symm.trans hj'
  rw [if_neg hunpaid] at h
  cases hl : dep.linked_deal_id with
  | none =>
    rw [hl] at h
    obtain ⟨reported, hrep, hb, hd⟩ := halone h
    refine ⟨_, _, ?_, hb, hd⟩
    simp only [topupBooks, hl, Option.bind_none, bind_ok, pure_ok]
    exact ⟨reported, hrep, rfl⟩
  | some k =>
    rw [hl] at h
    cases hr : db.deals.row k with
    | none =>
      simp only [hr] at h
      obtain ⟨reported, hrep, hb, hd⟩ := halone h
      refine ⟨_, _, ?_, hb, hd⟩
      simp only [topupBooks, hl, Option.bind_some, hr, Option.map_none, bind_ok, pure_ok]
      exact ⟨reported, hrep, rfl⟩
    | some d =>
      simp only [hr, bind_ok, orRaise_ok] at h
      obtain ⟨cur, hc, p, hq, h⟩ := h
      by_cases hw : d.status = .pending_topup
      · rw [if_pos hw] at h
        obtain ⟨bal, st, cp, rep, ho, hrep, hb, hd⟩ := settleTopup_outcome hr hj h
        refine ⟨_, some rep, ?_, hb, hd⟩
        simp only [topupBooks, hl, Option.bind_some, hr, Option.map_some, bind_ok, orRaise_ok, if_pos hw, pure_ok]
        exact ⟨cur, hc, p, hq, rep, hrep, _, ho, rfl⟩
      · -- late
        rw [if_neg hw] at h
        obtain ⟨db₁, hcr, h⟩ := bind_ok.1 h
        obtain ⟨rep, hrep, h⟩ := bind_ok.1 h
        obtain ⟨bal, hm, hbl, hba⟩ := creditAmount_ok (depositRef_ne (by decide) _ _) hcr
        have hj₁ : db₁.wallet_deposits.row j = some dep := by rw [hm.deposits, hj]
        rw [← pure_ok.1 h]
        refine ⟨_, some rep, ?_, hm.books, ⟨_, setDeposit_row hj₁⟩⟩
        simp only [topupBooks, hl, Option.bind_some, hr, Option.map_some, bind_ok, orRaise_ok, if_neg hw, pure_ok]
        refine ⟨cur, hc, p, hq, rep, hrep, bal.amount, hba, ?_⟩
        rw [← hbl]

/-- The books after a trust or wallet credit. -/
def balanceBooks (db : Db) (deposit : WalletDeposit) (credit_amount : ℚ) : Result Books :=
  if deposit.purpose = .trust then do
    let user ← orRaise (db.users.row deposit.user_id) .no_result
    let trust ← store (plus user.trust_deposit_balance.val credit_amount)
    pure (db.books.setTrust deposit.user_id trust)
  else do
    let bal := db.balance deposit.user_id deposit.currency_id
    let amount ← store (plus bal.amount.val credit_amount)
    pure (db.books.setBalance deposit.user_id deposit.currency_id ⟨amount, bal.locked⟩)

/-- `credit_deposit` on the numbers alone: the books, and the deposit's amount
and reported amount afterwards. -/
def creditOutcome (db : Db) (deposit : WalletDeposit) (paid_amount : Option Number) :
    Result (Books × Money × Option Money) := do
  let decimals := (db.currencies.row deposit.currency_id).elim 8 (·.decimals)
  let nominal_amount ← quantizeMoney deposit.amount.val decimals
  let reported_amount ← quantizeReported decimals paid_amount
  let credit_amount := max nominal_amount (reported_amount.getD nominal_amount)
  if deposit.purpose = .deal_topup then do
    let (books, reported) ← topupBooks db deposit (paid_amount.bind (·.toRat?))
    pure (books, deposit.amount, reported)
  else do
    let books ← balanceBooks db deposit credit_amount
    let amount ← store credit_amount
    let reported ← storeOpt reported_amount
    pure (books, amount, reported <|> deposit.paid_amount)

theorem creditTrust_books {x : ℚ} (h : creditTrust db j dep x = .ok db') :
    db'.wallet_deposits = db.wallet_deposits ∧ ∃ user trust, db.users.row dep.user_id = some user ∧
      store (plus user.trust_deposit_balance.val x) = .ok trust ∧ db'.books = db.books.setTrust dep.user_id trust := by
  simp only [creditTrust, recordSyntheticLedger, bind_ok, orRaise_ok] at h
  obtain ⟨user, hu, trust, ht, h⟩ := h
  have hbooks : (db.setUser dep.user_id { user with trust_deposit_balance := trust }).books =
      db.books.setTrust dep.user_id trust := by
    apply Books.ext
    · rfl
    · funext v
      simp only [Db.books, Db.setUser, Books.setTrust]
      rw [Table.set_row hu]
      split <;> rfl
    · rfl
  split at h
  · rw [← pure_ok.1 h]
    exact ⟨rfl, user, trust, hu, ht, hbooks⟩
  · simp only [bind_ok, pure_ok] at h
    obtain ⟨_, -, _, -, _, -, rfl⟩ := h
    exact ⟨rfl, user, trust, hu, ht, hbooks⟩

theorem creditBalance_books {x : ℚ} (h : creditBalance db j dep x = .ok db') :
    db'.wallet_deposits = db.wallet_deposits ∧ ∃ b, balanceBooks db dep x = .ok b ∧ db'.books = b := by
  unfold creditBalance at h
  unfold balanceBooks
  by_cases htrust : dep.purpose = .trust
  · rw [if_pos htrust] at h
    obtain ⟨hdeps, user, trust, hu, ht, hb⟩ := creditTrust_books h
    refine ⟨hdeps, _, ?_, hb⟩
    rw [if_pos htrust, bind_ok]
    refine ⟨user, orRaise_ok.2 hu, ?_⟩
    rw [bind_ok]
    exact ⟨trust, ht, rfl⟩
  · rw [if_neg htrust] at h
    obtain ⟨bal, hm, hbl, hba⟩ := creditAmount_ok (depositRef_ne (by decide) _ _) h
    refine ⟨hm.deposits, _, ?_, hm.books⟩
    rw [if_neg htrust, bind_ok]
    exact ⟨bal.amount, hba, by rw [pure_ok, ← hbl]⟩

/-- The credit does what its outcome says. -/
theorem creditDeposit_outcome {paid : Option Number} {reply : InvoiceReply} (hj : db.wallet_deposits.row j = some dep)
    (hunpaid : dep.status ≠ .paid) (h : creditDeposit db j paid reply now = .ok db') :
    ∃ b amount rep, creditOutcome db dep paid = .ok (b, amount, rep) ∧ db'.books = b ∧
      PaidRow db' j dep amount rep := by
  simp only [creditDeposit, bind_ok, orRaise_ok] at h
  obtain ⟨dep', hj', h⟩ := h
  cases hj.symm.trans hj'
  rw [if_neg hunpaid, bind_ok] at h
  obtain ⟨nominal, hn, h⟩ := h
  rw [bind_ok] at h
  obtain ⟨reported, hrep, h⟩ := h
  by_cases htop : dep.purpose = .deal_topup
  · rw [if_pos htop] at h
    obtain ⟨b, rep, ho, hb, hd⟩ := completeDealTopupPayment_outcome hj hunpaid h
    refine ⟨b, dep.amount, rep, ?_, hb, hd⟩
    simp only [creditOutcome, bind_ok, if_pos htop, pure_ok]
    exact ⟨nominal, hn, reported, hrep, _, ho, rfl⟩
  rw [if_neg htop] at h
  simp only [bind_ok, pure_ok] at h
  obtain ⟨db₁, hcr, amount, ha, rep, hr, rfl⟩ := h
  obtain ⟨hdeps, b, hb, hbooks⟩ := creditBalance_books hcr
  have hj₁ : db₁.wallet_deposits.row j = some dep := by rw [hdeps, hj]
  refine ⟨b, amount, rep <|> dep.paid_amount, ?_, hbooks, ⟨_, setDeposit_row hj₁⟩⟩
  simp only [creditOutcome, bind_ok, if_neg htop]
  exact ⟨nominal, hn, reported, hrep, b, hb, amount, ha, rep, hr, rfl⟩

/-! ## Deposits as they are issued -/

/-- The row `create_deposit_invoice` makes, and the deal it is linked to. -/
structure Issued (db : Db) (dep : WalletDeposit) (cur : Currency) : Prop where
  currency : db.currencies.row dep.currency_id = some cur
  grid : IsGrid cur.decimals dep.amount.val
  deal : ∀ k d, dep.linked_deal_id = some k → db.deals.row k = some d →
    d.buyer_id = dep.user_id ∧ d.currency_id = dep.currency_id ∧ ∃ com, TopupTerms db d cur com

/-- The commission a payment for the deal has to cover. -/
def commissionDue (d : Deal) : ℚ := if d.commission_paid then 0 else d.commission_amount.elim 0 (·.val)

theorem TopupTerms.due {com : Money} {amt due : ℚ} (ht : TopupTerms db d cur com) (h : topupDue d cur = .ok (amt, due)) :
    amt = d.amount.val ∧ due = commissionDue d ∧ 0 ≤ due ∧ IsGrid cur.decimals due := by
  obtain ⟨ha, hd⟩ := topupDue_ok ht h
  refine ⟨ha, ?_, ?_, due_grid ht.commission_grid hd⟩
  · rw [hd, commissionDue, ht.commission, Option.elim_some]
  · rw [hd]
    split
    · exact le_rfl
    · exact ht.commission_nonneg

/-- A fresh row is as `Issued` says. -/
theorem createDepositInvoice_issued {code provider : String} {amount : ℚ} {purpose : Purpose} {min_check : Bool}
    {reply : InvoiceReply} (h : createDepositInvoice db u code amount purpose provider min_check reply now = .ok (j, db')) :
    ∃ dep cur, db'.wallet_deposits.row j = some dep ∧ Issued db' dep cur := by
  simp only [createDepositInvoice, bind_ok] at h
  obtain ⟨⟨c, cur⟩, hc, amount_d, hq, _, -, ⟨p, pid⟩, -, a, ha, h⟩ := h
  simp only [insertDeposit, bind_ok, pure_ok, Prod.mk.injEq] at h
  obtain ⟨_, -, rfl, rfl⟩ := h
  have hcur : db.currencies.row c = some cur := getCurrencyByCode_ok hc
  refine ⟨_, cur, by rw [Table.insert_row, if_pos rfl], hcur, ?_, ?_⟩
  · exact store_keeps_grid (quantizeMoney_grid hq) ha
  · intro k d hl
    cases hl

end

/-- A pending deposit of 10.00 of user 1. -/
def sampleDeposit (purpose : Purpose) : WalletDeposit :=
  { user_id := 1, currency_id := 1, amount := ⟨1000000000, money_ten_fits⟩, provider := .cryptobot,
    provider_invoice_id := "IV1", status := .pending, purpose, linked_deal_id := none, created_at := 0, paid_at := none,
    paid_amount := none }

def sampleDepositDb (purpose : Purpose) : Db :=
  { sampleDb 2 ⟨0, money_zero_fits⟩ with wallet_deposits := Table.empty.insert (sampleDeposit purpose) }

/-! ## By webhook and by poll -/

/-- A delivery of the provider that the invoice was paid with `p`. -/
def deliverPaid (db : Db) (provider : WalletDepositProvider) (provider_invoice_id : String) (p : ℚ)
    (reply : InvoiceReply) (now : Time) : Result (Db × Handled) :=
  let payload : InvoicePayload := ⟨some provider_invoice_id, paidState provider, .number (.finite p)⟩
  match provider with
  | .cryptobot => handleInvoicePaid db payload reply now
  | .crystalpay => handleCrystalpayInvoice db payload reply now

/-- The two runs left the same books and the same deposit. -/
def SameSettlement (j : ℕ) (a b : Db) : Prop := a.books = b.books ∧ a.deposit j = b.deposit j

/-- When polling and webhook mean the same payment: for a top-up of a deal that
exists, paid exactly as invoiced. -/
def PollFits (db : Db) (dep : WalletDeposit) (cur : Currency) (p : ℚ) : Prop :=
  dep.purpose = .deal_topup ∧ (∃ k d, dep.linked_deal_id = some k ∧ db.deals.row k = some d) ∧
    quantizeMoney p cur.decimals = .ok dep.amount.val

section
variable {db db' : Db} {j : ℕ} {dep : WalletDeposit} {cur : Currency} {now : Time} {p : ℚ} {reply : InvoiceReply}
  {r : Handled}

/-- A lookup that does not fail finds the row that is there. -/
theorem findWalletDeposit_row {o : Option ℕ} (hj : db.wallet_deposits.row j = some dep)
    (h : findWalletDeposit db dep.provider_invoice_id dep.provider = .ok o) : o = some j := by
  have hmem : j ∈ db.wallet_deposits.ids fun d =>
      d.provider = dep.provider ∧ d.provider_invoice_id = dep.provider_invoice_id :=
    Table.mem_ids.2 ⟨dep, hj, by simp⟩
  unfold findWalletDeposit at h
  split at h
  · rename_i hnil
    rw [hnil] at hmem
    cases hmem
  · rename_i i hone
    rw [hone, List.mem_singleton] at hmem
    rw [hmem, ← pure_ok.1 h]
  · cases h

theorem paidState_lower : (paidState .crystalpay).toLower = paidState .crystalpay := by decide +kernel

/-- What a paid delivery does, by the status of its row. -/
inductive Delivered (db : Db) (j : ℕ) (dep : WalletDeposit) (p : ℚ) (reply : InvoiceReply) (now : Time) :
    Db × Handled → Prop
  | already (h : dep.status = .paid) : Delivered db j dep p reply now (db, .already_paid)
  | closed (hp : dep.provider = .crystalpay) (h : dep.status = .expired ∨ dep.status = .refunded) :
      Delivered db j dep p reply now (db, .refused "deposit not pending")
  | mismatch (hu : dep.status ≠ .paid) (ho : dep.provider = .crystalpay → dep.status = .pending)
      (h : amountAccepted dep (.number (.finite p)) = .ok false) :
      Delivered db j dep p reply now (db, .refused "amount mismatch")
  | credited {db' : Db} (hu : dep.status ≠ .paid) (ho : dep.provider = .crystalpay → dep.status = .pending)
      (h : amountAccepted dep (.number (.finite p)) = .ok true)
      (hc : creditDeposit db j (some (.finite p)) reply now = .ok db') : Delivered db j dep p reply now (db', .credited)

theorem creditReported_delivered {x : Db × Handled} (hu : dep.status ≠ .paid)
    (ho : dep.provider = .crystalpay → dep.status = .pending)
    (h : creditReported db j dep (.number (.finite p)) reply now = .ok x) : Delivered db j dep p reply now x := by
  obtain ⟨accepted, ha, h⟩ := bind_ok.1 h
  cases accepted with
  | false =>
    rw [if_pos rfl] at h
    rw [← pure_ok.1 h]
    exact .mismatch hu ho ha
  | true =>
    rw [if_neg (by decide)] at h
    obtain ⟨db', hc, h⟩ := bind_ok.1 h
    rw [← pure_ok.1 h]
    exact .credited hu ho ha hc

theorem deliverPaid_ok {x : Db × Handled} (hj : db.wallet_deposits.row j = some dep)
    (h : deliverPaid db dep.provider dep.provider_invoice_id p reply now = .ok x) : Delivered db j dep p reply now x := by
  unfold deliverPaid at h
  cases hprov : dep.provider with
  | cryptobot =>
    simp only [hprov, handleInvoicePaid, paidState, ne_eq, not_true_eq_false, if_false] at h
    obtain ⟨o, ho, h⟩ := bind_ok.1 h
    rw [← hprov] at ho
    rw [findWalletDeposit_row hj ho] at h
    obtain ⟨dep', hj', h⟩ := bind_ok.1 h
    cases hj.symm.trans (orRaise_ok.1 hj')
    by_cases hpaid : dep.status = .paid
    · rw [if_pos hpaid] at h
      rw [← pure_ok.1 h]
      exact .already hpaid
    · rw [if_neg hpaid] at h
      refine creditReported_delivered hpaid ?_ h
      rw [hprov]
      intro hp
      cases hp
  | crystalpay =>
    simp only [hprov, handleCrystalpayInvoice, paidState_lower, if_true] at h
    obtain ⟨o, ho, h⟩ := bind_ok.1 h
    rw [← hprov] at ho
    rw [findWalletDeposit_row hj ho] at h
    obtain ⟨dep', hj', h⟩ := bind_ok.1 h
    cases hj.symm.trans (orRaise_ok.1 hj')
    by_cases hpaid : dep.status = .paid
    · rw [if_pos hpaid] at h
      rw [← pure_ok.1 h]
      exact .already hpaid
    rw [if_neg hpaid] at h
    by_cases hclosed : dep.status = .expired ∨ dep.status = .refunded
    · rw [if_pos hclosed] at h
      rw [← pure_ok.1 h]
      exact .closed hprov hclosed
    · rw [if_neg hclosed] at h
      refine creditReported_delivered hpaid (fun _ => ?_) h
      cases hs : dep.status <;> simp_all

/-- A poll of a pending deposit credits it with no amount reported. -/
theorem pollPaid_ok (hj : db.wallet_deposits.row j = some dep) (hpending : dep.status = .pending)
    (hcfg : pollConfigured db.settings dep.provider = true)
    (h : pollDepositStatus db j (.state (paidState dep.provider)) reply now = .ok db') :
    creditDeposit db j none reply now = .ok db' := by
  simp only [pollDepositStatus, bind_ok, orRaise_ok] at h
  obtain ⟨dep', hj', h⟩ := h
  cases hj.symm.trans hj'
  rw [if_neg (by simp [hpending, hcfg]), if_pos rfl] at h
  obtain ⟨dep', hj', h⟩ := bind_ok.1 h
  cases hj.symm.trans (orRaise_ok.1 hj')
  rwa [if_neg (by simp [hpending])] at h

theorem pollPaid_paid {answer : PollReply} (hj : db.wallet_deposits.row j = some dep) (hpaid : dep.status = .paid)
    (h : pollDepositStatus db j answer reply now = .ok db') : db' = db := by
  simp only [pollDepositStatus, bind_ok, orRaise_ok] at h
  obtain ⟨dep', hj', h⟩ := h
  cases hj.symm.trans hj'
  rw [if_pos (by simp [hpaid])] at h
  exact (pure_ok.1 h).symm

/-- A reported number with at most eight fractional digits, quantised, is what the column stores. -/
theorem store_quantized_iff {q : ℚ} {a rep : Money} (hp : IsGrid 8 p) (hq : quantizeMoney p cur.decimals = .ok q)
    (hr : store q = .ok rep) : rep = a ↔ q = a.val := by
  have hgrid : IsGrid 8 q := by
    rcases le_total cur.decimals 8 with hd | hd
    · exact (quantizeMoney_grid hq).mono hd
    · rw [quantizeMoney_of_grid (hp.mono hd) hq]
      exact hp
  rw [← store_grid hgrid hr]
  exact ⟨congrArg Numeric.val, Numeric.val_inj⟩

/-- A credit with a reported amount records it, whatever the purpose. -/
theorem creditOutcome_reported {b : Books} {amount : Money} {rep : Option Money}
    (h : creditOutcome db dep (some (.finite p)) = .ok (b, amount, rep)) : rep ≠ none := by
  have hstore {x : Option ℚ} {y : Option Money} (hx : x ≠ none) (h : storeOpt x = .ok y) : ∃ v, y = some v := by
    cases x with
    | none => exact absurd rfl hx
    | some x =>
      obtain ⟨v, -, h⟩ := bind_ok.1 h
      exact ⟨v, (pure_ok.1 h).symm⟩
  simp only [creditOutcome, bind_ok, quantizeReported] at h
  obtain ⟨nominal, -, q, hq, h⟩ := h
  obtain ⟨y, -, hy⟩ := hq
  cases pure_ok.1 hy
  by_cases htop : dep.purpose = .deal_topup
  · rw [if_pos htop, bind_ok] at h
    obtain ⟨⟨b', rep'⟩, hb, h⟩ := h
    cases pure_ok.1 h
    unfold topupBooks at hb
    split at hb
    · obtain ⟨v, hv, hb⟩ := bind_ok.1 hb
      obtain ⟨v, rfl⟩ := hstore (by simp [Number.toRat?]) hv
      cases pure_ok.1 hb
      simp
    · obtain ⟨_, -, hb⟩ := bind_ok.1 hb
      obtain ⟨_, -, hb⟩ := bind_ok.1 hb
      obtain ⟨v, -, hb⟩ := bind_ok.1 hb
      split at hb
      · obtain ⟨_, -, hb⟩ := bind_ok.1 hb
        cases pure_ok.1 hb
        simp
      · obtain ⟨_, -, hb⟩ := bind_ok.1 hb
        cases pure_ok.1 hb
        simp
  · rw [if_neg htop, bind_ok] at h
    obtain ⟨b', -, h⟩ := h
    obtain ⟨_, -, h⟩ := bind_ok.1 h
    obtain ⟨v, hv, h⟩ := bind_ok.1 h
    obtain ⟨v, rfl⟩ := hstore (by simp) hv
    cases pure_ok.1 h
    simp

/-- A credit with no reported amount records none, but for the top-up of a deal that exists. -/
theorem creditOutcome_unreported {b : Books} {amount : Money} {rep : Option Money} (hfresh : dep.paid_amount = none)
    (hno : ¬(dep.purpose = .deal_topup ∧ ∃ k d, dep.linked_deal_id = some k ∧ db.deals.row k = some d))
    (h : creditOutcome db dep none = .ok (b, amount, rep)) : rep = none := by
  simp only [creditOutcome, bind_ok, quantizeReported, pure_ok, Option.bind_none] at h
  obtain ⟨nominal, -, q, rfl, h⟩ := h
  by_cases htop : dep.purpose = .deal_topup
  · rw [if_pos htop, bind_ok] at h
    obtain ⟨⟨b', rep'⟩, hb, h⟩ := h
    cases pure_ok.1 h
    unfold topupBooks at hb
    split at hb
    · simp only [storeOpt, bind_ok, pure_ok, exists_eq_left', Prod.mk.injEq] at hb
      rw [← hb.2, hfresh]
      rfl
    · rename_i k d hk
      exfalso
      refine hno ⟨htop, ?_⟩
      cases hl : dep.linked_deal_id with
      | none =>
        rw [hl] at hk
        cases hk
      | some i =>
        rw [hl, Option.bind_some] at hk
        cases hr : db.deals.row i with
        | none =>
          rw [hr] at hk
          cases hk
        | some e => exact ⟨i, e, rfl, hr⟩
  · rw [if_neg htop, bind_ok] at h
    obtain ⟨b', -, h⟩ := h
    simp only [storeOpt, bind_ok, pure_ok, exists_eq_left', Prod.mk.injEq] at h
    obtain ⟨_, -, -, -, h⟩ := h
    rw [← h, hfresh]
    rfl

/-- For the top-up of a deal that exists, the outcome depends on the reported
amount only through its quantised value, which the deposit records. -/
theorem creditOutcome_attached {k : ℕ} {d : Deal} {paid : Option Number} {b : Books} {amount : Money}
    {rep : Option Money} (hi : Issued db dep cur) (htop : dep.purpose = .deal_topup) (hl : dep.linked_deal_id = some k)
    (hr : db.deals.row k = some d) (h : creditOutcome db dep paid = .ok (b, amount, rep)) :
    ∃ q v, quantizeMoney ((paid.bind (·.toRat?)).getD dep.amount.val) cur.decimals = .ok q ∧ store q = .ok v ∧
      amount = dep.amount ∧ rep = some v ∧ topupBooks db dep (some q) = .ok (b, rep) := by
  obtain ⟨hbuyer, hcurrency, com, ht⟩ := hi.deal k d hl hr
  simp only [creditOutcome, bind_ok, if_pos htop] at h
  obtain ⟨_, -, _, -, ⟨b', rep'⟩, hb, h⟩ := h
  cases pure_ok.1 h
  simp only [topupBooks, hl, Option.bind_some, hr, Option.map_some, bind_ok, orRaise_ok] at hb ⊢
  obtain ⟨cur', hc, q, hq, v, hv, hb⟩ := hb
  cases ht.currency.symm.trans hc
  have hrep : rep' = some v := by
    by_cases hw : d.status = .pending_topup
    · rw [if_pos hw, bind_ok] at hb
      obtain ⟨_, -, hb⟩ := hb
      cases pure_ok.1 hb
      rfl
    · rw [if_neg hw, bind_ok] at hb
      obtain ⟨_, -, hb⟩ := hb
      cases pure_ok.1 hb
      rfl
  refine ⟨q, v, hq, hv, trivial, hrep, cur, hc, q, ?_, v, hv, hb⟩
  rw [Option.getD_some]
  exact quantizeMoney_ok.2 (quantize_self (quantizeMoney_ok.1 hq))

/-- Whichever of webhook and poll comes first, the two end alike and the second
changes nothing, exactly when the payment is for a deal and as invoiced. -/
theorem webhook_poll_agree_iff {w₁ w₂ p₁ p₂ : Db} {a₁ a₂ : Handled} {r₁ r₂ r₃ r₄ : InvoiceReply} {t₁ t₂ t₃ t₄ : Time}
    (hj : db.wallet_deposits.row j = some dep) (hpending : dep.status = .pending) (hfresh : dep.paid_amount = none)
    (hi : Issued db dep cur) (hcfg : pollConfigured db.settings dep.provider = true) (hp8 : IsGrid 8 p)
    (hw₁ : deliverPaid db dep.provider dep.provider_invoice_id p r₁ t₁ = .ok (w₁, a₁))
    (hw₂ : pollDepositStatus w₁ j (.state (paidState dep.provider)) r₂ t₂ = .ok w₂)
    (hp₁ : pollDepositStatus db j (.state (paidState dep.provider)) r₃ t₃ = .ok p₁)
    (hp₂ : deliverPaid p₁ dep.provider dep.provider_invoice_id p r₄ t₄ = .ok (p₂, a₂)) :
    (SameSettlement j w₂ p₂ ∧ w₂ = w₁ ∧ p₂ = p₁) ↔ PollFits db dep cur p := by
  have hunpaid : dep.status ≠ .paid := by simp [hpending]
  obtain ⟨b', amount', rep', ho', hb', hd'⟩ := creditDeposit_outcome hj hunpaid (pollPaid_ok hj hpending hcfg hp₁)
  have hsecond : p₂ = p₁ := by
    obtain ⟨_, hrow⟩ := hd'
    have hdel := deliverPaid_ok hrow hp₂
    cases hdel with
    | already _ => rfl
    | closed _ h => rcases h with h | h <;> cases h
    | mismatch h _ _ => exact absurd rfl h
    | credited h _ _ _ => exact absurd rfl h
  subst hsecond
  have hdel := deliverPaid_ok hj hw₁
  generalize hx : (w₁, a₁) = x at hdel
  cases hdel with
  | already h => exact absurd h hunpaid
  | closed _ h => rcases h with h | h <;> simp [hpending] at h
  | mismatch _ _ hacc =>
    -- the poll that follows credits what the webhook refused
    cases hx
    refine iff_of_false ?_ ?_
    · rintro ⟨-, rfl, -⟩
      obtain ⟨_, _, _, -, -, hrow⟩ := creditDeposit_outcome hj hunpaid (pollPaid_ok hj hpending hcfg hw₂)
      obtain ⟨_, hrow⟩ := hrow
      have hst := congrArg WalletDeposit.status (Option.some.inj (hj.symm.trans hrow))
      rw [hpending] at hst
      cases hst
    · rintro ⟨htop, -, -⟩
      rw [amountAccepted, if_pos htop] at hacc
      cases hacc
  | credited _ _ hacc hc =>
    cases hx
    obtain ⟨b, amount, rep, ho, hb, hd⟩ := creditDeposit_outcome hj hunpaid hc
    obtain rfl : w₂ = w₁ := by
      obtain ⟨_, hrow⟩ := hd
      exact pollPaid_paid hrow rfl hw₂
    have hsame : SameSettlement j w₂ p₂ ↔ b = b' ∧ amount = amount' ∧ rep = rep' := by
      rw [SameSettlement, hb, hb', hd.deposit, hd'.deposit]
      simp
    rw [hsame, and_iff_left (⟨rfl, rfl⟩ : w₂ = w₂ ∧ p₂ = p₂)]
    by_cases hatt : dep.purpose = .deal_topup ∧ ∃ k d, dep.linked_deal_id = some k ∧ db.deals.row k = some d
    · obtain ⟨htop, k, d, hl, hr⟩ := hatt
      obtain ⟨q, v, hq, hv, rfl, rfl, hbooks⟩ := creditOutcome_attached hi htop hl hr ho
      obtain ⟨q', v', hq', hv', rfl, rfl, hbooks'⟩ := creditOutcome_attached hi htop hl hr ho'
      have hqp : quantizeMoney p cur.decimals = .ok q := hq
      obtain rfl : q' = dep.amount.val := quantizeMoney_of_grid hi.grid hq'
      rw [store_val, Except.ok.injEq] at hv'
      subst hv'
      constructor
      · rintro ⟨-, -, hrep⟩
        refine ⟨htop, ⟨k, d, hl, hr⟩, ?_⟩
        rw [← (store_quantized_iff hp8 hqp hv).1 (Option.some.inj hrep)]
        exact hqp
      · rintro ⟨-, -, heq⟩
        cases hqp.symm.trans heq
        cases hbooks.symm.trans hbooks'
        exact ⟨rfl, rfl, rfl⟩
    · refine iff_of_false ?_ fun h => hatt ⟨h.1, h.2.1⟩
      rintro ⟨-, -, rfl⟩
      exact creditOutcome_reported ho (creditOutcome_unreported hfresh hatt ho')

end

/-- Webhook then poll, and poll then webhook. -/
def bothOrders (db : Db) (j : ℕ) (dep : WalletDeposit) (p : ℚ) : Result ((Db × Handled) × Db × Db × Db × Handled) := do
  let w₁ ← deliverPaid db dep.provider dep.provider_invoice_id p (.error "") 0
  let w₂ ← pollDepositStatus w₁.1 j (.state (paidState dep.provider)) (.error "") 0
  let p₁ ← pollDepositStatus db j (.state (paidState dep.provider)) (.error "") 0
  let p₂ ← deliverPaid p₁ dep.provider dep.provider_invoice_id p (.error "") 0
  pure (w₁, w₂, p₁, p₂)

theorem bothOrders_ok (db : Db) (j : ℕ) (dep : WalletDeposit) (p : ℚ) (q : Db → Db → Prop) [∀ a b, Decidable (q a b)]
    (h : (bothOrders db j dep p).toOption.any (fun x => decide (q x.2.1 x.2.2.2.1)) = true) :
    ∃ w₁ w₂ p₁ p₂, deliverPaid db dep.provider dep.provider_invoice_id p (.error "") 0 = .ok w₁ ∧
      pollDepositStatus w₁.1 j (.state (paidState dep.provider)) (.error "") 0 = .ok w₂ ∧
        pollDepositStatus db j (.state (paidState dep.provider)) (.error "") 0 = .ok p₁ ∧
          deliverPaid p₁ dep.provider dep.provider_invoice_id p (.error "") 0 = .ok p₂ ∧ q w₂ p₂.1 := by
  obtain ⟨x, hx, hq⟩ := exists_ok h
  simp only [bothOrders, bind_ok, pure_ok] at hx
  obtain ⟨w₁, hw₁, w₂, hw₂, p₁, hp₁, p₂, hp₂, rfl⟩ := hx
  exact ⟨w₁, w₂, p₁, p₂, hw₁, hw₂, hp₁, hp₂, hq⟩

/-- An invoice for 10.00 is paid with 15.00: by webhook 15.00 are credited, by poll 10.00. -/
theorem overpayment_lost_by_poll : ∃ w₁ w₂ p₁ p₂,
    deliverPaid (sampleDepositDb .wallet) .cryptobot "IV1" 15 (.error "") 0 = .ok w₁ ∧
      pollDepositStatus w₁.1 1 (.state "paid") (.error "") 0 = .ok w₂ ∧
        pollDepositStatus (sampleDepositDb .wallet) 1 (.state "paid") (.error "") 0 = .ok p₁ ∧
          deliverPaid p₁ .cryptobot "IV1" 15 (.error "") 0 = .ok p₂ ∧
            (w₂.balance 1 1).amount.val = 15 ∧ (p₂.1.balance 1 1).amount.val = 10 :=
  bothOrders_ok (sampleDepositDb .wallet) 1 (sampleDeposit .wallet) 15 (fun a b => (a.balance 1 1).amount.val = 15 ∧
    (b.balance 1 1).amount.val = 10) (by decide +kernel)

/-- The invoice of the waiting deal. -/
def sampleWaitingDeposit : WalletDeposit :=
  { sampleDeposit .deal_topup with amount := ⟨1050000000, by decide⟩, linked_deal_id := some 1 }

theorem sampleWaitingDeposit_row : sampleWaitingDb.wallet_deposits.row 1 = some sampleWaitingDeposit := by decide +kernel

theorem sampleWaitingDeposit_issued : Issued sampleWaitingDb sampleWaitingDeposit (sampleCurrency 2) := by
  have hcur : sampleWaitingDb.currencies.row 1 = some (sampleCurrency 2) := by decide +kernel
  refine ⟨hcur, by decide +kernel, ?_⟩
  intro k d hl hr
  cases hl
  cases hr.symm.trans sampleWaitingDb_row
  exact ⟨rfl, rfl, ⟨50000000, by decide⟩, hcur, by decide +kernel, rfl, by decide +kernel, by decide +kernel⟩

/-- It is paid as issued. -/
theorem sampleTopup_agrees : ∃ w₁ w₂ p₁ p₂,
    deliverPaid sampleWaitingDb .cryptobot "IV1" (21 / 2) (.error "") 0 = .ok w₁ ∧
      pollDepositStatus w₁.1 1 (.state "paid") (.error "") 0 = .ok w₂ ∧
        pollDepositStatus sampleWaitingDb 1 (.state "paid") (.error "") 0 = .ok p₁ ∧
          deliverPaid p₁ .cryptobot "IV1" (21 / 2) (.error "") 0 = .ok p₂ ∧
            SameSettlement 1 w₂ p₂.1 ∧ w₂ = w₁.1 ∧ p₂.1 = p₁ := by
  obtain ⟨w₁, w₂, p₁, p₂, hw₁, hw₂, hp₁, hp₂, -⟩ :=
    bothOrders_ok sampleWaitingDb 1 sampleWaitingDeposit (21 / 2) (fun _ _ => True) (by decide +kernel)
  refine ⟨w₁, w₂, p₁, p₂, hw₁, hw₂, hp₁, hp₂, ?_⟩
  refine (webhook_poll_agree_iff sampleWaitingDeposit_row rfl rfl sampleWaitingDeposit_issued
    (by decide +kernel) (by decide +kernel) hw₁ hw₂ hp₁ hp₂).2 ?_
  exact ⟨rfl, ⟨1, sampleWaitingDeal, rfl, sampleWaitingDb_row⟩, by decide +kernel⟩

end Garant
