import Garant.Replacement
/-!
# Credits by hand

An admin's `mark_paid` adds a deposit's amount to its owner's balance and does
nothing else. `markPaid_agrees_iff` says when that is what `credit_deposit` would
have done; one of the two may fail, and then it leaves everything as it was.
-/
open Decimal

namespace Garant

/-- The database after a request; one that fails is rolled back. -/
def Db.after (db : Db) (r : Result Db) : Db := r.toOption.getD db

/-- The rows a deposit refers to, as its creation finds or makes them: its
currency and its owner, and a linked deal of the owner in the same currency, on
its terms. No amount is negative. -/
structure Attached (db : Db) (dep : WalletDeposit) (cur : Currency) : Prop where
  currency : db.currencies.row dep.currency_id = some cur
  user : ∃ user, db.users.row dep.user_id = some user
  amount_nonneg : 0 ≤ dep.amount.val
  deal : ∀ k d, dep.linked_deal_id = some k → db.deals.row k = some d →
    d.buyer_id = dep.user_id ∧ d.currency_id = dep.currency_id ∧ (∃ com, TopupTerms db d cur com) ∧ 0 ≤ d.amount.val
  balance_nonneg : 0 ≤ (db.balance dep.user_id dep.currency_id).amount.val ∧
    0 ≤ (db.balance dep.user_id dep.currency_id).locked.val

/-- When it is right to add the deposit's amount to the owner's balance and do
nothing else: for a wallet deposit always, for another only if nothing is paid,
or if the deal it is for neither collects its commission nor starts. -/
def ManualFits (db : Db) (dep : WalletDeposit) : Prop :=
  match dep.purpose with
  | .wallet => True
  | .trust => dep.amount.val = 0
  | .deal_topup => match dep.linked_deal_id.bind db.deals.row with
    | none => dep.amount.val = 0
    | some d => d.status = .pending_topup → dep.amount.val < commissionDue d ∨ (commissionDue d = 0 ∧
        plus (db.balance dep.user_id dep.currency_id).amount.val dep.amount.val < d.amount.val)

/-- The two credits left the same books and the same deposit status. -/
def SameCredit (j : ℕ) (a b : Db) : Prop := a.books = b.books ∧ (a.deposit j).map (·.1) = (b.deposit j).map (·.1)

/-- `mark_paid` goes through: the new balance fits its column. -/
def MarkPaidGoesThrough (db : Db) (dep : WalletDeposit) : Prop :=
  Storable (plus (db.balance dep.user_id dep.currency_id).amount.val dep.amount.val)

/-- `credit_deposit` goes through with no reported amount: the amount can be
quantised, the new numbers fit their columns, and if a waiting deal needs another
invoice, that one can be issued. -/
def CreditGoesThrough (db : Db) (dep : WalletDeposit) (cur : Currency) (reply : InvoiceReply) : Prop :=
  ∃ nominal, quantizeMoney dep.amount.val cur.decimals = .ok nominal ∧
    match dep.purpose with
    | .wallet => Storable nominal ∧ Storable (plus (db.balance dep.user_id dep.currency_id).amount.val nominal)
    | .trust => Storable nominal ∧ ∀ user, db.users.row dep.user_id = some user →
        Storable (plus user.trust_deposit_balance.val nominal)
    | .deal_topup => ∀ k d, dep.linked_deal_id = some k → db.deals.row k = some d → Storable nominal ∧
        if d.status = .pending_topup then
          (∃ o, topupOutcome (db.balance dep.user_id dep.currency_id) d cur nominal = .ok o) ∧
            ∃ total, stillDue (db.balance dep.user_id dep.currency_id) d cur nominal = .ok total ∧
              (0 < total → Issuable db d cur total reply)
        else Storable (plus (db.balance dep.user_id dep.currency_id).amount.val nominal)

section
variable {db db₁ db' : Db} {i j k u c : ℕ} {d d' : Deal} {dep dep' : WalletDeposit} {bal : UserBalance} {cur : Currency}
  {now : Time} {x y : ℚ} {reply : InvoiceReply}

theorem markPaid_outcome (hj : db.wallet_deposits.row j = some dep) (hunpaid : dep.status ≠ .paid)
    (h : markPaid db j now = .ok db') :
    ∃ amount, store (plus (db.balance dep.user_id dep.currency_id).amount.val dep.amount.val) = .ok amount ∧
      db'.books = db.books.setBalance dep.user_id dep.currency_id
        ⟨amount, (db.balance dep.user_id dep.currency_id).locked⟩ ∧
      PaidRow db' j dep dep.amount dep.paid_amount := by
  simp only [markPaid, bind_ok, orRaise_ok] at h
  obtain ⟨dep', hj', h⟩ := h
  cases hj.symm.trans hj'
  rw [if_neg hunpaid] at h
  simp only [bind_ok, orRaise_ok, pure_ok] at h
  obtain ⟨_, -, db₁, hw, rfl⟩ := h
  obtain ⟨bal, ha, hl, hm⟩ := writeBalance_moved hw
  rw [balance_lockUserBalance] at ha hl
  rw [store_val, Except.ok.injEq] at hl
  have hj₁ : db₁.wallet_deposits.row j = some dep := by rw [hm.deposits, hj]
  refine ⟨bal.amount, ha, ?_, ⟨_, setDeposit_row hj₁⟩⟩
  rw [setDeposit_books, hm.books, hl]

/-! ## Who goes through -/

theorem markPaid_isOk_iff (hj : db.wallet_deposits.row j = some dep) (hunpaid : dep.status ≠ .paid)
    (hc : db.currencies.row dep.currency_id = some cur) :
    (∃ db', markPaid db j now = .ok db') ↔ MarkPaidGoesThrough db dep := by
  constructor
  · rintro ⟨db', h⟩
    obtain ⟨amount, ha, -⟩ := markPaid_outcome hj hunpaid h
    exact ⟨amount, ha⟩
  · rintro ⟨amount, ha⟩
    have hrow : (orRaise (db.wallet_deposits.row j) (.http 404 "Депозит не найден") : Result WalletDeposit) = .ok dep :=
      orRaise_ok.2 hj
    have hcur : (orRaise (db.currencies.row dep.currency_id) (.http 500 "Валюта не найдена") : Result Currency) = .ok cur :=
      orRaise_ok.2 hc
    simp only [markPaid, hrow, ok_bind, hunpaid, if_false, hcur, writeBalance, balance_lockUserBalance, ha, store_val]
    exact ⟨_, rfl⟩

/-- The change that the ledger records of a credit is the credit. -/
theorem storable_delta {x : Money} (hy : IsGrid 8 y) (hys : Storable y) (h : Storable (plus x.val y)) :
    Storable (minus (plus x.val y) x.val) := by
  obtain ⟨v, hv⟩ := h
  obtain ⟨w, hw⟩ := hys
  have hsum : v.val = x.val + y := store_plus (Numeric.isGrid _) hy hv
  have hplus : plus x.val y = x.val + y := ctx_of_fits (hsum ▸ Numeric.fits v)
  have hminus : minus (x.val + y) x.val = y := by
    rw [minus, Decimal.sub, add_sub_cancel_left]
    exact ctx_of_fits (store_grid hy hw ▸ Numeric.fits w)
  rw [hplus, hminus]
  exact ⟨w, hw⟩

theorem creditAmount_isOk_iff {ref : LedgerRef} (hy : IsGrid 8 y) (hys : Storable y) :
    (∃ db', creditAmount db u c y ref = .ok db') ↔ Storable (plus (db.balance u c).amount.val y) := by
  rw [creditAmount, changeBalance_isOk_iff]
  constructor
  · exact fun h => h.1
  · intro h
    refine ⟨h, ⟨_, store_val _⟩, storable_delta hy hys h, ?_⟩
    rw [minus_eq_zero.2 rfl]
    exact storable_zero

theorem creditTrust_isOk_iff {user : User} (hu : db.users.row dep.user_id = some user) (hy : IsGrid 8 y)
    (hys : Storable y) :
    (∃ db', creditTrust db j dep y = .ok db') ↔ Storable (plus user.trust_deposit_balance.val y) := by
  have hrow : (orRaise (db.users.row dep.user_id) .no_result : Result User) = .ok user := orRaise_ok.2 hu
  constructor
  · rintro ⟨db', h⟩
    simp only [creditTrust, hrow, ok_bind, bind_ok] at h
    obtain ⟨trust, ht, -⟩ := h
    exact ⟨trust, ht⟩
  · intro h
    obtain ⟨delta, hdelta⟩ := storable_delta hy hys h
    obtain ⟨trust, ht⟩ := h
    simp only [creditTrust, hrow, ok_bind, ht, recordSyntheticLedger, store_val, hdelta]
    split
    · exact ⟨_, rfl⟩
    · exact ⟨_, rfl⟩

theorem Attached.issued (h : Attached db dep cur) (hg : IsGrid cur.decimals dep.amount.val) : Issued db dep cur where
  currency := h.currency
  grid := hg
  deal k d hl hr := by
    obtain ⟨hb, hc, hterms, -⟩ := h.deal k d hl hr
    exact ⟨hb, hc, hterms⟩

/-- `credit_deposit` of a deposit that is not paid, up to the purpose. -/
theorem creditDeposit_unpaid (hj : db.wallet_deposits.row j = some dep) (hunpaid : dep.status ≠ .paid)
    (hc : db.currencies.row dep.currency_id = some cur) :
    creditDeposit db j none reply now = (quantizeMoney dep.amount.val cur.decimals >>= fun nominal =>
      if dep.purpose = .deal_topup then completeDealTopupPayment db j none reply now
      else do
        let db ← creditBalance db j dep nominal
        let amount ← store nominal
        pure (db.setDeposit j { dep.settle now dep.paid_amount with amount })) := by
  have hrow : (orRaise (db.wallet_deposits.row j) .no_result : Result WalletDeposit) = .ok dep := orRaise_ok.2 hj
  simp only [creditDeposit, hrow, ok_bind, hunpaid, if_false, hc, Option.elim_some, quantizeReported, storeOpt]
  simp only [bind, Except.bind, pure, Except.pure, Option.getD_none, max_self, Option.bind_none]
  rfl

/-- The payment for a deal. -/
theorem completeDealTopupPayment_isOk_iff {nominal : ℚ} (hj : db.wallet_deposits.row j = some dep)
    (hunpaid : dep.status ≠ .paid) (ha : Attached db dep cur) (hn : quantizeMoney dep.amount.val cur.decimals = .ok nominal) :
    (∃ db', completeDealTopupPayment db j none reply now = .ok db') ↔
      ∀ k d, dep.linked_deal_id = some k → db.deals.row k = some d → Storable nominal ∧
        if d.status = .pending_topup then
          (∃ o, topupOutcome (db.balance dep.user_id dep.currency_id) d cur nominal = .ok o) ∧
            ∃ total, stillDue (db.balance dep.user_id dep.currency_id) d cur nominal = .ok total ∧
              (0 < total → Issuable db d cur total reply)
        else Storable (plus (db.balance dep.user_id dep.currency_id).amount.val nominal) := by
  have hrow : (orRaise (db.wallet_deposits.row j) .no_result : Result WalletDeposit) = .ok dep := orRaise_ok.2 hj
  have hunattached : ∃ db', settleUnattached db j dep none now = .ok db' := ⟨_, rfl⟩
  simp only [completeDealTopupPayment, hrow, ok_bind, hunpaid, if_false]
  cases hl : dep.linked_deal_id with
  | none => exact iff_of_true hunattached fun k d hk => (by cases hk)
  | some k =>
    dsimp only
    cases hr : db.deals.row k with
    | none =>
      refine iff_of_true hunattached fun k' d hk hr' => ?_
      cases hk
      rw [hr] at hr'
      cases hr'
    | some d =>
      obtain ⟨hb, hc, ⟨com, ht⟩, hprice⟩ := ha.deal k d hl hr
      obtain ⟨user, hu⟩ := ha.user
      have hcur : (orRaise (db.currencies.row d.currency_id) currencyVanished : Result Currency) = .ok cur :=
        orRaise_ok.2 ht.currency
      have hone {p : ℕ → Deal → Prop} : (∀ k' d', some k = some k' → db.deals.row k' = some d' → p k' d') ↔ p k d := by
        constructor
        · exact fun h => h k d rfl hr
        · intro h k' d' hk hd
          cases hk
          cases hr.symm.trans hd
          exact h
      dsimp only
      rw [hone, hcur, ok_bind, Option.getD_none, hn, ok_bind, ← hb, ← hc]
      by_cases hw : d.status = .pending_topup
      · rw [if_pos hw, if_pos hw]
        obtain ⟨ha0, hl0⟩ := ha.balance_nonneg
        rw [← hb, ← hc] at ha0 hl0
        exact settleTopup_isOk_iff now reply hr hj ht (hb ▸ hu) ha0 hl0 hprice
          (quantizeMoney_nonneg ha.amount_nonneg hn)
      · rw [if_neg hw, if_neg hw]
        have hgrid : IsGrid 8 nominal := (quantizeMoney_ok_iff.1 hn).2 ▸ roundTo_money_grid _ _
        simp only [lateCredit]
        constructor
        · rintro ⟨_, h⟩
          obtain ⟨db₁, hcr, h⟩ := bind_ok.1 h
          obtain ⟨v, hv, -⟩ := bind_ok.1 h
          exact ⟨⟨v, hv⟩, (creditAmount_isOk_iff hgrid ⟨v, hv⟩).1 ⟨db₁, hcr⟩⟩
        · rintro ⟨⟨v, hv⟩, h⟩
          obtain ⟨db₁, hcr⟩ : ∃ db₁, creditAmount db d.buyer_id d.currency_id nominal
              (depositRef "deal_topup.late_credit" j dep) = .ok db₁ := (creditAmount_isOk_iff hgrid ⟨v, hv⟩).2 h
          rw [hcr, ok_bind, hv]
          exact ⟨_, rfl⟩

theorem creditDeposit_isOk_iff (hj : db.wallet_deposits.row j = some dep) (hunpaid : dep.status ≠ .paid)
    (ha : Attached db dep cur) :
    (∃ db', creditDeposit db j none reply now = .ok db') ↔ CreditGoesThrough db dep cur reply := by
  rw [creditDeposit_unpaid hj hunpaid ha.currency, CreditGoesThrough]
  have hsplit {β : Type} {x : Result ℚ} {f : ℚ → Result β} :
      (∃ b, (x >>= f) = .ok b) ↔ ∃ a, x = .ok a ∧ ∃ b, f a = .ok b := by
    simp only [bind_ok]
    exact ⟨fun ⟨b, a, ha, hb⟩ => ⟨a, ha, b, hb⟩, fun ⟨a, ha, b, hb⟩ => ⟨b, a, ha, hb⟩⟩
  rw [hsplit]
  refine exists_congr fun nominal => and_congr_right fun hn => ?_
  -- the nominal amount has the digits of the column
  have hnominal : nominal = roundTo cur.decimals dep.amount.val := (quantizeMoney_ok_iff.1 hn).2
  have hgrid : IsGrid 8 nominal := hnominal ▸ roundTo_money_grid _ _
  have hwritten {x : Result Db} {p : Prop} (hx : Storable nominal → ((∃ db', x = .ok db') ↔ p)) :
      (∃ db', (do
        let db ← x
        let amount ← store nominal
        pure (db.setDeposit j { dep.settle now dep.paid_amount with amount })) = .ok db') ↔ Storable nominal ∧ p := by
    constructor
    · rintro ⟨_, h⟩
      obtain ⟨db₁, hdb, h⟩ := bind_ok.1 h
      obtain ⟨a, ha, -⟩ := bind_ok.1 h
      exact ⟨⟨a, ha⟩, (hx ⟨a, ha⟩).1 ⟨db₁, hdb⟩⟩
    · rintro ⟨⟨a, ha⟩, hp⟩
      obtain ⟨db₁, hdb⟩ := (hx ⟨a, ha⟩).2 hp
      rw [hdb, ok_bind, ha]
      exact ⟨_, rfl⟩
  cases hp : dep.purpose with
  | wallet =>
    rw [if_neg (by decide)]
    refine hwritten fun hs => ?_
    rw [creditBalance, hp, if_neg (by decide)]
    exact creditAmount_isOk_iff hgrid hs
  | trust =>
    rw [if_neg (by decide)]
    refine hwritten fun hs => ?_
    obtain ⟨user, hu⟩ := ha.user
    rw [creditBalance, if_pos hp, creditTrust_isOk_iff hu hgrid hs]
    constructor
    · intro h user' hu'
      cases hu.symm.trans hu'
      exact h
    · exact fun h => h user hu
  | deal_topup =>
    rw [if_pos rfl]
    exact completeDealTopupPayment_isOk_iff hj hunpaid ha hn

/-! ## Where both go through -/

theorem Books.setBalance_self (db : Db) (u c : ℕ) : db.books.setBalance u c (db.balance u c) = db.books := by
  apply Books.ext
  · funext v e
    simp only [Books.setBalance]
    split
    · rename_i h
      rw [h.1, h.2]
      rfl
    · rfl
  · rfl
  · rfl

theorem Books.setTrust_self {user : User} (hu : db.users.row u = some user) :
    db.books.setTrust u user.trust_deposit_balance = db.books := by
  apply Books.ext
  · rfl
  · funext v
    simp only [Books.setTrust]
    split
    · subst v
      simp [Db.books, hu]
    · rfl
  · rfl

@[simp] theorem Books.setBalance_at (b : Books) (u c : ℕ) (bal : UserBalance) : (b.setBalance u c bal).balances u c = bal :=
  if_pos ⟨rfl, rfl⟩

/-- Adding zero to a stored number. -/
theorem store_plus_eq_iff {x : Money} {y : ℚ} {v : Money} (hy : IsGrid 8 y) (h : store (plus x.val y) = .ok v) :
    v = x ↔ y = 0 := by
  have hv := store_plus (Numeric.isGrid _) hy h
  constructor
  · rintro rfl
    linarith
  · intro h0
    rw [h0, add_zero] at hv
    exact Numeric.val_inj hv

/-- A trust credit and a hand credit agree when nothing is credited. -/
theorem trust_agrees_iff {amount trust : Money} {user : User} (hu : db.users.row dep.user_id = some user)
    (ha : store (plus (db.balance dep.user_id dep.currency_id).amount.val dep.amount.val) = .ok amount)
    (ht : store (plus user.trust_deposit_balance.val dep.amount.val) = .ok trust) :
    db.books.setBalance dep.user_id dep.currency_id ⟨amount, (db.balance dep.user_id dep.currency_id).locked⟩ =
      db.books.setTrust dep.user_id trust ↔ dep.amount.val = 0 := by
  rw [← store_plus_eq_iff (Numeric.isGrid _) ha]
  constructor
  · intro h
    have hb : (⟨amount, (db.balance dep.user_id dep.currency_id).locked⟩ : UserBalance) =
        db.balance dep.user_id dep.currency_id := by
      rw [← Books.setBalance_at db.books dep.user_id dep.currency_id ⟨amount, _⟩, h]
      rfl
    exact congrArg UserBalance.amount hb
  · intro h
    have h0 := (store_plus_eq_iff (Numeric.isGrid _) ha).1 h
    rw [(store_plus_eq_iff (Numeric.isGrid _) ht).2 h0, Books.setTrust_self hu, h]
    exact Books.setBalance_self db _ _

/-- A payment leaves a waiting deal as it is, and adds just itself to the funds,
if it does not reach the commission, or no commission is due and the deal does
not start. -/
theorem topupOutcome_still_iff {com : Money} {paid : ℚ} {bal bal' : UserBalance} {st : DealStatus} {cp : Bool}
    {amount : Money} (hw : d.status = .pending_topup) (ht : TopupTerms db d cur com) (hp : IsGrid cur.decimals paid)
    (ha : store (plus bal.amount.val paid) = .ok amount) (h : topupOutcome bal d cur paid = .ok (bal', st, cp)) :
    (bal' = ⟨amount, bal.locked⟩ ∧ st = d.status ∧ cp = d.commission_paid) ↔
      (paid < commissionDue d ∨ (commissionDue d = 0 ∧ plus bal.amount.val paid < d.amount.val)) := by
  simp only [topupOutcome, bind_ok] at h
  obtain ⟨⟨amt, due⟩, hdue, h⟩ := h
  obtain ⟨rfl, hcd, hdue0, hgrid⟩ := ht.due hdue
  rw [← hcd]
  by_cases hlt : paid < due
  · -- below the commission
    rw [if_pos hlt, bind_ok] at h
    obtain ⟨amount', ha', h⟩ := h
    cases ha.symm.trans ha'
    cases pure_ok.1 h
    exact iff_of_true ⟨rfl, rfl, rfl⟩ (.inl hlt)
  rw [if_neg hlt, bind_ok] at h
  obtain ⟨credit, hq, h⟩ := h
  have hcredit : credit = paid - due := quantize_ctx (by norm_num [prec]) (hp.sub hgrid) (quantizeMoney_ok.1 hq)
  by_cases hshort : plus bal.amount.val credit < d.amount.val
  · -- the deal does not start
    rw [if_pos hshort, bind_ok] at h
    obtain ⟨amount', ha', h⟩ := h
    cases pure_ok.1 h
    by_cases h0 : due = 0
    · rw [hcredit, h0, sub_zero] at ha' hshort
      cases ha.symm.trans ha'
      exact iff_of_true ⟨rfl, rfl, by simp [h0]⟩ (.inr ⟨h0, hshort⟩)
    · refine iff_of_false ?_ ?_
      · rintro ⟨-, -, hcp⟩
        have hpos : 0 < due := lt_of_le_of_ne hdue0 (Ne.symm h0)
        rw [decide_eq_true hpos, Bool.or_true] at hcp
        rw [commissionDue, ← hcp, if_pos rfl] at hcd
        exact h0 hcd
      · rintro (h | ⟨h, -⟩)
        · exact hlt h
        · exact h0 h
  · -- the deal starts
    rw [if_neg hshort, bind_ok] at h
    obtain ⟨_, -, h⟩ := h
    obtain ⟨_, -, h⟩ := bind_ok.1 h
    cases pure_ok.1 h
    refine iff_of_false ?_ ?_
    · rintro ⟨-, hst, -⟩
      rw [hw] at hst
      cases hst
    · rintro (h | ⟨h0, h⟩)
      · exact hlt h
      · rw [hcredit, h0, sub_zero] at hshort
        exact hshort h

/-- Equal books, entry by entry, where a payment wrote. -/
theorem Books.setBalance_eq_setDeal_iff {x y : UserBalance} {st : DealStatus} {cp : Bool} (hr : db.deals.row k = some d) :
    db.books.setBalance u c x = (db.books.setBalance u c y).setDeal k st cp ↔
      (y = x ∧ st = d.status ∧ cp = d.commission_paid) := by
  constructor
  · intro h
    have hx : x = y := by
      have := congrFun (congrFun (congrArg Books.balances h) u) c
      simpa [Books.setDeal, Books.setBalance] using this
    have hd := congrFun (congrArg Books.deals h) k
    simp only [Books.setBalance, Books.setDeal, Db.books, hr, Option.map_some, if_true, Option.some.injEq,
      Prod.mk.injEq] at hd
    exact ⟨hx.symm, hd.1.symm, hd.2.symm⟩
  · rintro ⟨rfl, rfl, rfl⟩
    apply Books.ext
    · rfl
    · rfl
    · exact (congrArg Books.deals (Books.setDeal_self hr)).symm

/-- A top-up credit and a hand credit. -/
theorem topup_agrees_iff {amount : Money} {b : Books} {rep : Option Money} (hi : Issued db dep cur)
    (hp : dep.purpose = .deal_topup)
    (ha : store (plus (db.balance dep.user_id dep.currency_id).amount.val dep.amount.val) = .ok amount)
    (h : topupBooks db dep none = .ok (b, rep)) :
    db.books.setBalance dep.user_id dep.currency_id ⟨amount, (db.balance dep.user_id dep.currency_id).locked⟩ = b ↔
      ManualFits db dep := by
  have hnothing : db.books.setBalance dep.user_id dep.currency_id
      ⟨amount, (db.balance dep.user_id dep.currency_id).locked⟩ = db.books ↔ dep.amount.val = 0 := by
    rw [← store_plus_eq_iff (Numeric.isGrid _) ha]
    constructor
    · intro h
      have hb := congrFun (congrFun (congrArg Books.balances h) dep.user_id) dep.currency_id
      rw [Books.setBalance_at] at hb
      exact congrArg UserBalance.amount hb
    · intro h
      rw [h]
      exact Books.setBalance_self db _ _
  unfold ManualFits
  rw [hp]
  cases hl : dep.linked_deal_id with
  | none =>
    simp only [topupBooks, hl, Option.bind_none, bind_ok, pure_ok, Prod.mk.injEq] at h
    obtain ⟨_, -, rfl, -⟩ := h
    exact hnothing
  | some k =>
    cases hr : db.deals.row k with
    | none =>
      simp only [topupBooks, hl, Option.bind_some, hr, Option.map_none, bind_ok, pure_ok, Prod.mk.injEq] at h
      obtain ⟨_, -, rfl, -⟩ := h
      simpa only [Option.bind_some, hr] using hnothing
    | some d =>
      obtain ⟨hbuyer, hcurrency, com, ht⟩ := hi.deal k d hl hr
      simp only [topupBooks, hl, Option.bind_some, hr, Option.map_some, bind_ok, orRaise_ok, Option.getD_none] at h
      obtain ⟨cur', hc, paid, hq, rep, -, h⟩ := h
      cases ht.currency.symm.trans hc
      obtain rfl := quantizeMoney_of_grid hi.grid hq
      rw [hbuyer, hcurrency] at h
      simp only [Option.bind_some, hr]
      by_cases hw : d.status = .pending_topup
      · rw [if_pos hw, bind_ok] at h
        obtain ⟨⟨bal', st, cp⟩, ho, h⟩ := h
        cases pure_ok.1 h
        rw [Books.setBalance_eq_setDeal_iff hr, topupOutcome_still_iff hw ht hi.grid ha ho]
        exact ⟨fun h _ => h, fun h => h hw⟩
      · -- a late payment is credited in full
        rw [if_neg hw, bind_ok] at h
        obtain ⟨amount', ha', h⟩ := h
        cases ha.symm.trans ha'
        cases pure_ok.1 h
        exact iff_of_true rfl fun hw' => absurd hw' hw

/-- Where both go through on a row as it is issued, the manual credit agrees with
the automatic one exactly when it fits. -/
theorem credits_agree_iff {a b : Db} {reply : InvoiceReply} {now' : Time} (hj : db.wallet_deposits.row j = some dep)
    (hunpaid : dep.status ≠ .paid) (hi : Issued db dep cur) (hm : markPaid db j now = .ok a)
    (hc : creditDeposit db j none reply now' = .ok b) : SameCredit j a b ↔ ManualFits db dep := by
  obtain ⟨amount, ha, hab, had⟩ := markPaid_outcome hj hunpaid hm
  obtain ⟨books, amount', rep, ho, hbb, hbd⟩ := creditDeposit_outcome hj hunpaid hc
  have hsame : SameCredit j a b ↔ db.books.setBalance dep.user_id dep.currency_id
      ⟨amount, (db.balance dep.user_id dep.currency_id).locked⟩ = books := by
    rw [SameCredit, hab, had.deposit, hbb, hbd.deposit]
    exact and_iff_left rfl
  rw [hsame]
  simp only [creditOutcome, hi.currency, Option.elim_some, bind_ok, quantizeReported, pure_ok, Option.bind_none] at ho
  obtain ⟨nominal, hn, _, rfl, ho⟩ := ho
  obtain rfl := quantizeMoney_of_grid hi.grid hn
  rw [Option.getD_none, max_self] at ho
  by_cases htop : dep.purpose = .deal_topup
  · rw [if_pos htop, bind_ok] at ho
    obtain ⟨⟨b', rep'⟩, hb', ho⟩ := ho
    cases pure_ok.1 ho
    exact topup_agrees_iff hi htop ha hb'
  rw [if_neg htop, bind_ok] at ho
  obtain ⟨b', hb', ho⟩ := ho
  simp only [bind_ok, pure_ok, Prod.mk.injEq] at ho
  obtain ⟨_, -, _, -, rfl, -, -⟩ := ho
  unfold balanceBooks at hb'
  unfold ManualFits
  by_cases htrust : dep.purpose = .trust
  · rw [if_pos htrust, bind_ok] at hb'
    obtain ⟨user, hu, hb'⟩ := hb'
    obtain ⟨trust, ht, hb'⟩ := bind_ok.1 hb'
    cases pure_ok.1 hb'
    rw [htrust]
    exact trust_agrees_iff (orRaise_ok.1 hu) ha ht
  · rw [if_neg htrust, bind_ok] at hb'
    obtain ⟨amount'', ha'', hb'⟩ := hb'
    cases ha.symm.trans ha''
    cases pure_ok.1 hb'
    have hwallet : dep.purpose = .wallet := by
      cases hp : dep.purpose with
      | wallet => rfl
      | trust => exact absurd hp htrust
      | deal_topup => exact absurd hp htop
    rw [hwallet]
    exact iff_of_true rfl trivial

/-- A payment that leaves a waiting deal as it is adds itself to the balance. -/
theorem topupOutcome_still {com amount locked : Money} {paid : ℚ} (hw : d.status = .pending_topup)
    (ht : TopupTerms db d cur com) (hp : IsGrid cur.decimals paid)
    (h : topupOutcome bal d cur paid = .ok (⟨amount, locked⟩, d.status, d.commission_paid)) :
    store (plus bal.amount.val paid) = .ok amount := by
  simp only [topupOutcome, bind_ok] at h
  obtain ⟨⟨amt, due⟩, hdue, h⟩ := h
  obtain ⟨rfl, hcd, hdue0, hgrid⟩ := ht.due hdue
  split at h
  · obtain ⟨a, ha, h⟩ := bind_ok.1 h
    cases pure_ok.1 h
    exact ha
  · obtain ⟨credit, hq, h⟩ := bind_ok.1 h
    have hcredit : credit = paid - due := quantize_ctx (by norm_num [prec]) (hp.sub hgrid) (quantizeMoney_ok.1 hq)
    split at h
    · obtain ⟨a, ha, h⟩ := bind_ok.1 h
      simp only [pure_ok, Prod.mk.injEq, UserBalance.mk.injEq, true_and] at h
      obtain ⟨⟨rfl, -⟩, hcp⟩ := h
      -- no commission was due, or it would count as paid now
      have h0 : due = 0 := by
        cases hpaid : d.commission_paid with
        | true => rw [hcd, commissionDue, hpaid, if_pos rfl]
        | false =>
          rw [hpaid, Bool.false_or, decide_eq_false_iff_not, not_lt] at hcp
          exact le_antisymm hcp hdue0
      rw [hcredit, h0, sub_zero] at ha
      exact ha
    · obtain ⟨a, -, h⟩ := bind_ok.1 h
      obtain ⟨l, -, h⟩ := bind_ok.1 h
      simp only [pure_ok, Prod.mk.injEq] at h
      rw [hw] at h
      cases h.2.1

/-- Where the credits agree, the amount has no more digits than its currency. -/
theorem grid_of_sameCredit {a b : Db} {reply : InvoiceReply} {now' : Time} (hj : db.wallet_deposits.row j = some dep)
    (hunpaid : dep.status ≠ .paid) (hi : Attached db dep cur) (hm : markPaid db j now = .ok a)
    (hc : creditDeposit db j none reply now' = .ok b) (hsame : SameCredit j a b) : IsGrid cur.decimals dep.amount.val := by
  obtain ⟨amount, hamount, hab, -⟩ := markPaid_outcome hj hunpaid hm
  obtain ⟨books, amount', rep, ho, hbb, -⟩ := creditDeposit_outcome hj hunpaid hc
  have hbooks : db.books.setBalance dep.user_id dep.currency_id
      ⟨amount, (db.balance dep.user_id dep.currency_id).locked⟩ = books := by rw [← hab, ← hbb, hsame.1]
  have hsum := store_plus (Numeric.isGrid _) (Numeric.isGrid _) hamount
  -- what the automatic credit added, or that it added nothing
  have hadded {y : ℚ} (hy : IsGrid 8 y) (hg : IsGrid cur.decimals y)
      (h : store (plus (db.balance dep.user_id dep.currency_id).amount.val y) = .ok amount) :
      IsGrid cur.decimals dep.amount.val := by
    have hsum' := store_plus (Numeric.isGrid _) hy h
    obtain rfl : y = dep.amount.val := by linarith
    exact hg
  have hbal := congrFun (congrFun (congrArg Books.balances hbooks) dep.user_id) dep.currency_id
  rw [Books.setBalance_at] at hbal
  have hnothing (h : books.balances dep.user_id dep.currency_id = db.balance dep.user_id dep.currency_id) :
      IsGrid cur.decimals dep.amount.val := by
    have h0 : dep.amount.val = 0 :=
      (store_plus_eq_iff (Numeric.isGrid _) hamount).1 (congrArg UserBalance.amount (hbal.trans h))
    rw [h0]
    exact isGrid_zero _
  simp only [creditOutcome, hi.currency, Option.elim_some, bind_ok, quantizeReported, pure_ok, Option.bind_none] at ho
  obtain ⟨nominal, hn, _, rfl, ho⟩ := ho
  have hg := quantizeMoney_grid hn
  have hg8 : IsGrid 8 nominal := (quantizeMoney_ok_iff.1 hn).2 ▸ roundTo_money_grid _ _
  rw [Option.getD_none, max_self] at ho
  by_cases htop : dep.purpose = .deal_topup
  · rw [if_pos htop, bind_ok] at ho
    obtain ⟨⟨b', rep'⟩, hb', ho⟩ := ho
    cases pure_ok.1 ho
    cases hl : dep.linked_deal_id with
    | none =>
      simp only [topupBooks, hl, Option.bind_none, bind_ok, pure_ok, Prod.mk.injEq] at hb'
      obtain ⟨_, -, rfl, -⟩ := hb'
      exact hnothing rfl
    | some k =>
      cases hr : db.deals.row k with
      | none =>
        simp only [topupBooks, hl, Option.bind_some, hr, Option.map_none, bind_ok, pure_ok, Prod.mk.injEq] at hb'
        obtain ⟨_, -, rfl, -⟩ := hb'
        exact hnothing rfl
      | some d =>
        obtain ⟨hbuyer, hcurrency, ⟨com, ht⟩, -⟩ := hi.deal k d hl hr
        simp only [topupBooks, hl, Option.bind_some, hr, Option.map_some, bind_ok, orRaise_ok, Option.getD_none] at hb'
        obtain ⟨cur', hc', paid, hq, v, -, hb'⟩ := hb'
        cases ht.currency.symm.trans hc'
        cases hn.symm.trans hq
        rw [hbuyer, hcurrency] at hb'
        by_cases hw : d.status = .pending_topup
        · rw [if_pos hw, bind_ok] at hb'
          obtain ⟨⟨bal', st, cp⟩, hout, hb'⟩ := hb'
          cases pure_ok.1 hb'
          obtain ⟨rfl, rfl, rfl⟩ := (Books.setBalance_eq_setDeal_iff hr).1 hbooks
          exact hadded hg8 hg (topupOutcome_still hw ht hg hout)
        · rw [if_neg hw, bind_ok] at hb'
          obtain ⟨a', ha', hb'⟩ := hb'
          cases pure_ok.1 hb'
          rw [Books.setBalance_at] at hbal
          cases hbal
          exact hadded hg8 hg ha'
  rw [if_neg htop, bind_ok] at ho
  obtain ⟨b', hb', ho⟩ := ho
  simp only [bind_ok, pure_ok, Prod.mk.injEq] at ho
  obtain ⟨_, -, _, -, rfl, -, -⟩ := ho
  unfold balanceBooks at hb'
  by_cases htrust : dep.purpose = .trust
  · rw [if_pos htrust, bind_ok] at hb'
    obtain ⟨user, hu, hb'⟩ := hb'
    obtain ⟨trust, ht, hb'⟩ := bind_ok.1 hb'
    cases pure_ok.1 hb'
    exact hnothing rfl
  · rw [if_neg htrust, bind_ok] at hb'
    obtain ⟨a', ha', hb'⟩ := hb'
    cases pure_ok.1 hb'
    rw [Books.setBalance_at] at hbal
    cases hbal
    exact hadded hg8 hg ha'

/-- An admin's credit and the automatic one leave the same, a failing one leaving
everything as it was, exactly when both go through and the manual one fits, or
neither does. -/
theorem markPaid_agrees_iff {now' : Time} (hj : db.wallet_deposits.row j = some dep) (hunpaid : dep.status ≠ .paid)
    (ha : Attached db dep cur) :
    SameCredit j (db.after (markPaid db j now)) (db.after (creditDeposit db j none reply now')) ↔
      (MarkPaidGoesThrough db dep ↔ CreditGoesThrough db dep cur reply) ∧
        (MarkPaidGoesThrough db dep → IsGrid cur.decimals dep.amount.val ∧ ManualFits db dep) := by
  have hunlike {a : Db} {amount : Money} {rep : Option Money} (h : PaidRow a j dep amount rep) :
      (a.deposit j).map (·.1) ≠ (db.deposit j).map (·.1) := by
    rw [h.deposit, Db.deposit, hj]
    exact fun h => hunpaid (Option.some.inj h).symm
  have hmanual : (∃ db', markPaid db j now = .ok db') ↔ MarkPaidGoesThrough db dep :=
    markPaid_isOk_iff hj hunpaid ha.currency
  have hautomatic : (∃ db', creditDeposit db j none reply now' = .ok db') ↔ CreditGoesThrough db dep cur reply :=
    creditDeposit_isOk_iff hj hunpaid ha
  rw [← hmanual, ← hautomatic]
  cases hm : markPaid db j now with
  | ok a =>
    obtain ⟨_, -, -, hrow⟩ := markPaid_outcome hj hunpaid hm
    cases hc : creditDeposit db j none reply now' with
    | ok b =>
      rw [and_iff_right (iff_of_true ⟨a, rfl⟩ ⟨b, rfl⟩), imp_iff_right ⟨a, rfl⟩]
      constructor
      · intro h
        have hg := grid_of_sameCredit hj hunpaid ha hm hc h
        exact ⟨hg, (credits_agree_iff hj hunpaid (ha.issued hg) hm hc).1 h⟩
      · rintro ⟨hg, hfits⟩
        exact (credits_agree_iff hj hunpaid (ha.issued hg) hm hc).2 hfits
    | error e =>
      refine iff_of_false (fun h => hunlike hrow h.2) ?_
      rintro ⟨hiff, -⟩
      obtain ⟨_, h⟩ := hiff.1 ⟨a, rfl⟩
      cases h
  | error e =>
    cases hc : creditDeposit db j none reply now' with
    | ok b =>
      obtain ⟨_, _, _, -, -, hrow⟩ := creditDeposit_outcome hj hunpaid hc
      refine iff_of_false (fun h => hunlike hrow h.2.symm) ?_
      rintro ⟨hiff, -⟩
      obtain ⟨_, h⟩ := hiff.2 ⟨b, rfl⟩
      cases h
    | error e' =>
      refine iff_of_true ⟨rfl, rfl⟩ ⟨iff_of_false ?_ ?_, ?_⟩
      · rintro ⟨_, h⟩
        cases h
      · rintro ⟨_, h⟩
        cases h
      · rintro ⟨_, h⟩
        cases h

end

/-- The deal of an invoice of 10.50 was cancelled before the invoice is paid. -/
def sampleLateDb : Db :=
  { sampleWaitingDb with deals := Table.empty.insert { sampleWaitingDeal with status := .cancelled } }

theorem sampleLateDb_row {k : ℕ} {d : Deal} (h : sampleLateDb.deals.row k = some d) :
    k = 1 ∧ d = { sampleWaitingDeal with status := .cancelled } := by
  change (Table.empty.insert _).row k = some d at h
  rw [Table.insert_row] at h
  split at h
  · cases h
    exact ⟨‹_›, rfl⟩
  · cases h

theorem sampleLateDb_attached : Attached sampleLateDb sampleWaitingDeposit (sampleCurrency 2) where
  currency := sampleWaitingDeposit_issued.currency
  user := ⟨sampleUser false, by decide +kernel⟩
  amount_nonneg := by decide +kernel
  deal k d _ hr := by
    obtain ⟨rfl, rfl⟩ := sampleLateDb_row hr
    obtain ⟨-, -, hterms⟩ := sampleWaitingDeposit_issued.deal 1 sampleWaitingDeal rfl sampleWaitingDb_row
    obtain ⟨com, hcur, hgrid, hcom, hcg, hc0⟩ := hterms
    exact ⟨rfl, rfl, ⟨com, hcur, hgrid, hcom, hcg, hc0⟩, by decide +kernel⟩
  balance_nonneg := by decide +kernel

/-- It goes to the buyer's balance, by hand as otherwise. -/
theorem sampleLate_agrees : SameCredit 1 (sampleLateDb.after (markPaid sampleLateDb 1 0))
    (sampleLateDb.after (creditDeposit sampleLateDb 1 none (.error "") 0)) := by
  have hj : sampleLateDb.wallet_deposits.row 1 = some sampleWaitingDeposit := sampleWaitingDeposit_row
  have hm : MarkPaidGoesThrough sampleLateDb sampleWaitingDeposit := ⟨⟨1050000000, by decide⟩, by decide +kernel⟩
  have hc : CreditGoesThrough sampleLateDb sampleWaitingDeposit (sampleCurrency 2) (.error "") := by
    refine ⟨21 / 2, by decide +kernel, fun k d _ hr => ⟨⟨⟨1050000000, by decide⟩, by decide +kernel⟩, ?_⟩⟩
    obtain ⟨rfl, rfl⟩ := sampleLateDb_row hr
    exact ⟨⟨1050000000, by decide⟩, by decide +kernel⟩
  have hfits : ManualFits sampleLateDb sampleWaitingDeposit := by
    show DealStatus.cancelled = .pending_topup → _
    intro hw
    cases hw
  exact (markPaid_agrees_iff hj (by decide) sampleLateDb_attached).2 ⟨iff_of_true hm hc, fun _ => ⟨by decide +kernel, hfits⟩⟩

/-- A trust deposit marked paid by hand goes to the wallet, and the trust balance stays empty. -/
theorem markPaid_misses_trust : ∃ a b, markPaid (sampleDepositDb .trust) 1 0 = .ok a ∧
    creditDeposit (sampleDepositDb .trust) 1 none (.error "") 0 = .ok b ∧ (a.balance 1 1).amount.val = 10 ∧
      (b.balance 1 1).amount.val = 0 ∧ ¬SameCredit 1 a b := by
  have hm : ∃ a, markPaid (sampleDepositDb .trust) 1 0 = .ok a ∧ (a.balance 1 1).amount.val = 10 :=
    exists_ok (by decide +kernel)
  have hc : ∃ b, creditDeposit (sampleDepositDb .trust) 1 none (.error "") 0 = .ok b ∧ (b.balance 1 1).amount.val = 0 :=
    exists_ok (by decide +kernel)
  obtain ⟨a, ha, hamount⟩ := hm
  obtain ⟨b, hb, hamount'⟩ := hc
  refine ⟨a, b, ha, hb, hamount, hamount', ?_⟩
  rintro ⟨hbooks, -⟩
  have hbal : a.balance 1 1 = b.balance 1 1 := congrFun (congrFun (congrArg Books.balances hbooks) 1) 1
  rw [hbal, hamount'] at hamount
  norm_num at hamount

end Garant
