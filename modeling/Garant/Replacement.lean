import Garant.Crediting
/-!
# Payments that need another invoice

A payment that does not activate its deal is credited in the same transaction
that issues the next invoice. `payment_credited_iff` says when the credit
survives: when nothing is left to invoice, or the next invoice is issued.
-/
open Decimal

namespace Garant

/-- The deal after a payment that covered the commission due. -/
def Deal.collected (d : Deal) (due : ℚ) : Deal := { d with commission_paid := d.commission_paid || decide (0 < due) }

section
variable {db db₁ db' : Db} {i j k u c : ℕ} {d d' : Deal} {dep : WalletDeposit} {cur : Currency} {now : Time}
  {reply : InvoiceReply} {x y : ℚ} {v : Money}

/-! ## Writes that fit -/

theorem store_of_le (hx : 0 ≤ x) (hxy : x ≤ y) (h : store y = .ok v) : ∃ w, store x = .ok w := by
  have hy := orRaise_ok.1 h
  have hle : roundHalfAway (x * 10 ^ 8) ≤ roundHalfAway (y * 10 ^ 8) :=
    roundHalfAway_mono (by positivity) (mul_le_mul_of_nonneg_right hxy (by positivity))
  have h0 : 0 ≤ roundHalfAway (x * 10 ^ 8) := roundHalfAway_nonneg (by positivity)
  have hbound : (roundHalfAway (y * 10 ^ 8)).natAbs < 10 ^ 28 := by
    rw [← Numeric.ofRat_eq_some hy]
    exact v.bound
  have hfit : (roundHalfAway (x * 10 ^ 8)).natAbs < 10 ^ 28 := by omega
  exact ⟨⟨_, hfit⟩, orRaise_ok.2 (dif_pos hfit)⟩

theorem store_neg (h : store x = .ok v) : ∃ w, store (-x) = .ok w := by
  have hx := Numeric.ofRat_eq_some (orRaise_ok.1 h)
  have hfit : (roundHalfAway (-x * 10 ^ 8)).natAbs < 10 ^ 28 := by
    rw [neg_mul, roundHalfAway_neg, ← hx, Int.natAbs_neg]
    exact v.bound
  exact ⟨⟨_, hfit⟩, orRaise_ok.2 (dif_pos hfit)⟩

/-- The difference of two numbers that fit the column fits it too. -/
theorem store_minus_fits {w : Money} (hx : 0 ≤ x) (hy : 0 ≤ y) (hfx : Fits prec x) (hfy : Fits prec y)
    (hsx : store x = .ok v) (hsy : store y = .ok w) : ∃ z, store (minus x y) = .ok z := by
  have hp : 0 < prec := by norm_num [prec]
  rcases le_total y x with h | h
  · have hle : minus x y ≤ x := ctx_le_of_le hp (sub_nonneg.2 h) hfx (by linarith)
    exact store_of_le (ctx_nonneg _ (sub_nonneg.2 h)) hle hsx
  · have hle : minus y x ≤ y := ctx_le_of_le hp (sub_nonneg.2 h) hfy (by linarith)
    obtain ⟨z, hz⟩ := store_of_le (ctx_nonneg _ (sub_nonneg.2 h)) hle hsy
    have hneg : minus x y = -minus y x := by
      rw [minus, minus, Decimal.sub, Decimal.sub, ← ctx_neg, neg_sub]
    rw [hneg]
    exact store_neg hz

/-- A change of a balance goes through when both new numbers fit their columns. -/
theorem changeBalance_fits {a l : Money} (ref : LedgerRef) (ha0 : 0 ≤ (db.balance u c).amount.val)
    (hl0 : 0 ≤ (db.balance u c).locked.val) (hx : 0 ≤ x) (hy : 0 ≤ y) (hfx : Fits prec x) (hfy : Fits prec y)
    (hsx : store x = .ok a) (hsy : store y = .ok l) : ∃ db', changeBalance db u c x y ref = .ok db' := by
  have hda := store_minus_fits hx ha0 hfx (Numeric.fits _) hsx (store_val _)
  have hdl := store_minus_fits hy hl0 hfy (Numeric.fits _) hsy (store_val _)
  exact changeBalance_isOk_iff.2 ⟨⟨a, hsx⟩, ⟨l, hsy⟩, hda, hdl⟩

/-! ## The next invoice -/

/-- `create_deposit_invoice` of `total` for the deal's buyer succeeds: the
currency is active, the provider is configured and answers with a payable
invoice it has not issued before, and the total fits. -/
def Issuable (db : Db) (d : Deal) (cur : Currency) (total : ℚ) (reply : InvoiceReply) : Prop :=
  ∃ c cur' amount a p id, getCurrencyByCode db cur.code = .ok (c, cur') ∧
    quantizeMoney total cur'.decimals = .ok amount ∧ store amount = .ok a ∧
      createProviderInvoice db (if d.payment_provider = "" then "cryptobot" else d.payment_provider) reply = .ok (p, id) ∧
        ∀ j dep, db.wallet_deposits.row j = some dep → ¬(dep.provider = p ∧ dep.provider_invoice_id = id)

/-- What is left to invoice after a payment of `paid` on a balance of `bal`; zero if the deal starts. -/
def stillDue (bal : UserBalance) (deal : Deal) (currency : Currency) (paid : ℚ) : Result ℚ := do
  let (amt, commission_due) ← topupDue deal currency
  if paid < commission_due then
    quantizeMoney (plus (max 0 (minus amt (plus bal.amount.val paid))) commission_due) currency.decimals
  else do
    let principal_credit ← quantizeMoney (minus paid commission_due) currency.decimals
    let new_balance := plus bal.amount.val principal_credit
    if new_balance < amt then quantizeMoney (plus (max 0 (minus amt new_balance)) 0) currency.decimals else pure 0

theorem insertDeposit_isOk_iff (db : Db) (dep : WalletDeposit) : (∃ r, insertDeposit db dep = .ok r) ↔
    ∀ j e, db.wallet_deposits.row j = some e →
      ¬(e.provider = dep.provider ∧ e.provider_invoice_id = dep.provider_invoice_id) := by
  simp only [insertDeposit, bind_ok, raiseIf_ok, not_not, pure_ok]
  constructor
  · rintro ⟨_, _, hnil, -⟩ j e hj hsame
    have hmem := Table.mem_ids
      (p := fun d => d.provider == dep.provider && d.provider_invoice_id == dep.provider_invoice_id).2
      ⟨e, hj, by simp [hsame]⟩
    rw [hnil] at hmem
    cases hmem
  · intro h
    refine ⟨_, (), ?_, rfl⟩
    rw [List.eq_nil_iff_forall_not_mem]
    intro j hj
    obtain ⟨e, he, hp⟩ := Table.mem_ids.1 hj
    refine h j e he ?_
    simpa using hp

theorem createDepositInvoice_isOk_iff (now : Time) (d : Deal) {total : ℚ} :
    (∃ r, createDepositInvoice db d.buyer_id cur.code total .deal_topup
      (if d.payment_provider = "" then "cryptobot" else d.payment_provider) false reply now = .ok r) ↔
      Issuable db d cur total reply := by
  constructor
  · rintro ⟨r, h⟩
    simp only [createDepositInvoice, bind_ok] at h
    obtain ⟨⟨c, cur'⟩, hc, amount, hq, _, -, ⟨p, id⟩, hp, a, ha, h⟩ := h
    exact ⟨c, cur', amount, a, p, id, hc, hq, ha, hp, (insertDeposit_isOk_iff _ _).1 ⟨r, h⟩⟩
  · rintro ⟨c, cur', amount, a, p, id, hc, hq, ha, hp, hnew⟩
    obtain ⟨r, hr⟩ := (insertDeposit_isOk_iff db
      { user_id := d.buyer_id, currency_id := c, amount := a, provider := p, provider_invoice_id := id, status := .pending,
        purpose := .deal_topup, linked_deal_id := none, created_at := now, paid_at := none, paid_amount := none }).2 hnew
    refine ⟨r, ?_⟩
    simp only [createDepositInvoice, bind_ok]
    exact ⟨_, hc, amount, hq, (), raiseIf_ok.2 (by simp), _, hp, a, ha, hr⟩

/-- Only the settings, the currencies and the invoices there are matter. -/
theorem Issuable.congr {total : ℚ} (h : Issuable db d cur total reply) (hs : db'.settings = db.settings)
    (hc : db'.currencies = db.currencies) (hp : d'.payment_provider = d.payment_provider)
    (hdep : ∀ j e, db'.wallet_deposits.row j = some e → ∃ e₀, db.wallet_deposits.row j = some e₀ ∧
      e₀.provider = e.provider ∧ e₀.provider_invoice_id = e.provider_invoice_id) : Issuable db' d' cur total reply := by
  obtain ⟨c, cur', amount, a, p, id, hcur, hq, ha, hprov, hnew⟩ := h
  refine ⟨c, cur', amount, a, p, id, ?_, hq, ha, ?_, ?_⟩
  · unfold getCurrencyByCode at hcur ⊢
    rw [hc]
    exact hcur
  · unfold createProviderInvoice createCrystalpayInvoice createCryptobotInvoice at hprov ⊢
    rw [hp, hs]
    exact hprov
  · rintro j e he ⟨rfl, rfl⟩
    obtain ⟨e₀, he₀, hp₀, hid₀⟩ := hdep j e he
    exact hnew j e₀ he₀ ⟨hp₀, hid₀⟩

theorem changeBalance_settings {ref : LedgerRef} (h : changeBalance db u c x y ref = .ok db') :
    db'.settings = db.settings := by
  obtain ⟨f, hf⟩ := lockUserBalance_eq db u c
  simp only [changeBalance, writeBalance, hf, bind_ok, pure_ok] at h
  obtain ⟨_, ⟨_, -, _, -, rfl⟩, h⟩ := h
  unfold recordBalanceLedger at h
  split at h
  · rw [← pure_ok.1 h]
    rfl
  · simp only [bind_ok, pure_ok] at h
    obtain ⟨_, -, _, -, _, -, _, -, _, -, _, -, rfl⟩ := h
    rfl

theorem issueRemainingTopupInvoice_isOk_iff {buyer : User} (d : Deal) (k : ℕ) (now : Time)
    (reply : InvoiceReply) (hb : db.users.row d.buyer_id = some buyer) :
    (∃ db', issueRemainingTopupInvoice db k d cur x reply now = .ok db') ↔
      ∃ amt due total, topupDue d cur = .ok (amt, due) ∧
        quantizeMoney (plus (max 0 (minus amt x)) due) cur.decimals = .ok total ∧
          (0 < total → Issuable db d cur total reply) := by
  constructor
  · rintro ⟨db', h⟩
    simp only [issueRemainingTopupInvoice, bind_ok] at h
    obtain ⟨_, -, ⟨amt, due⟩, hdue, total, htotal, h⟩ := h
    refine ⟨amt, due, total, hdue, htotal, ?_⟩
    intro hpos
    rw [if_neg (not_le.2 hpos), bind_ok] at h
    obtain ⟨r, hr, -⟩ := h
    exact (createDepositInvoice_isOk_iff now d).1 ⟨r, hr⟩
  · rintro ⟨amt, due, total, hdue, htotal, hissue⟩
    by_cases hpos : 0 < total
    · obtain ⟨r, hr⟩ := (createDepositInvoice_isOk_iff now d).2 (hissue hpos)
      refine ⟨linkDeposit r.2 k r.1, ?_⟩
      simp only [issueRemainingTopupInvoice, bind_ok, orRaise_ok]
      refine ⟨buyer, hb, _, hdue, total, htotal, ?_⟩
      rw [if_neg (not_le.2 hpos), bind_ok]
      exact ⟨r, hr, rfl⟩
    · refine ⟨db, ?_⟩
      simp only [issueRemainingTopupInvoice, bind_ok, orRaise_ok]
      refine ⟨buyer, hb, _, hdue, total, htotal, ?_⟩
      rw [if_pos (not_lt.1 hpos)]
      rfl

/-! ## The payment -/

/-- The next invoice is issued after the balance, the deal and the deposit were written. -/
theorem issuable_written_iff {bal : UserBalance} {e : Deal} {total : ℚ} {rep : Option Money} (db₂ : Db)
    (hm : Moved False db db₁ d.buyer_id d.currency_id bal) (hs : db₁.settings = db.settings)
    (hj : db.wallet_deposits.row j = some dep) (he : e.payment_provider = d.payment_provider)
    (h₂ : db₂.settings = db₁.settings ∧ db₂.currencies = db₁.currencies ∧
      db₂.wallet_deposits = db₁.wallet_deposits.set j (dep.settle now rep)) :
    Issuable db₂ e cur total reply ↔ Issuable db d cur total reply := by
  obtain ⟨h₂s, h₂c, h₂d⟩ := h₂
  have hj₁ : db₁.wallet_deposits.row j = some dep := by rw [hm.deposits, hj]
  constructor
  · intro h
    refine h.congr (hs.symm.trans h₂s.symm) (hm.currencies.symm.trans h₂c.symm) he.symm ?_
    intro i e hi
    rw [h₂d, Table.set_row hj₁, hm.deposits]
    by_cases hij : i = j
    · subst hij
      cases hj.symm.trans hi
      exact ⟨_, if_pos rfl, rfl, rfl⟩
    · exact ⟨e, by rw [if_neg hij, hi], rfl, rfl⟩
  · intro h
    refine h.congr (h₂s.trans hs) (h₂c.trans hm.currencies) he ?_
    intro i e hi
    rw [h₂d, Table.set_row hj₁, hm.deposits] at hi
    by_cases hij : i = j
    · subst hij
      rw [if_pos rfl] at hi
      cases hi
      exact ⟨dep, hj, rfl, rfl⟩
    · rw [if_neg hij] at hi
      exact ⟨e, hi, rfl, rfl⟩

/-- The due commission is covered by a payment that reaches it. -/
theorem topupDue_collected {amt due : ℚ} (h0 : 0 ≤ due) (h : topupDue d cur = .ok (amt, due)) :
    topupDue (d.collected due) cur = .ok (amt, 0) := by
  simp only [topupDue, Deal.collected, bind_ok, pure_ok, Prod.mk.injEq] at h ⊢
  obtain ⟨a, ha, c, hc, rfl, hdue⟩ := h
  refine ⟨a, ha, c, hc, rfl, ?_⟩
  by_cases hpaid : d.commission_paid = true
  · simp [hpaid]
  · rw [if_neg hpaid] at hdue
    rcases h0.lt_or_eq with hpos | hzero
    · simp [hpos]
    · simp [← hzero, hdue]

/-- A payment for a waiting deal goes through exactly when its numbers fit and
the invoice for what is left, if anything is, can be issued. -/
theorem settleTopup_isOk_iff {com : Money} {paid : ℚ} {buyer : User} (now : Time) (reply : InvoiceReply)
    (hr : db.deals.row k = some d)
    (hj : db.wallet_deposits.row j = some dep) (ht : TopupTerms db d cur com)
    (hb : db.users.row d.buyer_id = some buyer) (ha0 : 0 ≤ (db.balance d.buyer_id d.currency_id).amount.val)
    (hl0 : 0 ≤ (db.balance d.buyer_id d.currency_id).locked.val) (hd0 : 0 ≤ d.amount.val) (hpaid : 0 ≤ paid) :
    (∃ db', settleTopup db j dep k d cur paid reply now = .ok db') ↔
      (∃ v, store paid = .ok v) ∧ (∃ o, topupOutcome (db.balance d.buyer_id d.currency_id) d cur paid = .ok o) ∧
        ∃ total, stillDue (db.balance d.buyer_id d.currency_id) d cur paid = .ok total ∧
          (0 < total → Issuable db d cur total reply) := by
  have hprec : 0 < prec := by norm_num [prec]
  constructor
  · rintro ⟨db', h⟩
    obtain ⟨bal, st, cp, rep, ho, hrep, -, -⟩ := settleTopup_outcome hr hj h
    refine ⟨⟨rep, hrep⟩, ⟨_, ho⟩, ?_⟩
    simp only [settleTopup, bind_ok] at h
    simp only [stillDue, bind_ok]
    obtain ⟨⟨amt, due⟩, hdue, rep', -, h⟩ := h
    obtain ⟨rfl, -, hdue0, -⟩ := ht.due hdue
    by_cases hlt : paid < due
    · rw [if_pos hlt] at h
      obtain ⟨db₁, hch, h⟩ := bind_ok.1 h
      obtain ⟨bal, -, -, hm⟩ := changeBalance_ok (depositRef_ne (by decide) _ _) hch
      have hb₁ : (db₁.setDeposit j (dep.settle now (some rep'))).users.row d.buyer_id = some buyer := by
        rw [← hb, ← hm.users]
        rfl
      obtain ⟨amt', due', total, hdue', htotal, hissue⟩ := (issueRemainingTopupInvoice_isOk_iff _ k now reply hb₁).1 ⟨db', h⟩
      cases hdue.symm.trans hdue'
      refine ⟨total, ⟨_, hdue, by rw [if_pos hlt, htotal]⟩, fun hpos => ?_⟩
      exact (issuable_written_iff (db₁.setDeposit j (dep.settle now (some rep'))) hm
          (changeBalance_settings hch) hj rfl ⟨rfl, rfl, rfl⟩).1 (hissue hpos)
    rw [if_neg hlt] at h
    obtain ⟨credit, hq, h⟩ := bind_ok.1 h
    by_cases hshort : plus (db.balance d.buyer_id d.currency_id).amount.val credit < d.amount.val
    · rw [if_pos hshort] at h
      obtain ⟨db₁, hch, h⟩ := bind_ok.1 h
      obtain ⟨bal, -, -, hm⟩ := changeBalance_ok (depositRef_ne (by decide) _ _) hch
      have hb₁ : ((db₁.setDeal k (d.collected due)).setDeposit j (dep.settle now (some rep'))).users.row
          (d.collected due).buyer_id = some buyer := by
        rw [← hm.users] at hb
        exact hb
      obtain ⟨amt', due', total, hdue', htotal, hissue⟩ := (issueRemainingTopupInvoice_isOk_iff _ k now reply hb₁).1 ⟨db', h⟩
      cases (topupDue_collected hdue0 hdue).symm.trans hdue'
      refine ⟨total, ⟨_, hdue, ?_⟩, fun hpos => ?_⟩
      · rw [if_neg hlt, bind_ok]
        exact ⟨credit, hq, by rw [if_pos hshort, htotal]⟩
      · exact (issuable_written_iff ((db₁.setDeal k (d.collected due)).setDeposit j (dep.settle now (some rep'))) hm
          (changeBalance_settings hch) hj rfl ⟨rfl, rfl, rfl⟩).1 (hissue hpos)
    · refine ⟨0, ⟨_, hdue, ?_⟩, fun h => absurd h (lt_irrefl 0)⟩
      rw [if_neg hlt, bind_ok]
      exact ⟨credit, hq, by rw [if_neg hshort]; rfl⟩
  · rintro ⟨⟨v, hv⟩, ⟨⟨bal, st, cp⟩, ho⟩, total, htotal, hissue⟩
    simp only [topupOutcome, bind_ok] at ho
    simp only [stillDue, bind_ok] at htotal
    simp only [settleTopup, bind_ok]
    obtain ⟨⟨amt, due⟩, hdue, ho⟩ := ho
    obtain ⟨⟨amt', due'⟩, hdue', htotal⟩ := htotal
    cases hdue.symm.trans hdue'
    obtain ⟨rfl, -, hdue0, -⟩ := ht.due hdue
    by_cases hlt : paid < due
    · rw [if_pos hlt] at ho htotal
      obtain ⟨a, ha, -⟩ := bind_ok.1 ho
      have hsum : 0 ≤ (db.balance d.buyer_id d.currency_id).amount.val + paid := add_nonneg ha0 hpaid
      obtain ⟨db₁, hch⟩ := changeBalance_fits (depositRef "deal_topup.partial_credit" j dep) ha0 hl0
        (ctx_nonneg _ hsum) hl0 (ctx_fits hprec hsum) (Numeric.fits _) ha (store_val _)
      obtain ⟨bal, -, -, hm⟩ := changeBalance_ok (depositRef_ne (by decide) _ _) hch
      have hb₁ : (db₁.setDeposit j (dep.settle now (some v))).users.row d.buyer_id = some buyer := by
        rw [← hb, ← hm.users]
        rfl
      obtain ⟨db', h⟩ := (issueRemainingTopupInvoice_isOk_iff _ k now reply hb₁).2
        ⟨_, _, total, hdue, htotal, fun hpos =>
          (issuable_written_iff (db₁.setDeposit j (dep.settle now (some v))) hm
          (changeBalance_settings hch) hj rfl ⟨rfl, rfl, rfl⟩).2 (hissue hpos)⟩
      refine ⟨db', _, hdue, v, hv, ?_⟩
      rw [if_pos hlt, bind_ok]
      exact ⟨db₁, hch, h⟩
    rw [if_neg hlt] at ho htotal
    obtain ⟨credit, hq, ho⟩ := bind_ok.1 ho
    obtain ⟨credit', hq', htotal⟩ := bind_ok.1 htotal
    cases hq.symm.trans hq'
    have hcredit : 0 ≤ credit := quantizeMoney_nonneg (ctx_nonneg _ (sub_nonneg.2 (not_lt.1 hlt))) hq
    have hsum : 0 ≤ (db.balance d.buyer_id d.currency_id).amount.val + credit := add_nonneg ha0 hcredit
    by_cases hshort : plus (db.balance d.buyer_id d.currency_id).amount.val credit < d.amount.val
    · rw [if_pos hshort] at ho htotal
      obtain ⟨a, ha, -⟩ := bind_ok.1 ho
      obtain ⟨db₁, hch⟩ := changeBalance_fits (depositRef "deal_topup.partial_credit" j dep) ha0 hl0
        (ctx_nonneg _ hsum) hl0 (ctx_fits hprec hsum) (Numeric.fits _) ha (store_val _)
      obtain ⟨bal, -, -, hm⟩ := changeBalance_ok (depositRef_ne (by decide) _ _) hch
      have hb₁ : ((db₁.setDeal k (d.collected due)).setDeposit j (dep.settle now (some v))).users.row
          (d.collected due).buyer_id = some buyer := by
        rw [← hm.users] at hb
        exact hb
      obtain ⟨db', h⟩ := (issueRemainingTopupInvoice_isOk_iff _ k now reply hb₁).2
        ⟨_, _, total, topupDue_collected hdue0 hdue, htotal, fun hpos =>
          (issuable_written_iff ((db₁.setDeal k (d.collected due)).setDeposit j (dep.settle now (some v))) hm
          (changeBalance_settings hch) hj rfl ⟨rfl, rfl, rfl⟩).2 (hissue hpos)⟩
      refine ⟨db', _, hdue, v, hv, ?_⟩
      rw [if_neg hlt, bind_ok]
      refine ⟨credit, hq, ?_⟩
      rw [if_pos hshort, bind_ok]
      exact ⟨db₁, hch, h⟩
    · rw [if_neg hshort] at ho
      obtain ⟨a, ha, ho⟩ := bind_ok.1 ho
      obtain ⟨l, hl, -⟩ := bind_ok.1 ho
      have hrest : 0 ≤ plus (db.balance d.buyer_id d.currency_id).amount.val credit - d.amount.val :=
        sub_nonneg.2 (not_lt.1 hshort)
      have hlocked : 0 ≤ (db.balance d.buyer_id d.currency_id).locked.val + d.amount.val := add_nonneg hl0 hd0
      obtain ⟨db₁, hch⟩ := changeBalance_fits (depositRef "deal_topup.activate" j dep) ha0 hl0
        (ctx_nonneg _ hrest) (ctx_nonneg _ hlocked) (ctx_fits hprec hrest) (ctx_fits hprec hlocked) ha hl
      refine ⟨(db₁.setDeal k { d with status := .pending_confirmation, commission_paid := true }).setDeposit j
        (dep.settle now (some v)), _, hdue, v, hv, ?_⟩
      rw [if_neg hlt, bind_ok]
      refine ⟨credit, hq, ?_⟩
      rw [if_neg hshort, bind_ok]
      exact ⟨db₁, hch, rfl⟩

/-- A pending deposit linked to a deal that waits for it, as the code makes them. -/
structure WaitingDeposit (db : Db) (j : ℕ) (dep : WalletDeposit) (k : ℕ) (d : Deal) (cur : Currency) : Prop where
  row : db.wallet_deposits.row j = some dep
  pending : dep.status = .pending
  purpose : dep.purpose = .deal_topup
  link : dep.linked_deal_id = some k
  deal : db.deals.row k = some d
  waiting : d.status = .pending_topup
  issued : Issued db dep cur
  buyer : ∃ u, db.users.row d.buyer_id = some u
  found : findWalletDeposit db dep.provider_invoice_id dep.provider = .ok (some j)
  amount_nonneg : 0 ≤ (db.balance d.buyer_id d.currency_id).amount.val
  locked_nonneg : 0 ≤ (db.balance d.buyer_id d.currency_id).locked.val
  price_nonneg : 0 ≤ d.amount.val

/-- A payment of `p` reached the buyer and the deal as `topupOutcome` says, and the deposit is paid. -/
def PaymentCredited (db db' : Db) (j : ℕ) (dep : WalletDeposit) (k : ℕ) (d : Deal) (cur : Currency) (p : ℚ) : Prop :=
  ∃ paid bal status commission_paid reported, quantizeMoney p cur.decimals = .ok paid ∧
    topupOutcome (db.balance d.buyer_id d.currency_id) d cur paid = .ok (bal, status, commission_paid) ∧
      db'.books = (db.books.setBalance d.buyer_id d.currency_id bal).setDeal k status commission_paid ∧
        PaidRow db' j dep dep.amount (some reported)

/-- The numbers of the payment fit the context and their columns. -/
def PaymentFits (db : Db) (dep : WalletDeposit) (d : Deal) (cur : Currency) (p : ℚ) : Prop :=
  (∃ nominal, quantizeMoney dep.amount.val cur.decimals = .ok nominal) ∧
    ∃ paid, quantizeMoney p cur.decimals = .ok paid ∧ (∃ v, store paid = .ok v) ∧
      (∃ o, topupOutcome (db.balance d.buyer_id d.currency_id) d cur paid = .ok o) ∧
        ∃ total, stillDue (db.balance d.buyer_id d.currency_id) d cur paid = .ok total

/-- If the payment leaves something to invoice, that invoice can be issued. -/
def NextIssuable (db : Db) (d : Deal) (cur : Currency) (p : ℚ) (reply : InvoiceReply) : Prop :=
  ∀ paid total, quantizeMoney p cur.decimals = .ok paid →
    stillDue (db.balance d.buyer_id d.currency_id) d cur paid = .ok total → 0 < total → Issuable db d cur total reply

theorem deliverPaid_credits {p : ℚ} (hj : db.wallet_deposits.row j = some dep) (hpending : dep.status = .pending)
    (hfound : findWalletDeposit db dep.provider_invoice_id dep.provider = .ok (some j))
    (hacc : amountAccepted dep (.number (.finite p)) = .ok true)
    (hc : creditDeposit db j (some (.finite p)) reply now = .ok db') :
    deliverPaid db dep.provider dep.provider_invoice_id p reply now = .ok (db', .credited) := by
  have hrep : creditReported db j dep (.number (.finite p)) reply now = .ok (db', .credited) := by
    simp only [creditReported, bind_ok]
    refine ⟨true, hacc, ?_⟩
    rw [if_neg (by decide), bind_ok]
    exact ⟨db', hc, rfl⟩
  unfold deliverPaid
  cases hprov : dep.provider with
  | cryptobot =>
    rw [hprov] at hfound
    simp only [handleInvoicePaid, paidState, ne_eq, not_true_eq_false, if_false, bind_ok]
    refine ⟨some j, hfound, ?_⟩
    simp only [bind_ok, orRaise_ok]
    refine ⟨dep, hj, ?_⟩
    rw [if_neg (by simp [hpending]), hrep]
  | crystalpay =>
    rw [hprov] at hfound
    simp only [handleCrystalpayInvoice, paidState_lower, if_true, bind_ok]
    refine ⟨some j, hfound, ?_⟩
    simp only [bind_ok, orRaise_ok]
    refine ⟨dep, hj, ?_⟩
    rw [if_neg (by simp [hpending]), if_neg (by simp [hpending]), hrep]

/-- The first paid delivery credits the payment exactly when its numbers fit and
the next invoice, if one is needed, can be issued. -/
theorem payment_credited_iff {p : ℚ} (h : WaitingDeposit db j dep k d cur) (hp : 0 < p) :
    (∃ db', deliverPaid db dep.provider dep.provider_invoice_id p reply now = .ok (db', .credited) ∧
      PaymentCredited db db' j dep k d cur p) ↔ PaymentFits db dep d cur p ∧ NextIssuable db d cur p reply := by
  obtain ⟨hbuyer, hcurrency, com, ht⟩ := h.issued.deal k d h.link h.deal
  obtain ⟨buyer, hu⟩ := h.buyer
  have hunpaid : dep.status ≠ .paid := by simp [h.pending]
  have hcur : db.currencies.row dep.currency_id = some cur := h.issued.currency
  have hacc : amountAccepted dep (.number (.finite p)) = .ok true := by rw [amountAccepted, if_pos h.purpose]; rfl
  have hsettle {paid : ℚ} (hq : quantizeMoney p cur.decimals = .ok paid) :=
    settleTopup_isOk_iff now reply h.deal h.row ht hu h.amount_nonneg h.locked_nonneg h.price_nonneg
      (quantizeMoney_nonneg hp.le hq)
  constructor
  · rintro ⟨db', hdel, -⟩
    have hd := deliverPaid_ok h.row hdel
    generalize hx : (db', Handled.credited) = x at hd
    cases hd with
    | already _ => cases hx
    | closed _ _ => cases hx
    | mismatch _ _ _ => cases hx
    | credited _ _ _ hc =>
      cases hx
      simp only [creditDeposit, bind_ok, orRaise_ok] at hc
      obtain ⟨dep', hj', hc⟩ := hc
      cases h.row.symm.trans hj'
      rw [if_neg hunpaid, bind_ok, hcur] at hc
      obtain ⟨nominal, hn, hc⟩ := hc
      rw [bind_ok] at hc
      obtain ⟨_, -, hc⟩ := hc
      rw [if_pos h.purpose] at hc
      simp only [completeDealTopupPayment, bind_ok, orRaise_ok] at hc
      obtain ⟨dep', hj', hc⟩ := hc
      cases h.row.symm.trans hj'
      rw [if_neg hunpaid] at hc
      simp only [h.link, h.deal, bind_ok, orRaise_ok] at hc
      obtain ⟨cur', hcur', paid, hq, hc⟩ := hc
      cases ht.currency.symm.trans hcur'
      rw [if_pos h.waiting] at hc
      obtain ⟨hv, ho, total, htotal, hissue⟩ := (hsettle hq).1 ⟨_, hc⟩
      refine ⟨⟨⟨nominal, hn⟩, paid, hq, hv, ho, total, htotal⟩, ?_⟩
      intro paid' total' hq' htotal' hpos
      cases hq.symm.trans hq'
      cases htotal.symm.trans htotal'
      exact hissue hpos
  · rintro ⟨⟨⟨nominal, hn⟩, paid, hq, hv, ho, total, htotal⟩, hissue⟩
    obtain ⟨db', hs⟩ := (hsettle hq).2 ⟨hv, ho, total, htotal, hissue paid total hq htotal⟩
    obtain ⟨bal, st, cp, rep, ho', -, hb, hd⟩ := settleTopup_outcome h.deal h.row hs
    refine ⟨db', deliverPaid_credits h.row h.pending h.found hacc ?_, paid, bal, st, cp, rep, hq, ho', hb, hd⟩
    simp only [creditDeposit, bind_ok, orRaise_ok]
    refine ⟨dep, h.row, ?_⟩
    rw [if_neg hunpaid, bind_ok, hcur]
    refine ⟨nominal, hn, ?_⟩
    simp only [quantizeReported, bind_ok]
    refine ⟨some paid, ⟨paid, hq, rfl⟩, ?_⟩
    rw [if_pos h.purpose]
    simp only [completeDealTopupPayment, bind_ok, orRaise_ok]
    refine ⟨dep, h.row, ?_⟩
    rw [if_neg hunpaid]
    simp only [h.link, h.deal, bind_ok, orRaise_ok]
    refine ⟨cur, ht.currency, paid, hq, ?_⟩
    rw [if_pos h.waiting, hs]

end

theorem sampleWaitingDeposit_waiting :
    WaitingDeposit sampleWaitingDb 1 sampleWaitingDeposit 1 sampleWaitingDeal (sampleCurrency 2) where
  row := sampleWaitingDeposit_row
  pending := rfl
  purpose := rfl
  link := rfl
  deal := sampleWaitingDb_row
  waiting := rfl
  issued := sampleWaitingDeposit_issued
  buyer := ⟨sampleUser false, by decide +kernel⟩
  found := by decide +kernel
  amount_nonneg := by decide +kernel
  locked_nonneg := by decide +kernel
  price_nonneg := by decide +kernel

/-- A payment in full needs no further invoice, so the provider's answer does not matter. -/
theorem sampleFullPayment_credited : ∃ db', deliverPaid sampleWaitingDb .cryptobot "IV1" (21 / 2) (.error "down") 0 =
    .ok (db', .credited) ∧
      PaymentCredited sampleWaitingDb db' 1 sampleWaitingDeposit 1 sampleWaitingDeal (sampleCurrency 2) (21 / 2) := by
  have hq : quantizeMoney (21 / 2) (sampleCurrency 2).decimals = .ok (21 / 2) := by decide +kernel
  have htotal : stillDue (sampleWaitingDb.balance 1 1) sampleWaitingDeal (sampleCurrency 2) (21 / 2) = .ok 0 := by
    decide +kernel
  have ho : ∃ o, topupOutcome (sampleWaitingDb.balance 1 1) sampleWaitingDeal (sampleCurrency 2) (21 / 2) = .ok o ∧ True :=
    exists_ok (by decide +kernel)
  obtain ⟨o, ho, -⟩ := ho
  refine (payment_credited_iff sampleWaitingDeposit_waiting (by norm_num)).2 ⟨?_, ?_⟩
  · exact ⟨⟨21 / 2, by decide +kernel⟩, 21 / 2, hq, ⟨⟨1050000000, by decide⟩, by decide +kernel⟩, ⟨o, ho⟩, 0, htotal⟩
  · intro paid total hpaid ht hpos
    cases hq.symm.trans hpaid
    cases htotal.symm.trans ht
    exact absurd hpos (lt_irrefl 0)

/-- The currency is deactivated while the deal waits. -/
def sampleInactiveDb : Db :=
  { sampleWaitingDb with currencies := Table.empty.insert { sampleCurrency 2 with is_active := false } }

/-- Then a payment of 5.00 is refused although the provider would issue the next invoice. -/
theorem inactive_currency_blocks_payment :
    WaitingDeposit sampleInactiveDb 1 sampleWaitingDeposit 1 sampleWaitingDeal
        { sampleCurrency 2 with is_active := false } ∧
      ¬∃ x, deliverPaid sampleInactiveDb .cryptobot "IV1" 5 (.invoice "IV2" "https://pay") 0 = .ok x := by
  constructor
  · have hw := sampleWaitingDeposit_waiting
    refine ⟨hw.row, rfl, rfl, rfl, hw.deal, rfl, ⟨by decide +kernel, by decide +kernel, ?_⟩, hw.buyer, hw.found,
      hw.amount_nonneg, hw.locked_nonneg, hw.price_nonneg⟩
    intro k d hl hr
    cases hl
    cases hr.symm.trans sampleWaitingDb_row
    exact ⟨rfl, rfl, ⟨50000000, by decide⟩, by decide +kernel, by decide +kernel, rfl, by decide +kernel,
      by decide +kernel⟩
  · rintro ⟨x, hx⟩
    have hnone :
        (deliverPaid sampleInactiveDb .cryptobot "IV1" 5 (.invoice "IV2" "https://pay") 0).toOption.isNone = true := by
      decide +kernel
    rw [hx] at hnone
    cases hnone

end Garant
