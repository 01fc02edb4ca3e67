import Garant.Crediting
import Garant.Settlement
/-!
# Paid events

A provider may report any amount with a paid event. `paid_event_iff` says for
which amounts, deposits and deals the handler answers at all and takes nothing
from anybody: `Answers` rules out arithmetic exceptions operation by operation,
`NoLess` compares the funds before and after.
-/
open Decimal

namespace Garant

/-! ## No arithmetic exception -/

/-- The computation does not end in `decimal.InvalidOperation`. -/
abbrev Answers {α : Type} (x : Result α) : Prop := Avoids .invalid_operation x

theorem store_answers (q : ℚ) : Answers (store q) := store_avoids (by nofun) q

theorem storeOpt_answers (q : Option ℚ) : Answers (storeOpt q) := by
  cases q with
  | none => exact .pure _
  | some q => exact (store_answers q).bind fun _ _ => .pure _

section
variable {db db' : Db} {j k u c : ℕ} {d : Deal} {dep : WalletDeposit} {cur : Currency} {x y paid : ℚ} {reply : InvoiceReply}
  {now : Time} {ref : LedgerRef}

theorem Quantises.answers {n : ℕ} (h : Quantises n x) : Answers (quantizeMoney x n) := .of_ok h.ok

theorem changeBalance_answers : Answers (changeBalance db u c x y ref) := changeBalance_avoids (by nofun)

theorem creditBalance_answers : Answers (creditBalance db j dep x) := by
  unfold creditBalance
  split
  · refine (Avoids.orRaise (by nofun)).bind fun user _ => (store_answers _).bind fun _ _ => ?_
    unfold recordSyntheticLedger
    split
    · exact .pure _
    · exact (store_answers _).bind fun _ _ => (store_answers _).bind fun _ _ => (store_answers _).bind fun _ _ => .pure _
  · exact changeBalance_answers

/-! ## Issuing the rest -/

/-- The invoice for what a balance of `x` leaves open can be computed. -/
def RemainingFits (db : Db) (d : Deal) (cur : Currency) (x : ℚ) : Prop :=
  ∀ amt due, topupDue d cur = .ok (amt, due) →
    let gap := plus (max 0 (minus amt x)) due
    Quantises cur.decimals gap ∧ (0 < roundTo cur.decimals gap →
      ∀ c cur', getCurrencyByCode db cur.code = .ok (c, cur') → Quantises cur'.decimals (roundTo cur.decimals gap))

theorem getCurrencyByCode_congr (h : db'.currencies = db.currencies) (code : String) :
    getCurrencyByCode db' code = getCurrencyByCode db code := by
  unfold getCurrencyByCode
  rw [h]

theorem RemainingFits.congr (h : RemainingFits db d cur x) (hc : db'.currencies = db.currencies) :
    RemainingFits db' d cur x := by
  intro amt due hdue
  obtain ⟨htotal, hpos⟩ := h amt due hdue
  refine ⟨htotal, ?_⟩
  intro hlt c cur' hcur
  rw [getCurrencyByCode_congr hc] at hcur
  exact hpos hlt c cur' hcur

theorem issueRemainingTopupInvoice_answers (hdue : Answers (topupDue d cur)) (h : RemainingFits db d cur x) :
    Answers (issueRemainingTopupInvoice db k d cur x reply now) := by
  refine (Avoids.orRaise (by nofun)).bind fun _ _ => hdue.bind ?_
  rintro ⟨amt, due⟩ hdue
  obtain ⟨htotal, hpos⟩ := h amt due hdue
  refine htotal.answers.bind ?_
  intro total htotal
  obtain ⟨-, rfl⟩ := quantizeMoney_ok_iff.1 htotal
  split
  · exact .pure _
  · refine (createDepositInvoice_avoids (show Foreign .invalid_operation from trivial) fun c cur' hc =>
      (hpos (not_le.1 ‹_›) c cur' hc).answers).bind ?_
    rintro ⟨j, db₁⟩ -
    exact .pure _

theorem issueRemainingTopupInvoice_fits (h : issueRemainingTopupInvoice db k d cur x reply now = .ok db') :
    RemainingFits db d cur x := by
  intro amt due hdue
  simp only [issueRemainingTopupInvoice, bind_ok] at h
  obtain ⟨_, -, ⟨amt', due'⟩, hdue', total, htotal, h⟩ := h
  cases hdue.symm.trans hdue'
  obtain ⟨hfits, rfl⟩ := quantizeMoney_ok_iff.1 htotal
  refine ⟨hfits, ?_⟩
  intro hpos c cur' hcur
  rw [if_neg (not_le.2 hpos)] at h
  obtain ⟨⟨j, db₁⟩, hi, -⟩ := bind_ok.1 h
  simp only [createDepositInvoice, bind_ok] at hi
  obtain ⟨⟨c₁, cur₁⟩, hcur₁, y, hy, -⟩ := hi
  cases hcur.symm.trans hcur₁
  exact quantises_of_ok hy

/-! ## Payments for a deal -/

/-- Every number a payment for a waiting deal needs can be computed. -/
def TopupFits (db : Db) (d : Deal) (cur : Currency) (paid : ℚ) : Prop :=
  ∃ amt due, topupDue d cur = .ok (amt, due) ∧
    (paid < due → RemainingFits db d cur (plus (db.balance d.buyer_id d.currency_id).amount.val paid)) ∧
    (due ≤ paid →
      let new_balance := plus (db.balance d.buyer_id d.currency_id).amount.val (roundTo cur.decimals (minus paid due))
      Quantises cur.decimals (minus paid due) ∧ (new_balance < amt →
        RemainingFits db { d with commission_paid := d.commission_paid || decide (0 < due) } cur new_balance))

/-- Marking the commission as collected does not change whether the sums due can be computed. -/
theorem topupDue_answers {b : Bool} (h : Answers (topupDue d cur)) :
    Answers (topupDue { d with commission_paid := b } cur) := by
  intro he
  refine h ?_
  simp only [topupDue] at he ⊢
  cases ha : quantizeMoney d.amount.val cur.decimals with
  | error e =>
    rw [ha] at he
    exact congrArg _ (Except.error.inj he)
  | ok amt =>
    rw [ha] at he
    cases hc : quantizeMoney (d.commission_amount.elim 0 (·.val)) cur.decimals with
    | error e =>
      simp only [hc] at he
      exact congrArg _ (Except.error.inj he)
    | ok com =>
      simp only [hc] at he
      cases he

theorem settleTopup_answers (h : TopupFits db d cur paid) : Answers (settleTopup db j dep k d cur paid reply now) := by
  obtain ⟨amt, due, hdue, hshort, hrest⟩ := h
  refine (Avoids.of_ok hdue).bind ?_
  rintro ⟨amt', due'⟩ hdue'
  cases hdue.symm.trans hdue'
  refine (store_answers paid).bind fun rep _ => ?_
  split
  · rename_i hlt
    refine changeBalance_answers.bind fun db₁ hch => ?_
    obtain ⟨bal, -, -, hm⟩ := changeBalance_ok (depositRef_ne (by decide) _ _) hch
    exact issueRemainingTopupInvoice_answers (.of_ok hdue) ((hshort hlt).congr hm.currencies)
  · rename_i hle
    obtain ⟨hcredit, hpartly⟩ := hrest (not_lt.1 hle)
    refine hcredit.answers.bind ?_
    intro credit hcredit
    obtain ⟨-, rfl⟩ := quantizeMoney_ok_iff.1 hcredit
    dsimp only
    split
    · rename_i hlt
      refine changeBalance_answers.bind fun db₁ hch => ?_
      obtain ⟨bal, -, -, hm⟩ := changeBalance_ok (depositRef_ne (by decide) _ _) hch
      exact issueRemainingTopupInvoice_answers (topupDue_answers (.of_ok hdue)) ((hpartly hlt).congr hm.currencies)
    · exact changeBalance_answers.bind fun _ _ => .pure _

theorem settleTopup_fits (h : settleTopup db j dep k d cur paid reply now = .ok db') : TopupFits db d cur paid := by
  obtain ⟨amt, due, rep, bal, db₁, hdue, -, hm, h⟩ := settleTopup_ok h
  refine ⟨amt, due, hdue, ?_⟩
  cases h with
  | short hlt _ _ hi =>
    refine ⟨fun _ => (issueRemainingTopupInvoice_fits hi).congr hm.currencies.symm, ?_⟩
    intro hle
    exact absurd hlt (not_lt.2 hle)
  | partly hle hq _ _ _ hd hi =>
    obtain ⟨hfits, rfl⟩ := quantizeMoney_ok_iff.1 hq
    refine ⟨fun hlt => absurd hlt (not_lt.2 hle), fun _ => ⟨hfits, ?_⟩⟩
    intro _
    rw [hd] at hi
    exact (issueRemainingTopupInvoice_fits hi).congr hm.currencies.symm
  | activated hle hq hge _ _ =>
    obtain ⟨hfits, rfl⟩ := quantizeMoney_ok_iff.1 hq
    refine ⟨fun hlt => absurd hlt (not_lt.2 hle), fun _ => ⟨hfits, ?_⟩⟩
    intro hlt
    exact absurd hlt (not_lt.2 hge)

/-- Every number a payment for a deal needs can be computed. -/
def LinkedFits (db : Db) (dep : WalletDeposit) (paid_amount : Option ℚ) : Prop :=
  ∀ k d cur, dep.linked_deal_id = some k → db.deals.row k = some d → db.currencies.row d.currency_id = some cur →
    let paid := paid_amount.getD dep.amount.val
    Quantises cur.decimals paid ∧ (d.status = .pending_topup → TopupFits db d cur (roundTo cur.decimals paid))

theorem completeDealTopupPayment_answers {p : Option ℚ} (hj : db.wallet_deposits.row j = some dep)
    (h : LinkedFits db dep p) : Answers (completeDealTopupPayment db j p reply now) := by
  have halone : Answers (settleUnattached db j dep p now) := (storeOpt_answers p).bind fun _ _ => .pure _
  refine (Avoids.orRaise (by nofun)).bind ?_
  intro dep' hdep'
  cases hj.symm.trans (orRaise_ok.1 hdep')
  split
  · exact .pure _
  cases hl : dep.linked_deal_id with
  | none => exact halone
  | some k =>
    cases hr : db.deals.row k with
    | none => simpa only [hr] using halone
    | some d =>
      simp only [hr]
      refine (Avoids.orRaise (by nofun)).bind ?_
      intro cur hcur
      obtain ⟨hpaid, htopup⟩ := h k d cur hl hr (orRaise_ok.1 hcur)
      refine hpaid.answers.bind ?_
      intro paid hpaid
      obtain ⟨-, rfl⟩ := quantizeMoney_ok_iff.1 hpaid
      split
      · exact settleTopup_answers (htopup ‹_›)
      · exact changeBalance_answers.bind fun _ _ => (store_answers _).bind fun _ _ => .pure _

theorem completeDealTopupPayment_fits {p : Option ℚ} (hj : db.wallet_deposits.row j = some dep)
    (hunpaid : dep.status ≠ .paid) (h : completeDealTopupPayment db j p reply now = .ok db') : LinkedFits db dep p := by
  intro k d cur hl hr hcur
  simp only [completeDealTopupPayment, bind_ok, orRaise_ok] at h
  obtain ⟨dep', hj', h⟩ := h
  cases hj.symm.trans hj'
  simp only [if_neg hunpaid, hl, hr, bind_ok, orRaise_ok] at h
  obtain ⟨cur', hcur', paid, hpaid, h⟩ := h
  cases hcur.symm.trans hcur'
  obtain ⟨hfits, rfl⟩ := quantizeMoney_ok_iff.1 hpaid
  refine ⟨hfits, ?_⟩
  intro hs
  rw [if_pos hs] at h
  exact settleTopup_fits h

/-! ## Any credit -/

/-- Every number `credit_deposit` needs can be computed. -/
def CreditFits (db : Db) (dep : WalletDeposit) (paid_amount : Option Number) : Prop :=
  Quantises ((db.currencies.row dep.currency_id).elim 8 (·.decimals)) dep.amount.val ∧
    (∀ n ∈ paid_amount, ∃ q, n = .finite q ∧ Quantises ((db.currencies.row dep.currency_id).elim 8 (·.decimals)) q) ∧
    (dep.purpose = .deal_topup → LinkedFits db dep (paid_amount.bind (·.toRat?)))

theorem quantizeReported_answers {n : ℕ} {p : Option Number} (h : ∀ r ∈ p, ∃ q, r = .finite q ∧ Quantises n q) :
    Answers (quantizeReported n p) := by
  cases p with
  | none => exact .pure _
  | some r =>
    obtain ⟨q, rfl, hq⟩ := h r rfl
    exact hq.answers.bind fun _ _ => .pure _

theorem quantizeReported_fits {n : ℕ} {p : Option Number} {r : Option ℚ} (h : quantizeReported n p = .ok r) :
    ∀ m ∈ p, ∃ q, m = .finite q ∧ Quantises n q := by
  rintro m rfl
  cases m with
  | finite q =>
    obtain ⟨y, hy, -⟩ := bind_ok.1 h
    exact ⟨q, rfl, quantises_of_ok hy⟩
  | nan => cases h
  | infinity negative => cases h

theorem creditDeposit_answers {p : Option Number} (hj : db.wallet_deposits.row j = some dep) (h : CreditFits db dep p) :
    Answers (creditDeposit db j p reply now) := by
  obtain ⟨hnominal, hreported, hpayment⟩ := h
  refine (Avoids.orRaise (by nofun)).bind ?_
  intro dep' hdep'
  cases hj.symm.trans (orRaise_ok.1 hdep')
  split
  · exact .pure _
  refine hnominal.answers.bind fun nominal _ => (quantizeReported_answers hreported).bind fun reported _ => ?_
  split
  · exact completeDealTopupPayment_answers hj (hpayment ‹_›)
  · exact creditBalance_answers.bind fun _ _ => (store_answers _).bind fun _ _ => (storeOpt_answers _).bind fun _ _ => .pure _

theorem creditDeposit_fits {p : Option Number} (hj : db.wallet_deposits.row j = some dep) (hunpaid : dep.status ≠ .paid)
    (h : creditDeposit db j p reply now = .ok db') : CreditFits db dep p := by
  simp only [creditDeposit, bind_ok, orRaise_ok] at h
  obtain ⟨dep', hj', h⟩ := h
  cases hj.symm.trans hj'
  rw [if_neg hunpaid] at h
  simp only [bind_ok] at h
  obtain ⟨nominal, hnominal, reported, hreported, h⟩ := h
  refine ⟨quantises_of_ok hnominal, quantizeReported_fits hreported, ?_⟩
  intro htop
  rw [if_pos htop] at h
  exact completeDealTopupPayment_fits hj hunpaid h

/-! ## Nothing is taken -/

/-- Nobody has less than before, and no funds are negative. -/
structure Unharmed (a b : Books) : Prop where
  funds : ∀ u c, (a.balances u c).amount.val + (a.balances u c).locked.val ≤
    (b.balances u c).amount.val + (b.balances u c).locked.val
  nonneg : ∀ u c, 0 ≤ (b.balances u c).amount.val ∧ 0 ≤ (b.balances u c).locked.val
  trust : ∀ u t, a.trust u = some t → ∃ t', b.trust u = some t' ∧ t.val ≤ t'.val

/-- What holds of stored amounts before an event. The trust balance "has no
spend / withdraw path", so it is not negative either. -/
structure Sound (db : Db) : Prop where
  funds : NonNegative db
  trust : ∀ u user, db.users.row u = some user → 0 ≤ user.trust_deposit_balance.val
  deposits : ∀ j dep, db.wallet_deposits.row j = some dep → 0 ≤ dep.amount.val
  deals : ∀ k d, db.deals.row k = some d → 0 ≤ d.amount.val

/-- With `paid` added and rounded to the money column, the amount is lower. -/
def Lowers (amount : Money) (paid : ℚ) : Prop := roundHalfAway (plus amount.val paid * 10 ^ 8) < amount.units

theorem val_le_val {a b : Money} : a.val ≤ b.val ↔ a.units ≤ b.units := by
  rw [Numeric.val, Numeric.val, div_le_div_iff_of_pos_right (by positivity)]
  exact_mod_cast Iff.rfl

theorem lowers_iff {a v : Money} (h : store (plus a.val x) = .ok v) : Lowers a x ↔ v.val < a.val := by
  rw [← not_le, val_le_val, not_le, Numeric.ofRat_eq_some (orRaise_ok.1 h), Lowers]

theorem not_lowers_of_nonneg {a : Money} (ha : 0 ≤ a.val) (hx : 0 ≤ x) : ¬Lowers a x := by
  have hunits : (a.units : ℚ) = a.val * 10 ^ 8 := by
    rw [Numeric.val, div_mul_cancel₀ _ (by positivity)]
  have h0 : 0 ≤ a.units := by
    have h0 : (0 : ℚ) ≤ a.units := by
      rw [hunits]
      positivity
    exact_mod_cast h0
  refine not_lt.2 (le_roundHalfAway_of_le h0 ?_)
  rw [hunits]
  exact mul_le_mul_of_nonneg_right (le_plus ha hx) (by positivity)

theorem Unharmed.refl (h : NonNegative db) : Unharmed db.books db.books :=
  ⟨fun _ _ => le_rfl, h, fun _ t ht => ⟨t, ht, le_rfl⟩⟩

/-- One balance was written. -/
theorem unharmed_setBalance_iff {bal : UserBalance} (h : NonNegative db) :
    Unharmed db.books (db.books.setBalance u c bal) ↔
      (db.balance u c).amount.val + (db.balance u c).locked.val ≤ bal.amount.val + bal.locked.val ∧
        0 ≤ bal.amount.val ∧ 0 ≤ bal.locked.val := by
  constructor
  · intro hu
    have hfunds := hu.funds u c
    have hnonneg := hu.nonneg u c
    simp only [Books.setBalance, and_self, if_true] at hfunds hnonneg
    exact ⟨hfunds, hnonneg⟩
  · rintro ⟨hfunds, hnonneg⟩
    refine ⟨?_, ?_, fun _ t ht => ⟨t, ht, le_rfl⟩⟩
    · intro v e
      simp only [Books.setBalance]
      split
      · rename_i hv
        obtain ⟨rfl, rfl⟩ := hv
        exact hfunds
      · exact le_rfl
    · intro v e
      simp only [Books.setBalance]
      split
      · exact hnonneg
      · exact h v e

/-- Only the spendable amount was written. -/
theorem unharmed_credit_iff {amount : Money} (h : NonNegative db)
    (ha : store (plus (db.balance u c).amount.val x) = .ok amount) :
    Unharmed db.books (db.books.setBalance u c ⟨amount, (db.balance u c).locked⟩) ↔ ¬Lowers (db.balance u c).amount x := by
  rw [unharmed_setBalance_iff h, lowers_iff ha, not_lt]
  obtain ⟨ha0, hl0⟩ := h u c
  constructor
  · rintro ⟨hfunds, -⟩
    exact le_of_add_le_add_right hfunds
  · intro hle
    exact ⟨add_le_add_left hle _, ha0.trans hle, hl0⟩

/-- A payment below the commission due is credited as it is. -/
def BelowCommission (d : Deal) (cur : Currency) (paid : ℚ) : Prop := ∃ amt due, topupDue d cur = .ok (amt, due) ∧ paid < due

theorem setDeal_unharmed_iff {a b : Books} {st : DealStatus} {cp : Bool} : Unharmed a (b.setDeal k st cp) ↔ Unharmed a b :=
  ⟨fun h => ⟨h.funds, h.nonneg, h.trust⟩, fun h => ⟨h.funds, h.nonneg, h.trust⟩⟩

/-- What a payment activates with was there or is paid: only the rest of it is added. -/
theorem activation_unharmed {bal bal' : UserBalance} {amt credit : ℚ} (h : NonNegative db) (hbal : db.balance u c = bal)
    (hamt : IsGrid 8 amt) (h0 : 0 ≤ amt) (hcredit : 0 ≤ credit) (hge : amt ≤ plus bal.amount.val credit)
    (ha : store (minus (plus bal.amount.val credit) amt) = .ok bal'.amount)
    (hl : store (plus bal.locked.val amt) = .ok bal'.locked) :
    Unharmed db.books (db.books.setBalance u c bal') := by
  obtain ⟨ha0, hl0⟩ := h u c
  rw [hbal] at ha0 hl0
  have hlocked : bal'.locked.val = bal.locked.val + amt := store_plus bal.locked.isGrid hamt hl
  have hamount : 0 ≤ bal'.amount.val := store_nonneg (ctx_nonneg _ (sub_nonneg.2 hge)) ha
  have hrest : bal.amount.val - amt ≤ bal'.amount.val := by
    rcases le_total (bal.amount.val - amt) 0 with hneg | hpos
    · exact hneg.trans hamount
    · have hgrid : IsGrid 8 (bal.amount.val - amt) := bal.amount.isGrid.sub hamt
      refine le_store hgrid hpos ?_ ha
      refine le_ctx_of_le (by norm_num [prec]) (fits_of_le hgrid hpos (sub_le_self _ h0)) hpos ?_
      exact sub_le_sub_right (le_plus ha0 hcredit) amt
  rw [unharmed_setBalance_iff h, hbal]
  refine ⟨by linarith, hamount, ?_⟩
  rw [hlocked]
  exact add_nonneg hl0 h0

/-- A payment for a waiting deal takes nothing, unless it is below the commission and too negative. -/
theorem topupOutcome_unharmed_iff {bal' : UserBalance} {st st' : DealStatus} {cp cp' : Bool} (hs : NonNegative db)
    (h0 : 0 ≤ d.amount.val)
    (h : topupOutcome (db.balance d.buyer_id d.currency_id) d cur paid = .ok (bal', st, cp)) :
    Unharmed db.books ((db.books.setBalance d.buyer_id d.currency_id bal').setDeal k st' cp') ↔
      ¬(BelowCommission d cur paid ∧ Lowers (db.balance d.buyer_id d.currency_id).amount paid) := by
  obtain ⟨⟨amt, due⟩, hdue, h⟩ := bind_ok.1 h
  have hamt : IsGrid 8 amt ∧ 0 ≤ amt := by
    simp only [topupDue, bind_ok, pure_ok, Prod.mk.injEq] at hdue
    obtain ⟨amt', hq, _, -, rfl, -⟩ := hdue
    obtain ⟨-, rfl⟩ := quantizeMoney_ok_iff.1 hq
    exact ⟨roundTo_money_grid _ _, quantizeMoney_nonneg h0 hq⟩
  have hbelow : BelowCommission d cur paid ↔ paid < due := by
    constructor
    · rintro ⟨amt', due', hdue', hlt⟩
      cases hdue.symm.trans hdue'
      exact hlt
    · exact fun hlt => ⟨amt, due, hdue, hlt⟩
  rw [setDeal_unharmed_iff, hbelow]
  dsimp only at h
  split at h
  · rename_i hlt
    obtain ⟨amount, ha, h⟩ := bind_ok.1 h
    cases pure_ok.1 h
    rw [unharmed_credit_iff hs ha, and_iff_right hlt]
  rename_i hle
  refine iff_of_true ?_ fun hn => hle hn.1
  obtain ⟨credit, hq, h⟩ := bind_ok.1 h
  have hcredit : 0 ≤ credit := quantizeMoney_nonneg (ctx_nonneg _ (sub_nonneg.2 (not_lt.1 hle))) hq
  split at h
  · obtain ⟨amount, ha, h⟩ := bind_ok.1 h
    cases pure_ok.1 h
    exact (unharmed_credit_iff hs ha).2 (not_lowers_of_nonneg (hs _ _).1 hcredit)
  · rename_i hge
    obtain ⟨amount, ha, h⟩ := bind_ok.1 h
    obtain ⟨locked, hl, h⟩ := bind_ok.1 h
    cases pure_ok.1 h
    exact activation_unharmed hs rfl hamt.1 hamt.2 hcredit (not_lt.1 hge) ha hl

/-- The payment goes to the buyer's balance as it is, because the deal no longer
waits or it is below the commission, and is too negative. -/
def LowersBuyer (db : Db) (dep : WalletDeposit) (paid_amount : Option ℚ) : Prop :=
  ∃ k d cur, dep.linked_deal_id = some k ∧ db.deals.row k = some d ∧ db.currencies.row d.currency_id = some cur ∧
    let paid := roundTo cur.decimals (paid_amount.getD dep.amount.val)
    (d.status = .pending_topup → BelowCommission d cur paid) ∧ Lowers (db.balance d.buyer_id d.currency_id).amount paid

theorem topupBooks_unharmed_iff {p : Option ℚ} {b : Books} {rep : Option Money} (hs : Sound db)
    (h : topupBooks db dep p = .ok (b, rep)) : Unharmed db.books b ↔ ¬LowersBuyer db dep p := by
  unfold topupBooks at h
  cases hl : dep.linked_deal_id with
  | none =>
    simp only [hl, Option.bind_none, bind_ok, pure_ok] at h
    obtain ⟨_, -, h⟩ := h
    cases h
    refine iff_of_true (Unharmed.refl hs.funds) ?_
    rintro ⟨k, d, cur, hk, -⟩
    cases hl.symm.trans hk
  | some k =>
    cases hr : db.deals.row k with
    | none =>
      simp only [hl, hr, Option.bind_some, Option.map_none, bind_ok, pure_ok] at h
      obtain ⟨_, -, h⟩ := h
      cases h
      refine iff_of_true (Unharmed.refl hs.funds) ?_
      rintro ⟨k', d, cur, hk, hr', -⟩
      cases hl.symm.trans hk
      cases hr.symm.trans hr'
    | some d =>
      simp only [hl, hr, Option.bind_some, Option.map_some, bind_ok, orRaise_ok] at h
      obtain ⟨cur, hcur, paid, hq, rep', -, h⟩ := h
      obtain ⟨-, rfl⟩ := quantizeMoney_ok_iff.1 hq
      have hlowers : LowersBuyer db dep p ↔
          (d.status = .pending_topup → BelowCommission d cur (roundTo cur.decimals (p.getD dep.amount.val))) ∧
            Lowers (db.balance d.buyer_id d.currency_id).amount (roundTo cur.decimals (p.getD dep.amount.val)) := by
        constructor
        · rintro ⟨k', d', cur', hk, hr', hcur', h⟩
          cases hl.symm.trans hk
          cases hr.symm.trans hr'
          cases hcur.symm.trans hcur'
          exact h
        · exact fun h => ⟨k, d, cur, hl, hr, hcur, h⟩
      rw [hlowers]
      split at h
      · rename_i hw
        obtain ⟨⟨bal, st, cp⟩, ho, h⟩ := bind_ok.1 h
        cases pure_ok.1 h
        rw [topupOutcome_unharmed_iff hs.funds (hs.deals k d hr) ho]
        simp only [hw, true_implies]
      · rename_i hlate
        obtain ⟨amount, ha, h⟩ := bind_ok.1 h
        cases pure_ok.1 h
        rw [unharmed_credit_iff hs.funds ha]
        simp only [hlate, false_implies, true_and]

/-- A trust or wallet credit takes nothing. -/
theorem balanceBooks_unharmed {b : Books} (hs : Sound db) (hx : 0 ≤ x) (h : balanceBooks db dep x = .ok b) :
    Unharmed db.books b := by
  unfold balanceBooks at h
  split at h
  · obtain ⟨user, hu, h⟩ := bind_ok.1 h
    obtain ⟨trust, ht, h⟩ := bind_ok.1 h
    cases pure_ok.1 h
    have hle : user.trust_deposit_balance.val ≤ trust.val := by
      have h0 := hs.trust _ _ (orRaise_ok.1 hu)
      exact le_store user.trust_deposit_balance.isGrid h0 (le_plus h0 hx) ht
    refine ⟨fun _ _ => le_rfl, hs.funds, ?_⟩
    intro v t hv
    simp only [Books.setTrust]
    split
    · rename_i hvu
      subst hvu
      simp only [Db.books, orRaise_ok.1 hu, Option.map_some, Option.some.injEq] at hv
      exact ⟨trust, rfl, by rw [← hv]; exact hle⟩
    · exact ⟨t, hv, le_rfl⟩
  · obtain ⟨amount, ha, h⟩ := bind_ok.1 h
    cases pure_ok.1 h
    exact (unharmed_credit_iff hs.funds ha).2 (not_lowers_of_nonneg (hs.funds _ _).1 hx)

theorem creditDeposit_unharmed_iff {p : Option Number} (hs : Sound db) (hj : db.wallet_deposits.row j = some dep)
    (hunpaid : dep.status ≠ .paid) (h : creditDeposit db j p reply now = .ok db') :
    Unharmed db.books db'.books ↔ ¬(dep.purpose = .deal_topup ∧ LowersBuyer db dep (p.bind (·.toRat?))) := by
  obtain ⟨b, amount, rep, ho, hbooks, -⟩ := creditDeposit_outcome hj hunpaid h
  rw [hbooks]
  simp only [creditOutcome, bind_ok] at ho
  obtain ⟨nominal, hn, reported, -, ho⟩ := ho
  split at ho
  · rename_i htop
    obtain ⟨⟨b', rep'⟩, hb, ho⟩ := bind_ok.1 ho
    cases pure_ok.1 ho
    rw [topupBooks_unharmed_iff hs hb, and_iff_right htop]
  · rename_i htop
    obtain ⟨b', hb, ho⟩ := bind_ok.1 ho
    obtain ⟨_, -, ho⟩ := bind_ok.1 ho
    obtain ⟨_, -, ho⟩ := bind_ok.1 ho
    cases pure_ok.1 ho
    have hnominal : 0 ≤ nominal := quantizeMoney_nonneg (hs.deposits j dep hj) hn
    exact iff_of_true (balanceBooks_unharmed hs (le_max_of_le_left hnominal) hb) fun hn => htop hn.1

/-! ## Paid events -/

/-- The paid handler of the provider. -/
def handlePaid (db : Db) (provider : WalletDepositProvider) (payload : InvoicePayload) (reply : InvoiceReply)
    (now : Time) : Result (Db × Handled) :=
  match provider with
  | .cryptobot => handleInvoicePaid db payload reply now
  | .crystalpay => handleCrystalpayInvoice db payload reply now

/-- The payload says that the invoice was paid. -/
def SaysPaid (payload : InvoicePayload) : WalletDepositProvider → Prop
  | .cryptobot => payload.status = "paid"
  | .crystalpay => payload.status.toLower = paidState .crystalpay

/-- Credited, or refused with a reason, and nobody has less. -/
def Answered (db : Db) (r : Result (Db × Handled)) : Prop :=
  ∃ db' handled, r = .ok (db', handled) ∧ (handled = .credited ∨ ∃ reason, handled = .refused reason) ∧
    Unharmed db.books db'.books

/-- The reported amount can be computed with, and takes nothing from the buyer of a deal. -/
def Acceptable (db : Db) (dep : WalletDeposit) (reported : Reported) : Prop :=
  if dep.purpose = .deal_topup then
    CreditFits db dep (parsePaidAmount reported) ∧ ¬LowersBuyer db dep ((parsePaidAmount reported).bind (·.toRat?))
  else reported ≠ .number .nan ∧ (amountsMatch reported dep.amount = .ok true → CreditFits db dep (parsePaidAmount reported))

theorem answered_refused (hs : Sound db) (reason : String) : Answered db (.ok (db, .refused reason)) :=
  ⟨db, _, rfl, .inr ⟨reason, rfl⟩, Unharmed.refl hs.funds⟩

theorem not_answered_error {e : Exc} : ¬Answered db (.error e) := by
  rintro ⟨_, _, h, -⟩
  cases h

/-- The credit, when it cannot fail but for its arithmetic. -/
theorem credited_answered_iff {p : Option Number} (hs : Sound db) (hj : db.wallet_deposits.row j = some dep)
    (hunpaid : dep.status ≠ .paid)
    (hfail : ∀ e, creditDeposit db j p reply now = .error e → e = .invalid_operation) :
    Answered db ((creditDeposit db j p reply now) >>= fun db' => pure (db', .credited)) ↔
      CreditFits db dep p ∧ ¬(dep.purpose = .deal_topup ∧ LowersBuyer db dep (p.bind (·.toRat?))) := by
  cases h : creditDeposit db j p reply now with
  | error e =>
    refine iff_of_false not_answered_error fun hn => ?_
    have hanswers : Answers (creditDeposit db j p reply now) := creditDeposit_answers hj hn.1
    rw [h, hfail e h] at hanswers
    exact hanswers rfl
  | ok db' =>
    rw [and_iff_right (creditDeposit_fits hj hunpaid h), ← creditDeposit_unharmed_iff hs hj hunpaid h]
    constructor
    · rintro ⟨db₁, handled, heq, -, hun⟩
      cases heq
      exact hun
    · exact fun hun => ⟨db', .credited, rfl, .inl rfl, hun⟩

theorem creditReported_answered_iff {reported : Reported} (hs : Sound db) (hj : db.wallet_deposits.row j = some dep)
    (hunpaid : dep.status ≠ .paid)
    (hfail : ∀ e, creditReported db j dep reported reply now = .error e → e = .invalid_operation) :
    Answered db (creditReported db j dep reported reply now) ↔ Acceptable db dep reported := by
  have hcredit (ha : amountAccepted dep reported = .ok true) : creditReported db j dep reported reply now =
      (creditDeposit db j (parsePaidAmount reported) reply now) >>= fun db' => pure (db', .credited) := by
    unfold creditReported
    rw [ha]
    rfl
  have hfail' (ha : amountAccepted dep reported = .ok true) (e : Exc)
      (he : creditDeposit db j (parsePaidAmount reported) reply now = .error e) : e = .invalid_operation := by
    refine hfail e ?_
    rw [hcredit ha, he]
    rfl
  by_cases htop : dep.purpose = .deal_topup
  · have ha : amountAccepted dep reported = .ok true := by
      rw [amountAccepted, if_pos htop]
      rfl
    rw [hcredit ha, credited_answered_iff hs hj hunpaid (hfail' ha), Acceptable, if_pos htop, and_iff_right htop]
  · have ha : amountAccepted dep reported = amountsMatch reported dep.amount := by
      rw [amountAccepted, if_neg htop]
    rw [Acceptable, if_neg htop]
    cases hm : amountsMatch reported dep.amount with
    | error e =>
      have hnan : reported = .number .nan := by
        unfold amountsMatch at hm
        split at hm <;> first | rfl | cases hm
      refine iff_of_false ?_ fun hn => hn.1 hnan
      unfold creditReported
      rw [ha, hm]
      exact not_answered_error
    | ok accepted =>
      have hnan : reported ≠ .number .nan := by
        rintro rfl
        cases hm
      rw [and_iff_right hnan]
      cases accepted with
      | false =>
        refine iff_of_true ?_ (by rintro ⟨⟩)
        unfold creditReported
        rw [ha, hm]
        exact answered_refused hs _
      | true =>
        rw [hcredit (ha.trans hm), credited_answered_iff hs hj hunpaid (hfail' (ha.trans hm))]
        simp only [htop, false_and, not_false_eq_true, and_true, true_implies]

theorem findWalletDeposit_answers (id : String) (provider : WalletDepositProvider) :
    Answers (findWalletDeposit db id provider) := by
  unfold findWalletDeposit
  split <;> nofun

theorem handlePaid_error {payload : InvoicePayload} {e : Exc} (hid : payload.invoice_id = some dep.provider_invoice_id)
    (hp : SaysPaid payload dep.provider) (hfind : findWalletDeposit db dep.provider_invoice_id dep.provider = .error e) :
    handlePaid db dep.provider payload reply now = .error e := by
  cases hprov : dep.provider with
  | cryptobot =>
    rw [hprov] at hp hfind
    simp only [handlePaid, handleInvoicePaid, show payload.status = "paid" from hp, ne_eq, not_true_eq_false, if_false, hid,
      hfind]
    rfl
  | crystalpay =>
    rw [hprov] at hfind
    simp only [handlePaid, handleCrystalpayInvoice, hid, hfind]
    rfl

/-- A paid payload finds its deposit: it is refused, or its amount decides. -/
theorem handlePaid_eq {payload : InvoicePayload} (hj : db.wallet_deposits.row j = some dep)
    (hid : payload.invoice_id = some dep.provider_invoice_id) (hp : SaysPaid payload dep.provider)
    (hopen : dep.status = .pending ∨ dep.status = .expired)
    (hfind : findWalletDeposit db dep.provider_invoice_id dep.provider = .ok (some j)) :
    handlePaid db dep.provider payload reply now =
      if dep.provider = .crystalpay ∧ dep.status = .expired then .ok (db, .refused "deposit not pending")
      else creditReported db j dep payload.amount reply now := by
  have hunpaid : dep.status ≠ .paid := by
    rcases hopen with h | h <;> simp [h]
  have hrow : (orRaise (db.wallet_deposits.row j) .no_result : Result WalletDeposit) = .ok dep := orRaise_ok.2 hj
  cases hprov : dep.provider with
  | cryptobot =>
    rw [hprov] at hp hfind
    simp only [handlePaid, handleInvoicePaid, show payload.status = "paid" from hp, ne_eq, not_true_eq_false, if_false, hid,
      hfind, ok_bind, hrow, hunpaid, reduceCtorEq, false_and]
  | crystalpay =>
    rw [hprov] at hp hfind
    have hstatus : (dep.status = .expired ∨ dep.status = .refunded) ↔ dep.status = .expired := by
      rcases hopen with h | h <;> simp [h]
    simp only [handlePaid, handleCrystalpayInvoice, show payload.status.toLower = paidState .crystalpay from hp, if_true, hid,
      hfind, ok_bind, hrow, hunpaid, hstatus, true_and, if_false]
    rfl

/-- Database and upstream failures aside, a paid event for an open deposit is
answered and takes nothing exactly when it is refused as expired, or its amount
is acceptable. -/
theorem paid_event_iff {payload : InvoicePayload} (hs : Sound db) (hj : db.wallet_deposits.row j = some dep)
    (hid : payload.invoice_id = some dep.provider_invoice_id) (hp : SaysPaid payload dep.provider)
    (hopen : dep.status = .pending ∨ dep.status = .expired)
    (hfail : ∀ e, handlePaid db dep.provider payload reply now = .error e → e = .invalid_operation) :
    Answered db (handlePaid db dep.provider payload reply now) ↔
      (dep.provider = .crystalpay ∧ dep.status = .expired) ∨ Acceptable db dep payload.amount := by
  have hunpaid : dep.status ≠ .paid := by
    rcases hopen with h | h <;> simp [h]
  have hfind : findWalletDeposit db dep.provider_invoice_id dep.provider = .ok (some j) := by
    cases hf : findWalletDeposit db dep.provider_invoice_id dep.provider with
    | ok o => rw [findWalletDeposit_row hj hf]
    | error e =>
      have herr : handlePaid db dep.provider payload reply now = .error e := handlePaid_error hid hp hf
      rw [hfail e herr] at hf
      exact absurd hf (findWalletDeposit_answers _ _)
  have heq : handlePaid db dep.provider payload reply now =
      if dep.provider = .crystalpay ∧ dep.status = .expired then .ok (db, .refused "deposit not pending")
      else creditReported db j dep payload.amount reply now := handlePaid_eq hj hid hp hopen hfind
  rw [heq] at hfail ⊢
  split at hfail
  · rename_i hexpired
    rw [if_pos hexpired]
    exact iff_of_true (answered_refused hs _) (.inl hexpired)
  · rename_i hexpired
    rw [if_neg hexpired, or_iff_right hexpired]
    exact creditReported_answered_iff hs hj hunpaid hfail

end

/-- A deal that waits for its deposit of 10.50. -/
def sampleWaitingRows : Db :=
  { sampleDb 2 ⟨0, money_zero_fits⟩ with
    deals := Table.empty.insert sampleWaitingDeal
    wallet_deposits := Table.empty.insert sampleWaitingDeposit }

theorem sampleWaitingRows_deal {k : ℕ} {d : Deal} (h : sampleWaitingRows.deals.row k = some d) :
    k = 1 ∧ d = sampleWaitingDeal := by
  have hlt : k < 2 := Table.lt_next h
  interval_cases k <;> cases h
  exact ⟨rfl, rfl⟩

theorem sampleWaitingRows_sound : Sound sampleWaitingRows where
  funds u c := by
    have hb : sampleWaitingRows.balance u c = UserBalance.zero := by
      simp only [Db.balance, sampleWaitingRows, sampleDb]
      split <;> rfl
    rw [hb]
    decide +kernel
  trust u user hu := by
    have hlt : u < 4 := Table.lt_next hu
    interval_cases u <;> cases hu <;> decide +kernel
  deposits j dep hj := by
    have hlt : j < 2 := Table.lt_next hj
    interval_cases j <;> cases hj
    decide +kernel
  deals k d hk := by
    obtain ⟨-, rfl⟩ := sampleWaitingRows_deal hk
    decide +kernel

/-- The deposit of the deal is paid as invoiced. -/
theorem samplePayment_answered : Answered sampleWaitingRows
    (handlePaid sampleWaitingRows .cryptobot ⟨some "IV1", "paid", .number (.finite (21 / 2))⟩ (.error "") 0) := by
  have hruns : ∃ r, handlePaid sampleWaitingRows .cryptobot ⟨some "IV1", "paid", .number (.finite (21 / 2))⟩ (.error "") 0 =
      .ok r ∧ True := exists_ok (by decide +kernel)
  obtain ⟨r, hr, -⟩ := hruns
  have hrow : sampleWaitingRows.wallet_deposits.row 1 = some sampleWaitingDeposit := rfl
  have hcur : sampleWaitingRows.currencies.row 1 = some (sampleCurrency 2) := rfl
  have hround : roundTo (sampleCurrency 2).decimals (21 / 2) = 21 / 2 := by decide +kernel
  have hquantises : Quantises 2 (21 / 2) := by
    unfold Quantises
    decide +kernel
  have hlinked : LinkedFits sampleWaitingRows sampleWaitingDeposit (some (21 / 2)) := by
    intro k d cur hk hd hc
    obtain ⟨-, rfl⟩ := sampleWaitingRows_deal hd
    cases hcur.symm.trans hc
    refine ⟨hquantises, fun _ => ⟨10, 1 / 2, by decide +kernel, fun hlt => ?_, fun _ => ⟨?_, fun hlt => ?_⟩⟩⟩
    · -- it is not less than the commission
      rw [Option.getD_some, hround] at hlt
      exact absurd hlt (by decide +kernel)
    · unfold Quantises
      decide +kernel
    · exact absurd hlt (by decide +kernel)
  have hlowers : ¬LowersBuyer sampleWaitingRows sampleWaitingDeposit (some (21 / 2)) := by
    rintro ⟨k, d, cur, -, hd, hc, -, hlow⟩
    obtain ⟨-, rfl⟩ := sampleWaitingRows_deal hd
    cases hcur.symm.trans hc
    refine absurd hlow ?_
    unfold Lowers
    decide +kernel
  have hfits : CreditFits sampleWaitingRows sampleWaitingDeposit (some (.finite (21 / 2))) := by
    refine ⟨?_, ?_, fun _ => hlinked⟩
    · unfold Quantises
      decide +kernel
    · intro n hn
      cases hn
      exact ⟨21 / 2, rfl, hquantises⟩
  have hfail (e : Exc) (he : handlePaid sampleWaitingRows sampleWaitingDeposit.provider
      ⟨some "IV1", "paid", .number (.finite (21 / 2))⟩ (.error "") 0 = .error e) : e = .invalid_operation := by
    cases hr.symm.trans he
  have hpaid : SaysPaid ⟨some "IV1", "paid", .number (.finite (21 / 2))⟩ sampleWaitingDeposit.provider := Eq.refl "paid"
  have hacceptable : Acceptable sampleWaitingRows sampleWaitingDeposit (.number (.finite (21 / 2))) := by
    rw [Acceptable, if_pos (by decide)]
    exact ⟨hfits, hlowers⟩
  exact (paid_event_iff sampleWaitingRows_sound hrow rfl hpaid (.inl rfl) hfail).2 (.inr hacceptable)

/-- A deal that waits for a Crystalpay invoice. -/
def sampleCrystalpayRequest : Result Db :=
  createDealWithTopup
    { sampleDb 2 ⟨0, money_zero_fits⟩ with settings := ⟨"", "login", "secret", 1200, 600, 0⟩ } 1 2 "USDT" (some 10)
    "crystalpay" (.invoice "IV1" "https://pay") 0

/-- A payment of -5 for the deal is credited and leaves the buyer with -5, and
one of NaN for a wallet deposit raises. -/
theorem negative_payment_taken :
    (∃ x : Db × Db × Handled, (do
      let db ← sampleCrystalpayRequest
      let r ← handlePaid db .crystalpay ⟨some "IV1", "payed", .number (.finite (-5))⟩ (.invoice "IV2" "https://pay") 0
      pure (db, r) : Result (Db × Db × Handled)) = .ok x ∧
        (x.1.balance 1 1).amount.val = 0 ∧ (x.2.1.balance 1 1).amount.val = -5 ∧ x.2.2 = .credited) ∧
      (handlePaid (sampleDepositDb .wallet) .cryptobot ⟨some "IV1", "paid", .number .nan⟩
        (.error "") 0).toOption.isSome = false :=
  ⟨exists_ok (by decide +kernel), by decide +kernel⟩

end Garant
