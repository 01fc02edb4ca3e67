import Garant.Topup
import Garant.Replacement
/-!
# Activation by invoice

A deal that waits for its top-up should leave the buyer an invoice that
activates it. `waiting_deal_payable_iff` says when it does: the amounts are
rounded one by one, and the invoice is enough only when what they round to still
adds up. And the money columns have to hold what the activation writes.
-/
open Decimal

namespace Garant

/-! ## The operations that leave a deal waiting -/

inductive TopupRequest
  | create (buyer_id seller_id : ℕ) (currency_code : String) (amount : Option ℚ) (payment_provider : String)
      (reply : InvoiceReply) (now : Time)
  | pay (deposit_id : ℕ) (paid_amount : Option ℚ) (reply : InvoiceReply) (now : Time)

namespace TopupRequest

def run (db : Db) : TopupRequest → Result Db
  | create b s code amount provider reply now => createDealWithTopup db b s code amount provider reply now
  | pay j paid reply now => completeDealTopupPayment db j paid reply now

/-- The deal a request is about: the new one, on terms that are admitted, or the
waiting one that an open invoice is paid for. -/
inductive About (db : Db) : TopupRequest → ℕ → Prop
  | create {b s : ℕ} {code : String} {amount : Option ℚ} {provider : String} {reply : InvoiceReply} {now : Time}
      {terms : ℕ × Currency × ℚ × ℚ} (ht : dealTerms db b s code amount = .ok terms) :
      About db (.create b s code amount provider reply now) db.deals.next
  | pay {j k : ℕ} {paid : Option ℚ} {reply : InvoiceReply} {now : Time} {dep : WalletDeposit} {d : Deal}
      (hj : db.wallet_deposits.row j = some dep) (hunpaid : dep.status ≠ .paid) (hl : dep.linked_deal_id = some k)
      (hr : db.deals.row k = some d) (hw : d.status = .pending_topup) : About db (.pay j paid reply now) k

end TopupRequest

/-- The amount of the pending invoice that a deal points at. -/
def Db.pendingInvoice (db : Db) (k : ℕ) (d : Deal) : Option ℚ :=
  d.topup_deposit_id.bind fun j => (db.wallet_deposits.row j).bind fun dep =>
    if dep.status = .pending ∧ dep.linked_deal_id = some k then some dep.amount.val else none

/-- The balance has room for an activation: for the two new sums, and for the
changes of both that the ledger entry records. -/
structure Headroom (bal : UserBalance) (paid due amt : ℚ) : Prop where
  amount : Storable (minus (plus bal.amount.val (paid - due)) amt)
  locked : Storable (plus bal.locked.val amt)
  amount_delta : Storable (minus (minus (plus bal.amount.val (paid - due)) amt) bal.amount.val)
  locked_delta : Storable (minus (plus bal.locked.val amt) bal.locked.val)

/-- What a waiting deal lacks: its amount and the commission due, what the buyer
has, what is invoiced, and the other pending invoice the deal still points at. -/
structure Outstanding where
  buyer_id : ℕ
  currency_id : ℕ
  decimals : ℕ
  amount : ℚ
  commission : ℚ
  balance : ℚ
  invoice : ℚ
  older : Option ℚ

namespace Outstanding

/-- The commission and the missing amount, as the columns keep them. -/
def needed (o : Outstanding) : ℚ := stored o.commission + max 0 (stored o.amount - o.balance)

/-- The invoice is worth what is needed, and the numbers can be quantised again.
Where there is nothing to invoice, this is asked of the other invoice. -/
structure Covered (o : Outstanding) : Prop where
  fits : Quantises o.decimals (stored o.amount) ∧ Quantises o.decimals (stored o.commission)
  issued : 0 < o.invoice → Quantises o.decimals (stored o.invoice) ∧ o.needed ≤ stored o.invoice
  older : o.invoice ≤ 0 → ∃ a, o.older = some a ∧ Quantises o.decimals a ∧ Storable (roundTo o.decimals a) ∧
    o.needed ≤ roundTo o.decimals a

/-- The payment the buyer is asked for. -/
def payment (o : Outstanding) : ℚ := if 0 < o.invoice then stored o.invoice else roundTo o.decimals (o.older.getD 0)

/-- The invoice is enough, and the balance has room for it in the states in
which it may be paid. -/
structure Settles (o : Outstanding) (L : Db → Prop) : Prop where
  covered : o.Covered
  room : ∀ s, L s → Headroom (s.balance o.buyer_id o.currency_id) o.payment (stored o.commission) (stored o.amount)

end Outstanding

/-- What a deal lacks when it is created. The missing amount is rounded before
the commission is added. -/
def Outstanding.created (b c : ℕ) (cur : Currency) (amt com bal : ℚ) : Outstanding :=
  ⟨b, c, cur.decimals, amt, com, bal, roundTo cur.decimals (max 0 (amt - bal)) + com, none⟩

/-- What it lacks after a payment that brings the balance to `bal`. The missing
amount is rounded together with the commission. -/
def Outstanding.remaining (b c : ℕ) (cur : Currency) (amt due bal : ℚ) (older : Option ℚ) : Outstanding :=
  ⟨b, c, cur.decimals, amt, due, stored (ctx prec bal), roundTo cur.decimals (max 0 (amt - bal) + due), older⟩

open Outstanding in
/-- Requests that leave the deal waiting, and what it then lacks. -/
inductive Waits (db : Db) : TopupRequest → ℕ → Outstanding → Prop
  | create {b s c k : ℕ} {code : String} {amount : Option ℚ} {provider : String} {reply : InvoiceReply} {now : Time}
      {cur : Currency} {amt com : ℚ} (ht : dealTerms db b s code amount = .ok (c, cur, amt, com))
      (hlt : (db.balance b c).amount.val < amt + com) :
      Waits db (.create b s code amount provider reply now) k
        (created b c cur amt com (db.balance b c).amount.val)
  | short {j k : ℕ} {paid : Option ℚ} {reply : InvoiceReply} {now : Time} {dep : WalletDeposit} {d : Deal}
      {cur : Currency} {amt due p : ℚ} (hj : db.wallet_deposits.row j = some dep) (hr : db.deals.row k = some d)
      (hc : db.currencies.row d.currency_id = some cur) (hdue : topupDue d cur = .ok (amt, due))
      (hp : p = roundTo cur.decimals (paid.getD dep.amount.val)) (hlt : p < due) :
      Waits db (.pay j paid reply now) k
        (remaining d.buyer_id d.currency_id cur amt due ((db.balance d.buyer_id d.currency_id).amount.val + p)
          ((db.setDeposit j { dep with status := .paid }).pendingInvoice k d))
  | partly {j k : ℕ} {paid : Option ℚ} {reply : InvoiceReply} {now : Time} {dep : WalletDeposit} {d : Deal}
      {cur : Currency} {amt due p : ℚ} (hj : db.wallet_deposits.row j = some dep) (hr : db.deals.row k = some d)
      (hc : db.currencies.row d.currency_id = some cur) (hdue : topupDue d cur = .ok (amt, due))
      (hp : p = roundTo cur.decimals (paid.getD dep.amount.val)) (hle : due ≤ p)
      (hlt : (db.balance d.buyer_id d.currency_id).amount.val + (p - due) < amt) :
      Waits db (.pay j paid reply now) k
        (remaining d.buyer_id d.currency_id cur amt 0 ((db.balance d.buyer_id d.currency_id).amount.val + (p - due))
          ((db.setDeposit j { dep with status := .paid }).pendingInvoice k d))

/-! ## Dead ends -/

/-- The deal starts. -/
def Activates (k : ℕ) (r : Result Db) : Prop :=
  ∃ db, r = .ok db ∧ (db.deals.row k).map (·.status) = some .pending_confirmation

/-- The deal, its invoice and its currency are as they were, and the buyer has no less to spend. -/
structure Later (db s : Db) (k j : ℕ) (d : Deal) (dep : WalletDeposit) : Prop where
  deal : ∃ d', s.deals.row k = some d' ∧ SameDeal d d' ∧ d'.status = d.status ∧ d'.commission_paid = d.commission_paid
  deposit : ∃ dep', s.wallet_deposits.row j = some dep' ∧ dep'.status ≠ .paid ∧ dep'.linked_deal_id = some k ∧
    dep'.amount = dep.amount
  currency : (s.currencies.row d.currency_id).map (·.decimals) = (db.currencies.row d.currency_id).map (·.decimals)
  balance : (db.balance d.buyer_id d.currency_id).amount.val ≤ (s.balance d.buyer_id d.currency_id).amount.val

/-- States in which the invoice of deal `k` may be paid: this one, and any others
in which the deal and its invoice are as they were and the buyer has no less. -/
structure Meanwhile (db : Db) (k : ℕ) (L : Db → Prop) : Prop where
  now : L db
  later : ∀ s, L s → ∀ j d dep, db.deals.row k = some d → d.topup_deposit_id = some j →
    db.wallet_deposits.row j = some dep → dep.status = .pending → dep.linked_deal_id = some k → Later db s k j d dep

/-- The deal points at a pending invoice, and paying just that starts it. -/
def Payable (L : Db → Prop) (db : Db) (k : ℕ) (d : Deal) : Prop :=
  ∃ j dep, d.topup_deposit_id = some j ∧ db.wallet_deposits.row j = some dep ∧ dep.status = .pending ∧
    dep.linked_deal_id = some k ∧ ∀ s paid reply now, L s → paid.getD dep.amount.val = dep.amount.val →
      Activates k (completeDealTopupPayment s j paid reply now)

def commissionTooSmall : Exc := .value_error "Сумма комиссии меньше точности валюты — используйте обычную сделку"

/-- The request does not fail for want of an invoice, and does not leave the deal
waiting for nothing. -/
def NoDeadEnd (L : Db → Prop) (r : Result Db) (k : ℕ) : Prop :=
  r ≠ .error commissionTooSmall ∧
    ∀ db d, r = .ok db → db.deals.row k = some d → d.status = .pending_topup → Payable L db k d

/-- Codes of currencies are unique and in upper case. -/
structure FineCodes (t : Table Currency) : Prop where
  unique : ∀ i c i' c', t.row i = some c → t.row i' = some c' → c.code = c'.code → i = i'
  upper : ∀ i c, t.row i = some c → c.code.toUpper = c.code

/-- The commission of the deal, zero if it has none. -/
def Deal.commission (d : Deal) : ℚ := d.commission_amount.elim 0 (·.val)

/-- What the schema and the checks on creation promise of the rows: their codes,
and that nothing is negative. -/
structure FineRows (db : Db) : Prop where
  codes : FineCodes db.currencies
  rate : 0 ≤ db.app_settings.deal_commission_percent.val
  deals : ∀ k d, db.deals.row k = some d → 0 ≤ d.amount.val ∧ 0 ≤ d.commission
  deposits : ∀ j dep, db.wallet_deposits.row j = some dep → 0 ≤ dep.amount.val

/-- The commission that is still due. -/
def Deal.due (d : Deal) (cur : Currency) : ℚ := if d.commission_paid then 0 else roundTo cur.decimals d.commission

section
variable {db db' s : Db} {j k u c : ℕ} {d d' : Deal} {dep : WalletDeposit} {cur : Currency} {x y amt due paid : ℚ}
  {reply : InvoiceReply} {now : Time} {ref : LedgerRef}

/-! ## Paying an invoice -/

theorem topupDue_ok_iff {r : ℚ × ℚ} : topupDue d cur = .ok r ↔
    Quantises cur.decimals d.amount.val ∧ Quantises cur.decimals d.commission ∧
      r = (roundTo cur.decimals d.amount.val, if d.commission_paid then 0 else roundTo cur.decimals d.commission) := by
  simp only [topupDue, bind_ok, pure_ok, quantizeMoney_ok_iff]
  constructor
  · rintro ⟨_, ⟨ha, rfl⟩, _, ⟨hc, rfl⟩, rfl⟩
    exact ⟨ha, hc, rfl⟩
  · rintro ⟨ha, hc, rfl⟩
    exact ⟨_, ⟨ha, rfl⟩, _, ⟨hc, rfl⟩, rfl⟩

theorem completeDealTopupPayment_waiting {p : Option ℚ} (hj : s.wallet_deposits.row j = some dep)
    (hu : dep.status ≠ .paid) (hl : dep.linked_deal_id = some k) (hr : s.deals.row k = some d)
    (hw : d.status = .pending_topup)
    (hc : s.currencies.row d.currency_id = some cur) :
    completeDealTopupPayment s j p reply now =
      (quantizeMoney (p.getD dep.amount.val) cur.decimals >>= fun paid => settleTopup s j dep k d cur paid reply now) := by
  have hrow : (orRaise (s.wallet_deposits.row j) .no_result : Result WalletDeposit) = .ok dep := orRaise_ok.2 hj
  have hcur : (orRaise (s.currencies.row d.currency_id) currencyVanished : Result Currency) = .ok cur := orRaise_ok.2 hc
  simp only [completeDealTopupPayment, hrow, ok_bind, hu, if_false, hl, hr, hcur, hw, if_true]

/-- A payment starts the deal when it covers the commission, the rest covers the
amount together with the balance, and the balance has room. -/
theorem settleTopup_activates_iff (hr : s.deals.row k = some d) (hw : d.status = .pending_topup)
    (hdue : topupDue d cur = .ok (amt, due))
    (hq : due ≤ paid → Storable paid → quantizeMoney (minus paid due) cur.decimals = .ok (paid - due)) :
    Activates k (settleTopup s j dep k d cur paid reply now) ↔ Storable paid ∧ due ≤ paid ∧
      amt ≤ plus (s.balance d.buyer_id d.currency_id).amount.val (paid - due) ∧
        Headroom (s.balance d.buyer_id d.currency_id) paid due amt := by
  constructor
  · rintro ⟨db', h, hst⟩
    -- the other two ends leave the status
    have hwaits {db₁ : Db} {e : Deal} {y : ℚ} (hr₁ : ∃ e', db₁.deals.row k = some e' ∧ e'.status = .pending_topup)
        (hi : issueRemainingTopupInvoice db₁ k e cur y reply now = .ok db') : False := by
      obtain ⟨e', hr₁, hw₁⟩ := hr₁
      obtain ⟨-, d', hp, hst', -⟩ := issueRemainingTopupInvoice_progress (P := fun _ => False) hr₁ hi
      rw [hp.after, Option.map_some, hst', hw₁] at hst
      cases hst
    simp only [settleTopup, hdue, ok_bind, bind_ok] at h
    obtain ⟨v, hv, h⟩ := h
    split at h
    · obtain ⟨db₁, hch, h⟩ := bind_ok.1 h
      obtain ⟨bal, -, -, hm⟩ := changeBalance_ok (depositRef_ne (by decide) _ _) hch
      exact (hwaits ⟨d, hm.deals ▸ hr, hw⟩ h).elim
    · next hle =>
      rw [not_lt] at hle
      rw [hq hle ⟨v, hv⟩, ok_bind] at h
      split at h
      · obtain ⟨db₁, hch, h⟩ := bind_ok.1 h
        obtain ⟨bal, -, -, hm⟩ := changeBalance_ok (depositRef_ne (by decide) _ _) hch
        have hr₁ : db₁.deals.row k = some d := hm.deals ▸ hr
        refine (hwaits ⟨{ d with commission_paid := d.commission_paid || decide (0 < due) }, ?_, hw⟩ h).elim
        show (db₁.deals.set k _).row k = _
        rw [Table.set_row hr₁, if_pos rfl]
      · next hge =>
        obtain ⟨db₁, hch, -⟩ := bind_ok.1 h
        obtain ⟨ha, hl, hda, hdl⟩ := changeBalance_isOk_iff.1 ⟨db₁, hch⟩
        exact ⟨⟨v, hv⟩, hle, not_lt.1 hge, ha, hl, hda, hdl⟩
  · rintro ⟨⟨v, hv⟩, hle, hge, ha, hl, hda, hdl⟩
    obtain ⟨db₁, hch⟩ : ∃ db₁, changeBalance s d.buyer_id d.currency_id
        (minus (plus (s.balance d.buyer_id d.currency_id).amount.val (paid - due)) amt)
        (plus (s.balance d.buyer_id d.currency_id).locked.val amt) (depositRef "deal_topup.activate" j dep) = .ok db₁ :=
      changeBalance_isOk_iff.2 ⟨ha, hl, hda, hdl⟩
    obtain ⟨bal, -, -, hm⟩ := changeBalance_ok (depositRef_ne (by decide) _ _) hch
    have hr₁ : db₁.deals.row k = some d := hm.deals ▸ hr
    refine ⟨(db₁.setDeal k { d with status := .pending_confirmation, commission_paid := true }).setDeposit j
      (dep.settle now (some v)), ?_, ?_⟩
    · simp only [settleTopup, hdue, hv, ok_bind, not_lt.2 hle, if_false, hq hle ⟨v, hv⟩, not_lt.2 hge, hch]
      rfl
    · show ((db₁.deals.set k _).row k).map (·.status) = _
      rw [Table.set_row hr₁, if_pos rfl]
      rfl

/-! ## The invoice that waits -/

/-- A waiting deal points at a pending invoice. -/
structure Invoiced (db : Db) (k j : ℕ) (d : Deal) (dep : WalletDeposit) (cur : Currency) : Prop where
  deal : db.deals.row k = some d
  waiting : d.status = .pending_topup
  link : d.topup_deposit_id = some j
  deposit : db.wallet_deposits.row j = some dep
  pending : dep.status = .pending
  linked : dep.linked_deal_id = some k
  currency : db.currencies.row d.currency_id = some cur
  amount_nonneg : 0 ≤ d.amount.val
  commission_nonneg : 0 ≤ d.commission
  paid_nonneg : 0 ≤ dep.amount.val

theorem commission_grid (d : Deal) (n : ℕ) : IsGrid 8 (roundTo n d.commission) := by
  unfold Deal.commission
  cases d.commission_amount with
  | none => exact (roundTo_of_grid (isGrid_zero n)).symm ▸ isGrid_zero 8
  | some com => exact roundTo_money_grid n com

theorem due_nonneg (h : 0 ≤ d.commission) : 0 ≤ d.due cur := by
  unfold Deal.due
  split
  · exact le_rfl
  · exact roundTo_nonneg h

theorem due_grid8 (d : Deal) (cur : Currency) : IsGrid 8 (d.due cur) := by
  unfold Deal.due
  split
  · exact isGrid_zero 8
  · exact commission_grid d _

theorem due_grid_decimals (d : Deal) (cur : Currency) : IsGrid cur.decimals (d.due cur) := by
  unfold Deal.due
  split
  · exact isGrid_zero _
  · exact roundTo_grid _ _

theorem roundTo_money_le (n : ℕ) (x : Money) : roundTo n x.val ≤ 10 ^ 20 := by
  have h10 : (0 : ℚ) < 10 ^ n := by positivity
  rw [roundTo, div_le_iff₀ h10]
  have hle : roundHalfEven (x.val * 10 ^ n) ≤ ((10 ^ 20 * 10 ^ n : ℕ) : ℤ) := by
    refine roundHalfEven_le_of_le ?_
    push_cast
    exact mul_le_mul_of_nonneg_right (val_lt_range x).2.le h10.le
  exact_mod_cast hle

theorem Quantises.round {n : ℕ} (h : Quantises n x) : Quantises n (roundTo n x) := by
  have h10 : (10 : ℚ) ^ n ≠ 0 := by positivity
  rw [Quantises, roundTo, div_mul_cancel₀ _ h10, roundHalfEven_intCast]
  exact h

/-- A payment leaves just its amount less the commission as credit. -/
theorem invoiced_credit (a : Money) (h0 : 0 ≤ d.due cur) (hq : Quantises cur.decimals a.val)
    (hs : Storable (roundTo cur.decimals a.val)) (hle : d.due cur ≤ roundTo cur.decimals a.val) :
    quantizeMoney (minus (roundTo cur.decimals a.val) (d.due cur)) cur.decimals =
      .ok (roundTo cur.decimals a.val - d.due cur) := by
  have hlt : roundTo cur.decimals a.val < 10 ^ 20 := by
    obtain ⟨v, hv⟩ := hs
    rw [← store_grid (roundTo_money_grid _ a) hv]
    exact (val_lt_range v).2
  have hdiff : 0 ≤ roundTo cur.decimals a.val - d.due cur := sub_nonneg.2 hle
  have hexact : minus (roundTo cur.decimals a.val) (d.due cur) = roundTo cur.decimals a.val - d.due cur :=
    ctx_of_fits (fits_of_lt ((roundTo_money_grid _ a).sub (due_grid8 d cur)) (by linarith) (by linarith))
  rw [hexact, quantizeMoney_ok_iff]
  refine ⟨hq.round.mono hdiff (sub_le_self _ h0), ?_⟩
  exact (roundTo_of_grid ((roundTo_grid _ _).sub (due_grid_decimals d cur))).symm

/-! ## Exact numbers

An amount in the currency and in the money column stays below `range`, and the
context is exact up to there. What is larger fails to be quantised or stored. -/

def range (n : ℕ) : ℚ := 10 ^ ((prec : ℤ) - (max n 8 : ℕ))

theorem range_pos (n : ℕ) : 0 < range n := zpow_pos (by norm_num) _

theorem range_grid (n : ℕ) : IsGrid n (range n) := by
  obtain ⟨e, he⟩ : ∃ e : ℕ, (prec : ℤ) - (max n 8 : ℕ) = (e : ℤ) - n := by
    refine ⟨(prec + n - max n 8 : ℕ), ?_⟩
    have hprec : prec = 28 := rfl
    omega
  refine ⟨10 ^ e, ?_⟩
  rw [range, he, zpow_sub₀ (by norm_num), zpow_natCast, zpow_natCast]
  push_cast
  rfl

theorem range_eq {n : ℕ} (h : n ≤ 8) : range n = 10 ^ 20 := by
  rw [range, max_eq_right h]
  norm_num [prec]

/-- Adding on the grid is exact, or beyond the range on the same side. -/
theorem ctx_exact_or_beyond {n : ℕ} (hx : IsGrid (max n 8) x) :
    ctx prec x = x ∨ (range n ≤ x ∧ range n ≤ ctx prec x) ∨ (x ≤ -range n ∧ ctx prec x ≤ -range n) := by
  rcases le_total 0 x with h0 | h0
  · rcases ctx_exact_or (p := prec) (by norm_num [prec]) hx h0 with h | h
    · exact .inl h
    · exact .inr (.inl h)
  · rcases ctx_exact_or (p := prec) (by norm_num [prec]) hx.neg (neg_nonneg.2 h0) with h | ⟨h, h'⟩
    · rw [ctx_neg, neg_inj] at h
      exact .inl h
    · rw [ctx_neg] at h'
      exact .inr (.inr ⟨le_neg_of_le_neg h, le_neg_of_le_neg h'⟩)

theorem quantised_lt_range {n : ℕ} (h : quantizeMoney x n = .ok y) (hs : y ≤ 0 ∨ ∃ v, store y = .ok v) :
    y < range n := by
  rcases hs with hneg | ⟨v, hv⟩
  · exact hneg.trans_lt (range_pos n)
  rcases le_or_gt n 8 with hn | hn
  · rw [range_eq hn, ← store_grid ((quantizeMoney_grid h).mono hn) hv]
    exact (val_lt_range v).2
  · obtain ⟨hq, rfl⟩ := quantizeMoney_ok_iff.1 h
    have hlt : roundHalfEven (x * 10 ^ n) < (10 ^ prec : ℕ) := by
      unfold Quantises at hq
      omega
    rw [roundTo, range, max_eq_left hn.le, zpow_sub₀ (by norm_num), zpow_natCast, zpow_natCast]
    refine (div_lt_div_iff_of_pos_right (by positivity)).2 ?_
    exact_mod_cast hlt

/-- The missing amount is computed exactly unless it is beyond the range. -/
theorem missing_exact_or {n : ℕ} (ha : IsGrid (max n 8) x) (hy : IsGrid (max n 8) y) :
    max 0 (minus x y) = max 0 (x - y) ∨ range n ≤ max 0 (minus x y) := by
  rcases ctx_exact_or_beyond (n := n) (ha.sub hy) with h | ⟨-, h⟩ | ⟨h, h'⟩
  · exact .inl (congrArg _ h)
  · exact .inr (le_max_of_le_right h)
  · have hneg : x - y ≤ 0 := by linarith [range_pos n]
    have hneg' : minus x y ≤ 0 := ctx_nonpos _ hneg
    exact .inl (by rw [max_eq_left hneg, max_eq_left hneg'])

/-- The invoice of the create path. -/
theorem create_invoice_exact {n : ℕ} {b com principal total : ℚ} (ha : IsGrid n amt) (hb : IsGrid 8 b)
    (hcom : IsGrid n com) (hcom0 : 0 ≤ com) (hp : quantizeMoney (max 0 (minus amt b)) n = .ok principal)
    (ht : quantizeMoney (plus principal com) n = .ok total) (hs : total ≤ 0 ∨ ∃ v, store total = .ok v) :
    total = roundTo n (max 0 (amt - b)) + com := by
  obtain ⟨-, rfl⟩ := quantizeMoney_ok_iff.1 hp
  have hsum : total = roundTo n (max 0 (minus amt b)) + com :=
    quantize_ctx (by norm_num [prec]) ((roundTo_grid n _).add hcom) (quantizeMoney_ok.1 ht)
  rcases missing_exact_or (n := n) (ha.mono (le_max_left _ _)) (hb.mono (le_max_right _ _)) with h | h
  · rw [hsum, h]
  · -- too large to be invoiced
    have hlarge : range n ≤ roundTo n (max 0 (minus amt b)) := le_roundTo_of_le (range_grid n) h
    have hlt := quantised_lt_range ht hs
    linarith

/-- The invoice of the payment path. -/
theorem remaining_invoice_exact {n : ℕ} {total : ℚ} (ha : IsGrid (max n 8) amt) (ha0 : 0 ≤ amt) (haL : amt ≤ range n)
    (hx : IsGrid (max n 8) x) (hd : IsGrid (max n 8) due) (hd0 : 0 ≤ due)
    (ht : quantizeMoney (plus (max 0 (minus amt (ctx prec x))) due) n = .ok total)
    (hs : total ≤ 0 ∨ ∃ v, store total = .ok v) : total = roundTo n (max 0 (amt - x) + due) := by
  have hlt := quantised_lt_range ht hs
  have hr := range_pos n
  obtain ⟨-, rfl⟩ := quantizeMoney_ok_iff.1 ht
  -- nothing that is computed on the way is beyond the range
  have hsmall : plus (max 0 (minus amt (ctx prec x))) due < range n := by
    by_contra hle
    exact absurd (le_roundTo_of_le (range_grid n) (not_lt.1 hle)) (not_le.2 hlt)
  have hgap : max 0 (minus amt (ctx prec x)) < range n := by
    by_contra hle
    refine absurd hsmall (not_lt.2 ?_)
    exact zpow_le_ctx (by norm_num [prec]) (show range n ≤ _ from by linarith [not_lt.1 hle])
  have hmissing : max 0 (minus amt (ctx prec x)) = max 0 (amt - x) := by
    rcases ctx_exact_or_beyond (n := n) hx with h | ⟨h, h'⟩ | ⟨h, h'⟩
    · rw [h] at hgap ⊢
      exact (missing_exact_or (n := n) ha hx).resolve_right (not_le.2 hgap)
    · have hneg : amt - x ≤ 0 := by linarith
      have hneg' : minus amt (ctx prec x) ≤ 0 := ctx_nonpos _ (by linarith)
      rw [max_eq_left hneg, max_eq_left hneg']
    · refine absurd hgap (not_lt.2 (le_max_of_le_right ?_))
      exact zpow_le_ctx (by norm_num [prec]) (show range n ≤ _ from by linarith)
  rw [hmissing] at hsmall ⊢
  have hm : IsGrid (max n 8) (max 0 (amt - x)) := (isGrid_zero _).max (ha.sub hx)
  rcases ctx_exact_or_beyond (n := n) (hm.add hd) with h | ⟨-, h⟩ | ⟨h, -⟩
  · rw [plus, Decimal.add, h]
  · exact absurd hsmall (not_lt.2 h)
  · have h0 : 0 ≤ max 0 (amt - x) := le_max_left _ _
    linarith

theorem amount_le_range (h : Quantises cur.decimals d.amount.val) :
    roundTo cur.decimals d.amount.val ≤ range cur.decimals := by
  rcases le_total cur.decimals 8 with hn | hn
  · rw [range_eq hn]
    exact roundTo_money_le _ _
  · refine (quantised_lt_range h.ok (.inr ⟨d.amount, ?_⟩)).le
    rw [roundTo_of_grid (d.amount.isGrid.mono hn)]
    exact store_val _

/-- The context does not confuse a sum with the amount. -/
theorem ctx_lt_iff {n : ℕ} (hx : IsGrid (max n 8) x) (ha0 : 0 ≤ amt) (ha : amt ≤ range n) : ctx prec x < amt ↔ x < amt := by
  have hr := range_pos n
  rcases ctx_exact_or_beyond hx with h | ⟨h, h'⟩ | ⟨h, h'⟩
  · rw [h]
  · exact iff_of_false (not_lt.2 (ha.trans h')) (not_lt.2 (ha.trans h))
  · exact iff_of_true (by linarith) (by linarith)

/-! ## Paying the invoice -/

/-- What the payment has to cover. -/
def Enough (db : Db) (d : Deal) (cur : Currency) (paid : ℚ) : Prop :=
  d.due cur + max 0 (roundTo cur.decimals d.amount.val - (db.balance d.buyer_id d.currency_id).amount.val) ≤ paid

theorem enough_iff : Enough db d cur paid ↔ d.due cur ≤ paid ∧
    roundTo cur.decimals d.amount.val ≤ (db.balance d.buyer_id d.currency_id).amount.val + (paid - d.due cur) := by
  rw [Enough, ← le_sub_iff_add_le', max_le_iff, sub_nonneg]
  refine and_congr_right fun _ => ?_
  rw [sub_le_iff_le_add, add_comm]

/-- The payment of just its amount starts the deal when the amount is enough and the balance has room. -/
theorem Invoiced.activates_iff {p : Option ℚ} (h : Invoiced db k j d dep cur) (hlater : Later db s k j d dep)
    (hp : p.getD dep.amount.val = dep.amount.val) :
    Activates k (completeDealTopupPayment s j p reply now) ↔
      (Quantises cur.decimals d.amount.val ∧ Quantises cur.decimals d.commission) ∧
      Quantises cur.decimals dep.amount.val ∧ Storable (roundTo cur.decimals dep.amount.val) ∧
      (d.due cur ≤ roundTo cur.decimals dep.amount.val ∧ roundTo cur.decimals d.amount.val ≤
        (s.balance d.buyer_id d.currency_id).amount.val + (roundTo cur.decimals dep.amount.val - d.due cur)) ∧
      Headroom (s.balance d.buyer_id d.currency_id) (roundTo cur.decimals dep.amount.val) (d.due cur)
        (roundTo cur.decimals d.amount.val) := by
  obtain ⟨d', hr, ⟨⟨hb, -, hc, ham⟩, hcom⟩, hst, hcp⟩ := hlater.deal
  obtain ⟨dep', hj, hunpaid, hl, hdep⟩ := hlater.deposit
  have hcur := hlater.currency
  rw [h.currency, Option.map_some] at hcur
  obtain ⟨cur', hcur', hdec⟩ := Option.map_eq_some_iff.1 hcur
  have hcomm : d'.commission = d.commission := by rw [Deal.commission, Deal.commission, hcom]
  have hcredit (ha : Quantises cur.decimals dep.amount.val) (hle : d.due cur ≤ roundTo cur.decimals dep.amount.val)
      (hs : Storable (roundTo cur.decimals dep.amount.val)) :
      quantizeMoney (minus (roundTo cur.decimals dep.amount.val) (d.due cur)) cur'.decimals =
        .ok (roundTo cur.decimals dep.amount.val - d.due cur) := by
    rw [hdec]
    exact invoiced_credit dep.amount (due_nonneg h.commission_nonneg) ha hs hle
  -- the sum is compared exactly
  have hcovers (hA : Quantises cur.decimals d.amount.val) :
      roundTo cur.decimals d.amount.val ≤
          plus (s.balance d.buyer_id d.currency_id).amount.val (roundTo cur.decimals dep.amount.val - d.due cur) ↔
        roundTo cur.decimals d.amount.val ≤
          (s.balance d.buyer_id d.currency_id).amount.val + (roundTo cur.decimals dep.amount.val - d.due cur) := by
    rw [← not_lt, ← not_lt, not_iff_not]
    refine ctx_lt_iff (n := cur.decimals) ?_ (roundTo_nonneg h.amount_nonneg) (amount_le_range hA)
    exact ((Numeric.isGrid _).add ((roundTo_money_grid _ _).sub (due_grid8 d cur))).mono (le_max_right _ _)
  have hdue : topupDue d' cur' = .ok (roundTo cur.decimals d.amount.val, d.due cur) ↔
      Quantises cur.decimals d.amount.val ∧ Quantises cur.decimals d.commission := by
    rw [topupDue_ok_iff, hdec, ham, hcomm, Deal.due, hcp]
    exact ⟨fun h => ⟨h.1, h.2.1⟩, fun h => ⟨h.1, h.2, rfl⟩⟩
  rw [completeDealTopupPayment_waiting hj hunpaid hl hr (hst.trans h.waiting) (hc.symm ▸ hcur'), hdep, hp, hdec]
  constructor
  · rintro ⟨db', hrun, hst'⟩
    obtain ⟨p', hq, hs⟩ := bind_ok.1 hrun
    obtain ⟨ha, rfl⟩ := quantizeMoney_ok_iff.1 hq
    obtain ⟨_, _, -, -, -, hdue', -⟩ := settleTopup_ok hs
    obtain ⟨hA, hC, -⟩ := topupDue_ok_iff.1 hdue'
    rw [ham, hdec] at hA
    rw [hcomm, hdec] at hC
    obtain ⟨hstored, hle, hge, hroom⟩ := (settleTopup_activates_iff hr (hst.trans h.waiting) (hdue.2 ⟨hA, hC⟩)
      (hcredit ha)).1 ⟨db', hs, hst'⟩
    rw [hb, hc] at hge hroom
    exact ⟨⟨hA, hC⟩, ha, hstored, ⟨hle, (hcovers hA).1 hge⟩, hroom⟩
  · rintro ⟨⟨hA, hC⟩, ha, hstored, ⟨hle, hge⟩, hroom⟩
    rw [ha.ok, ok_bind]
    refine (settleTopup_activates_iff hr (hst.trans h.waiting) (hdue.2 ⟨hA, hC⟩) (hcredit ha)).2 ⟨hstored, hle, ?_⟩
    rw [hb, hc]
    exact ⟨(hcovers hA).2 hge, hroom⟩

/-- The deal is payable when the invoice is enough, and the balance has room
whenever it may be paid. -/
theorem Invoiced.payable_iff {L : Db → Prop} (h : Invoiced db k j d dep cur) (hL : Meanwhile db k L) :
    Payable L db k d ↔
      (Quantises cur.decimals d.amount.val ∧ Quantises cur.decimals d.commission) ∧
      Quantises cur.decimals dep.amount.val ∧ Storable (roundTo cur.decimals dep.amount.val) ∧
      Enough db d cur (roundTo cur.decimals dep.amount.val) ∧
      ∀ s, L s → Headroom (s.balance d.buyer_id d.currency_id) (roundTo cur.decimals dep.amount.val) (d.due cur)
        (roundTo cur.decimals d.amount.val) := by
  have hlater (s : Db) (hs : L s) : Later db s k j d dep := hL.later s hs j d dep h.deal h.link h.deposit h.pending h.linked
  constructor
  · rintro ⟨j', dep', hlink, hrow, -, -, hall⟩
    cases h.link.symm.trans hlink
    cases h.deposit.symm.trans hrow
    have hiff (s : Db) (hs : L s) := (h.activates_iff (hlater s hs) rfl).1 (hall s none (.error "") 0 hs rfl)
    obtain ⟨hq, ha, hstored, hge, -⟩ := hiff db hL.now
    exact ⟨hq, ha, hstored, enough_iff.2 hge, fun s hs => (hiff s hs).2.2.2.2⟩
  · rintro ⟨hq, ha, hstored, hge, hroom⟩
    refine ⟨j, dep, h.link, h.deposit, h.pending, h.linked, fun s p reply now hs hp => ?_⟩
    obtain ⟨hle, hge⟩ := enough_iff.1 hge
    refine (h.activates_iff (hlater s hs) hp).2 ⟨hq, ha, hstored, ⟨hle, hge.trans ?_⟩, hroom s hs⟩
    have hbal := (hlater s hs).balance
    linarith

/-! ## Invoices the requests issue -/

theorem getCurrencyByCode_self {c : ℕ} {r : ℕ × Currency} (hf : FineCodes db.currencies)
    (hc : db.currencies.row c = some cur) (h : getCurrencyByCode db cur.code = .ok r) : r.2 = cur := by
  obtain ⟨i, cur'⟩ := r
  have hrow := getCurrencyByCode_ok h
  unfold getCurrencyByCode at h
  split at h
  · cases h
  · rename_i i' l hids
    obtain ⟨cur₁, hcur₁, hr⟩ := bind_ok.1 h
    obtain ⟨rfl, rfl⟩ := Prod.mk.inj (pure_ok.1 hr)
    have hmem : i' ∈ db.currencies.ids fun c => c.code == cur.code.toUpper && c.is_active := by
      rw [hids]
      exact List.mem_cons_self
    obtain ⟨cur₂, hcur₂, hp⟩ := Table.mem_ids.1 hmem
    cases hrow.symm.trans hcur₂
    rw [Bool.and_eq_true, beq_iff_eq, hf.upper c cur hc] at hp
    obtain rfl := hf.unique _ _ _ _ hrow hc hp.1
    exact Option.some.inj (hrow.symm.trans hc)

/-- An invoice for a number of the currency is stored at that number. -/
theorem createDepositInvoice_amount {c : ℕ} {provider : String} {purpose : Purpose} {m : Bool} {r : ℕ × Db}
    (hf : FineCodes db.currencies) (hc : db.currencies.row c = some cur) (hx : IsGrid cur.decimals x)
    (h : createDepositInvoice db u cur.code x purpose provider m reply now = .ok r) :
    ∃ dep : WalletDeposit, dep.status = .pending ∧ store x = .ok dep.amount ∧
      r = (db.wallet_deposits.next, { db with wallet_deposits := db.wallet_deposits.insert dep }) := by
  simp only [createDepositInvoice, bind_ok] at h
  obtain ⟨⟨c', cur'⟩, hcur, y, hq, -, -, ⟨p, pid⟩, -, a, ha, h⟩ := h
  obtain rfl : cur' = cur := getCurrencyByCode_self hf hc hcur
  rw [quantizeMoney_of_grid hx hq] at ha
  simp only [insertDeposit, bind_ok, pure_ok] at h
  obtain ⟨-, -, rfl⟩ := h
  exact ⟨_, rfl, ha, rfl⟩

/-- Linking the invoice to the deal makes it the one the deal waits for. -/
theorem linkDeposit_invoiced (hr : db.deals.row k = some d) (hw : d.status = .pending_topup) (hpend : dep.status = .pending)
    (hc : db.currencies.row d.currency_id = some cur) (hA : 0 ≤ d.amount.val) (hC : 0 ≤ d.commission)
    (hdep : 0 ≤ dep.amount.val) :
    Invoiced (linkDeposit { db with wallet_deposits := db.wallet_deposits.insert dep } k db.wallet_deposits.next) k
      db.wallet_deposits.next { d with topup_deposit_id := some db.wallet_deposits.next }
      { dep with linked_deal_id := some k } cur := by
  obtain ⟨hdeals, hdeps⟩ := linkDeposit_new k dep hr
  refine ⟨?_, hw, rfl, ?_, hpend, rfl, hc, hA, hC, hdep⟩
  · rw [hdeals, Table.set_row hr, if_pos rfl]
  · rw [hdeps, Table.insert_row, if_pos rfl]

/-! ## What is outstanding -/

/-- The deal and the buyer's balance have these numbers. -/
structure Outstanding.Of (o : Outstanding) (db : Db) (d : Deal) (cur : Currency) : Prop where
  buyer : o.buyer_id = d.buyer_id
  currency : o.currency_id = d.currency_id
  decimals : o.decimals = cur.decimals
  amount : roundTo cur.decimals d.amount.val = stored o.amount
  commission : d.due cur = stored o.commission
  balance : (db.balance d.buyer_id d.currency_id).amount.val = o.balance
  fits : Quantises cur.decimals d.amount.val ∧ Quantises cur.decimals d.commission ↔
    Quantises cur.decimals (stored o.amount) ∧ Quantises cur.decimals (stored o.commission)

/-- And the deal waits for the invoice. -/
structure Outstanding.Issued (o : Outstanding) (db : Db) (k j : ℕ) (d : Deal) (dep : WalletDeposit) (cur : Currency) :
    Prop where
  of : o.Of db d cur
  invoiced : Invoiced db k j d dep cur
  positive : 0 < o.invoice
  amount : dep.amount.val = stored o.invoice
  grid : IsGrid cur.decimals dep.amount.val
  enough : stored o.commission ≤ stored o.invoice

variable {o : Outstanding} {L : Db → Prop}

theorem Outstanding.Of.enough_iff (h : o.Of db d cur) : Enough db d cur x ↔ o.needed ≤ x := by
  rw [Enough, Outstanding.needed, h.amount, h.commission, h.balance]

theorem noDeadEnd_waiting (hr : db.deals.row k = some d) (hw : d.status = .pending_topup) :
    NoDeadEnd L (.ok db) k ↔ Payable L db k d := by
  constructor
  · intro h
    exact h.2 db d rfl hr hw
  · intro h
    refine ⟨by rintro ⟨⟩, ?_⟩
    intro db' d' hdb hr' hw'
    cases hdb
    cases hr.symm.trans hr'
    exact h

theorem Outstanding.Issued.noDeadEnd_iff (h : o.Issued db k j d dep cur) (hL : Meanwhile db k L) :
    NoDeadEnd L (.ok db) k ↔ o.Settles L := by
  have hround : roundTo cur.decimals dep.amount.val = stored o.invoice := by rw [roundTo_of_grid h.grid, h.amount]
  have hpayment : o.payment = stored o.invoice := if_pos h.positive
  have hstorable : Storable (stored o.invoice) := ⟨dep.amount, h.amount ▸ store_val _⟩
  rw [noDeadEnd_waiting h.invoiced.deal h.invoiced.waiting, h.invoiced.payable_iff hL, hround, h.of.enough_iff,
    h.of.amount, h.of.commission, ← h.of.buyer, ← h.of.currency, h.of.fits, ← h.of.decimals, h.amount]
  constructor
  · rintro ⟨hfits, ha, -, he, hroom⟩
    exact ⟨⟨hfits, fun _ => ⟨ha, he⟩, fun hle => absurd h.positive (not_lt.2 hle)⟩, hpayment ▸ hroom⟩
  · rintro ⟨hc, hroom⟩
    obtain ⟨ha, he⟩ := hc.issued h.positive
    exact ⟨hc.fits, ha, hstorable, he, hpayment ▸ hroom⟩

theorem pendingInvoice_eq_some : db.pendingInvoice k d = some x ↔ ∃ j dep, d.topup_deposit_id = some j ∧
    db.wallet_deposits.row j = some dep ∧ dep.status = .pending ∧ dep.linked_deal_id = some k ∧ x = dep.amount.val := by
  simp only [Db.pendingInvoice, Option.bind_eq_some_iff, Option.ite_none_right_eq_some, Option.some.injEq]
  constructor
  · rintro ⟨j, hj, dep, hdep, ⟨hs, hl⟩, rfl⟩
    exact ⟨j, dep, hj, hdep, hs, hl, rfl⟩
  · rintro ⟨j, dep, hj, hdep, hs, hl, rfl⟩
    exact ⟨j, hj, dep, hdep, ⟨hs, hl⟩, rfl⟩

/-- With nothing to invoice the deal waits for the invoice it had, if any. -/
theorem Outstanding.Of.noDeadEnd_iff (h : o.Of db d cur) (hL : Meanwhile db k L) (hr : db.deals.row k = some d)
    (hw : d.status = .pending_topup) (hcur : db.currencies.row d.currency_id = some cur) (hA0 : 0 ≤ d.amount.val)
    (hC0 : 0 ≤ d.commission) (hdeps : ∀ j dep, db.wallet_deposits.row j = some dep → 0 ≤ dep.amount.val)
    (hsmall : o.invoice ≤ 0) (holder : o.older = db.pendingInvoice k d) :
    NoDeadEnd L (.ok db) k ↔ o.Settles L := by
  rw [noDeadEnd_waiting hr hw]
  have hpayable {j : ℕ} {dep : WalletDeposit} (hlink : d.topup_deposit_id = some j)
      (hdep : db.wallet_deposits.row j = some dep) (hs : dep.status = .pending) (hl : dep.linked_deal_id = some k) :=
    (Invoiced.mk hr hw hlink hdep hs hl hcur hA0 hC0 (hdeps j dep hdep)).payable_iff hL
  constructor
  · intro hp
    obtain ⟨j, dep, hlink, hdep, hs, hl, -⟩ := id hp
    have hold : o.older = some dep.amount.val := by
      rw [holder]
      exact pendingInvoice_eq_some.2 ⟨j, dep, hlink, hdep, hs, hl, rfl⟩
    have hpayment : o.payment = roundTo o.decimals dep.amount.val := by
      rw [Outstanding.payment, if_neg (not_lt.2 hsmall), hold, Option.getD_some]
    obtain ⟨⟨hA, hC⟩, ha, hstored, he, hroom⟩ := (hpayable hlink hdep hs hl).1 hp
    refine ⟨⟨?_, fun hpos => absurd hpos (not_lt.2 hsmall), fun _ => ⟨dep.amount.val, hold, ?_⟩⟩, fun s hs => ?_⟩
    · rw [h.decimals]
      exact h.fits.1 ⟨hA, hC⟩
    · rw [h.decimals]
      exact ⟨ha, hstored, h.enough_iff.1 he⟩
    · rw [hpayment, h.buyer, h.currency, h.decimals, ← h.amount, ← h.commission]
      exact hroom s hs
  · rintro ⟨hc, hroom⟩
    obtain ⟨a, hold, ha, hstored, he⟩ := hc.older hsmall
    have hpayment : o.payment = roundTo o.decimals a := by
      rw [Outstanding.payment, if_neg (not_lt.2 hsmall), hold, Option.getD_some]
    have hfits := hc.fits
    rw [hpayment] at hroom
    rw [h.decimals] at hfits ha hstored he hroom
    rw [holder] at hold
    obtain ⟨j, dep, hlink, hdep, hs, hl, rfl⟩ := pendingInvoice_eq_some.1 hold
    obtain ⟨hA, hC⟩ := h.fits.2 hfits
    refine (hpayable hlink hdep hs hl).2 ⟨⟨hA, hC⟩, ha, hstored, h.enough_iff.2 he, fun s hs => ?_⟩
    rw [← h.buyer, ← h.currency, h.amount, h.commission]
    exact hroom s hs

/-! ## Creation -/

/-- How a deal's creation ends: paid from the balance, refused because there is
nothing to invoice, or waiting for its invoice. -/
inductive Created (db : Db) (b c : ℕ) (cur : Currency) (amt com : ℚ) : Result Db → Prop
  | funded {db' : Db} (hle : amt + com ≤ (db.balance b c).amount.val)
      (hst : ∀ d, db'.deals.row db.deals.next = some d → d.status ≠ .pending_topup) : Created db b c cur amt com (.ok db')
  | refused (hlt : (db.balance b c).amount.val < amt + com)
      (hsmall : (Outstanding.created b c cur amt com (db.balance b c).amount.val).invoice ≤ 0) :
      Created db b c cur amt com (.error commissionTooSmall)
  | waiting {db' : Db} {j : ℕ} {d : Deal} {dep : WalletDeposit} (hlt : (db.balance b c).amount.val < amt + com)
      (hi : (Outstanding.created b c cur amt com (db.balance b c).amount.val).Issued db' db.deals.next j d dep cur) :
      Created db b c cur amt com (.ok db')

theorem createDealWithTopup_created {b se c : ℕ} {code provider : String} {amount : Option ℚ} {com : ℚ} {r : Result Db}
    (hf : FineRows db) (ht : dealTerms db b se code amount = .ok (c, cur, amt, com))
    (h : createDealWithTopup db b se code amount provider reply now = r)
    (hr : (∃ db', r = .ok db') ∨ r = .error commissionTooSmall) : Created db b c cur amt com r := by
  obtain ⟨-, hcur, hpos, hgrid, -, -⟩ := dealTerms_ok ht
  obtain ⟨hgridc, hcom0⟩ := dealTerms_commission hf.rate ht
  -- a step that raises something else does not end like this
  have hstep {α : Type} {x : Result α} {f : α → Result Db} (hx : Avoids commissionTooSmall x) (h : x >>= f = r) :
      ∃ a, x = .ok a ∧ f a = r := by
    cases hxa : x with
    | ok a => exact ⟨a, rfl, by rw [hxa] at h; exact h⟩
    | error e =>
      rw [hxa] at h
      rcases hr with ⟨db', rfl⟩ | rfl
      · cases h
      · cases h
        exact absurd hxa hx
  have hquantize {q : ℚ} {n : ℕ} : Avoids commissionTooSmall (quantizeMoney q n) := .orRaise (by rintro ⟨⟩)
  have hstore {q : ℚ} : Avoids commissionTooSmall (store q) := store_avoids (by rintro ⟨⟩) q
  simp only [createDealWithTopup, ht, ok_bind, balance_lockUserBalance] at h
  obtain ⟨needed, hneeded, h⟩ := hstep hquantize h
  obtain ⟨principal, hprincipal, h⟩ := hstep hquantize h
  obtain ⟨total, htotal, h⟩ := hstep hquantize h
  obtain ⟨A, hA, h⟩ := hstep hstore h
  obtain ⟨C, hC, h⟩ := hstep hstore h
  have hneeded : needed = amt + com :=
    quantize_ctx (by norm_num [prec]) (hgrid.add hgridc) (quantizeMoney_ok.1 hneeded)
  rw [hneeded] at h
  have hdeals : (lockUserBalance db b c).deals = db.deals := (lockUserBalance_moneyless db b c).1
  split at h
  · rename_i hle
    obtain ⟨db', hch⟩ : ∃ db', r = .ok db' := by
      rcases hr with hr | hr
      · exact hr
      · rw [hr] at h
        exact absurd h (changeBalance_avoids (by rintro ⟨⟩))
    rw [hch] at h ⊢
    obtain ⟨bal, -, -, hm⟩ := changeBalance_ok (dealRef_ne (by decide) _) h
    refine .funded hle ?_
    intro d hd
    rw [hm.deals] at hd
    simp only [insertDeal, hdeals, Table.insert_row, if_true, Option.some.injEq] at hd
    rw [← hd]
    rintro ⟨⟩
  · rename_i hlt
    have hexact (hs : total ≤ 0 ∨ ∃ v, store total = .ok v) :=
      create_invoice_exact hgrid (Numeric.isGrid _) hgridc hcom0 hprincipal htotal hs
    by_cases hsmall : total ≤ 0
    · -- nothing to invoice
      have hend : (.error commissionTooSmall : Result Db) = r := by
        rw [← h, raiseIf, if_pos hsmall]
        rfl
      rw [← hend]
      refine .refused (not_le.1 hlt) ?_
      exact (hexact (.inl hsmall)).symm.trans_le hsmall
    · have hraise : raiseIf (total ≤ 0) commissionTooSmall = .ok () := raiseIf_ok.2 hsmall
      have h := (congrArg (· >>= _) hraise).symm.trans h
      rw [ok_bind] at h
      obtain ⟨⟨j, db₁⟩, hinv, rfl⟩ := hstep (createDepositInvoice_avoids trivial fun _ _ _ => hquantize) h
      set deal := newDeal b se c A C .pending_topup provider false now with hdeal
      set db₀ := insertDeal (lockUserBalance db b c) deal with hdb₀
      have hc₀ : db₀.currencies.row c = some cur := by
        show (lockUserBalance db b c).currencies.row c = some cur
        rw [(lockUserBalance_moneyless db b c).2, hcur]
      have hcodes : FineCodes db₀.currencies := by
        show FineCodes (lockUserBalance db b c).currencies
        rw [(lockUserBalance_moneyless db b c).2]
        exact hf.codes
      have hprincipal_grid := quantizeMoney_grid hprincipal
      have htotal_grid := quantizeMoney_grid htotal
      obtain ⟨dep, hpend, hdep, hrow⟩ := createDepositInvoice_amount hcodes hc₀ htotal_grid hinv
      obtain ⟨rfl, rfl⟩ := Prod.mk.inj hrow
      have htot := hexact (.inr ⟨_, hdep⟩)
      have hk : db₀.deals.row db.deals.next = some deal := by
        show ((lockUserBalance db b c).deals.insert deal).row db.deals.next = some deal
        rw [hdeals, Table.insert_row, if_pos rfl]
      have hcomval : deal.commission = stored com := store_stored hC
      have hdue : deal.due cur = stored com := by
        show roundTo cur.decimals deal.commission = stored com
        rw [hcomval, ← store_stored hC]
        exact roundTo_of_grid (store_keeps_grid hgridc hC)
      have hle : stored com ≤ stored total := by
        refine stored_mono hcom0 ?_
        rw [htot]
        exact le_add_of_nonneg_left (roundTo_nonneg (le_max_left _ _))
      rw [not_le] at hsmall
      rw [htot] at hsmall hdep hle
      have hinvoiced := linkDeposit_invoiced hk rfl hpend hc₀ (store_nonneg hpos.le hA)
        (hcomval ▸ store_stored hC ▸ store_nonneg hcom0 hC) (store_nonneg hsmall.le hdep)
      rw [hdeals]
      refine .waiting (not_le.1 hlt) (Outstanding.Issued.mk ?_ hinvoiced hsmall (store_stored hdep) ?_ ?_)
      · refine ⟨rfl, rfl, rfl, ?_, hdue, congrArg (·.amount.val) (balance_lockUserBalance db b c b c), ?_⟩
        · exact (roundTo_of_grid (store_keeps_grid hgrid hA)).trans (store_stored hA)
        · rw [Outstanding.created, ← store_stored hA, ← hcomval]
          rfl
      · exact store_keeps_grid (htot ▸ htotal_grid) hdep
      · exact hle

/-! ## Payments -/

/-- The invoice for what remains after a payment. -/
theorem issueRemainingTopupInvoice_noDeadEnd (hf : FineCodes db.currencies) (hr : db.deals.row k = some d)
    (hw : d.status = .pending_topup) (hc : db.currencies.row d.currency_id = some cur) (hA0 : 0 ≤ d.amount.val)
    (hC0 : 0 ≤ d.commission) (hdeps : ∀ j dep, db.wallet_deposits.row j = some dep → 0 ≤ dep.amount.val)
    (hdue : topupDue d cur = .ok (amt, due)) (hx : IsGrid (max cur.decimals 8) x)
    (hbal : (db.balance d.buyer_id d.currency_id).amount.val = stored (ctx prec x))
    (h : issueRemainingTopupInvoice db k d cur (ctx prec x) reply now = .ok db') (hL : Meanwhile db' k L) :
    NoDeadEnd L (.ok db') k ↔
      (Outstanding.remaining d.buyer_id d.currency_id cur amt due x (db.pendingInvoice k d)).Settles L := by
  simp only [issueRemainingTopupInvoice, hdue, bind_ok] at h
  obtain ⟨_, -, _, hr', total, htotal, h⟩ := h
  cases hr'
  obtain ⟨hQA, hQC, hpair⟩ := topupDue_ok_iff.1 hdue
  obtain ⟨rfl, rfl⟩ := Prod.mk.inj hpair
  change quantizeMoney (plus _ (d.due cur)) _ = _ at htotal
  have hdue0 : 0 ≤ d.due cur := due_nonneg hC0
  have hA8 := roundTo_money_grid cur.decimals d.amount
  have hexact (hs : total ≤ 0 ∨ ∃ v, store total = .ok v) :
      total = roundTo cur.decimals (max 0 (roundTo cur.decimals d.amount.val - x) + d.due cur) :=
    remaining_invoice_exact (hA8.mono (le_max_right _ _)) (roundTo_nonneg hA0) (amount_le_range hQA) hx
      ((due_grid8 d cur).mono (le_max_right _ _)) hdue0 htotal hs
  -- the numbers that were rounded once are not rounded again
  have hQD : Quantises cur.decimals (d.due cur) := by
    unfold Deal.due
    split
    · exact quantises_of_ok (quantizeMoney_ok_iff.2 ⟨hQC.mono le_rfl hC0, rfl⟩)
    · exact hQC.round
  have hof {db₀ : Db} {l : Option ℕ}
      (hbal₀ : (db₀.balance d.buyer_id d.currency_id).amount.val = stored (ctx prec x)) :
      (Outstanding.remaining d.buyer_id d.currency_id cur (roundTo cur.decimals d.amount.val) (d.due cur) x
        (db.pendingInvoice k d)).Of db₀
        { d with topup_deposit_id := l } cur := by
    refine ⟨rfl, rfl, rfl, (stored_of_grid hA8).symm, (stored_of_grid (due_grid8 d cur)).symm, hbal₀, ?_⟩
    rw [Outstanding.remaining, stored_of_grid hA8, stored_of_grid (due_grid8 d cur)]
    exact iff_of_true ⟨hQA, hQC⟩ ⟨hQA.round, hQD⟩
  split at h
  · rename_i hsmall
    obtain rfl := pure_ok.1 h
    exact (hof (l := d.topup_deposit_id) hbal).noDeadEnd_iff hL hr hw hc hA0 hC0 hdeps
      ((hexact (.inl hsmall)).symm.trans_le hsmall) rfl
  · rename_i hpos
    rw [not_le] at hpos
    obtain ⟨⟨j, db₁⟩, hinv, h⟩ := bind_ok.1 h
    obtain rfl := pure_ok.1 h
    have htotal_grid := quantizeMoney_grid htotal
    obtain ⟨dep, hpend, hdep, hrow⟩ := createDepositInvoice_amount hf hc htotal_grid hinv
    obtain ⟨rfl, rfl⟩ := Prod.mk.inj hrow
    have htot := hexact (.inr ⟨_, hdep⟩)
    have hgrid := store_keeps_grid htotal_grid hdep
    have hle : stored (d.due cur) ≤ stored total := by
      refine stored_mono hdue0 ?_
      rw [htot]
      exact le_roundTo_of_le (due_grid_decimals d cur) (le_add_of_nonneg_left (le_max_left _ _))
    have hinvoiced := linkDeposit_invoiced hr hw hpend hc hA0 hC0 (store_nonneg hpos.le hdep)
    have hamount := store_stored hdep
    rw [htot] at hpos hle hamount
    refine (Outstanding.Issued.mk (hof ?_) hinvoiced hpos hamount hgrid hle).noDeadEnd_iff hL
    exact hbal

/-- The database after a payment is credited and before the next invoice: the
deal is `e`, and the paid deposit has changed in nothing but its status. -/
structure Credited (db db₂ : Db) (j k : ℕ) (dep : WalletDeposit) (d e : Deal) (bal : UserBalance) : Prop where
  currencies : db₂.currencies = db.currencies
  deal : db₂.deals.row k = some e
  same : SameDeal d e ∧ e.status = d.status ∧ e.topup_deposit_id = d.topup_deposit_id
  balance : db₂.balance d.buyer_id d.currency_id = bal
  deposits : ∃ dep', dep'.status = .paid ∧ dep'.amount = dep.amount ∧ db₂.wallet_deposits = db.wallet_deposits.set j dep'

section
variable {db₂ : Db} {e : Deal} {bal : UserBalance}

/-- Paying one invoice leaves the others. -/
theorem Credited.pendingInvoice (h : Credited db db₂ j k dep d e bal) (hj : db.wallet_deposits.row j = some dep) :
    db₂.pendingInvoice k e = (db.setDeposit j { dep with status := .paid }).pendingInvoice k d := by
  obtain ⟨dep', hpaid, -, hdeps⟩ := h.deposits
  ext x
  rw [pendingInvoice_eq_some, pendingInvoice_eq_some, h.same.2.2]
  refine exists_congr fun i => exists_congr fun e => and_congr_right fun _ => ?_
  simp only [Db.setDeposit, hdeps, Table.set_row hj]
  by_cases hij : i = j
  · simp only [hij, if_true, Option.some.injEq]
    constructor
    · rintro ⟨rfl, hp, -⟩
      cases hpaid.symm.trans hp
    · rintro ⟨rfl, hp, -⟩
      cases hp
  · simp only [if_neg hij]

theorem Credited.deposits_nonneg (h : Credited db db₂ j k dep d e bal) (hf : FineRows db)
    (hj : db.wallet_deposits.row j = some dep) (i : ℕ) (x : WalletDeposit) (hx : db₂.wallet_deposits.row i = some x) :
    0 ≤ x.amount.val := by
  obtain ⟨dep', -, ham, hdeps⟩ := h.deposits
  rw [hdeps, Table.set_row hj] at hx
  split at hx
  · cases hx
    exact ham ▸ hf.deposits j dep hj
  · exact hf.deposits i x hx

theorem Credited.noDeadEnd_iff (h : Credited db db₂ j k dep d e bal) (hf : FineRows db)
    (hj : db.wallet_deposits.row j = some dep) (hr : db.deals.row k = some d) (hw : d.status = .pending_topup)
    (hc : db.currencies.row d.currency_id = some cur) (hdue : topupDue e cur = .ok (amt, due))
    (hx : IsGrid (max cur.decimals 8) x) (hbal : store (ctx prec x) = .ok bal.amount)
    (hi : issueRemainingTopupInvoice db₂ k e cur (ctx prec x) reply now = .ok db') (hL : Meanwhile db' k L) :
    NoDeadEnd L (.ok db') k ↔ (Outstanding.remaining d.buyer_id d.currency_id cur amt due x
      ((db.setDeposit j { dep with status := .paid }).pendingInvoice k d)).Settles L := by
  obtain ⟨hA0, hC0⟩ := hf.deals k d hr
  obtain ⟨⟨⟨hb, -, hcu, ham⟩, hcom⟩, hst, -⟩ := h.same
  have hcom : e.commission = d.commission := by rw [Deal.commission, Deal.commission, hcom]
  rw [← h.pendingInvoice hj, ← hb, ← hcu]
  refine issueRemainingTopupInvoice_noDeadEnd ?_ h.deal (hst.trans hw) ?_ ?_ ?_ (h.deposits_nonneg hf hj) hdue hx ?_ hi hL
  · rw [h.currencies]
    exact hf.codes
  · rw [h.currencies, hcu]
    exact hc
  · rw [ham]
    exact hA0
  · rw [hcom]
    exact hC0
  · rw [hb, hcu, h.balance]
    exact store_stored hbal

end

/-- How a payment ends: short of the commission, short of the amount, or with an active deal. -/
theorem settleTopup_noDeadEnd {p : ℚ} (hf : FineRows db) (hj : db.wallet_deposits.row j = some dep)
    (hr : db.deals.row k = some d) (hw : d.status = .pending_topup) (hc : db.currencies.row d.currency_id = some cur)
    (hdue : topupDue d cur = .ok (amt, due)) (hp : IsGrid cur.decimals p)
    (h : settleTopup db j dep k d cur p reply now = .ok db') (hL : Meanwhile db' k L) :
    NoDeadEnd L (.ok db') k ↔
      (p < due → (Outstanding.remaining d.buyer_id d.currency_id cur amt due
        ((db.balance d.buyer_id d.currency_id).amount.val + p)
        ((db.setDeposit j { dep with status := .paid }).pendingInvoice k d)).Settles L) ∧
      (due ≤ p → (db.balance d.buyer_id d.currency_id).amount.val + (p - due) < amt →
        (Outstanding.remaining d.buyer_id d.currency_id cur amt 0
          ((db.balance d.buyer_id d.currency_id).amount.val + (p - due))
          ((db.setDeposit j { dep with status := .paid }).pendingInvoice k d)).Settles L) := by
  obtain ⟨hA0, hC0⟩ := hf.deals k d hr
  obtain ⟨hQA, hQC, hpair⟩ := topupDue_ok_iff.1 hdue
  obtain ⟨rfl, hdue'⟩ := Prod.mk.inj hpair
  change due = d.due cur at hdue'
  have hdue_grid : IsGrid cur.decimals due := by
    rw [hdue']
    exact due_grid_decimals d cur
  have hdue0 : 0 ≤ due := by
    rw [hdue']
    exact due_nonneg hC0
  have hx {y : ℚ} (hy : IsGrid cur.decimals y) :
      IsGrid (max cur.decimals 8) ((db.balance d.buyer_id d.currency_id).amount.val + y) :=
    ((Numeric.isGrid _).mono (le_max_right _ _)).add (hy.mono (le_max_left _ _))
  have hcredit {credit : ℚ} (hq : quantizeMoney (minus p due) cur.decimals = .ok credit) : credit = p - due :=
    quantize_ctx (by norm_num [prec]) (hp.sub hdue_grid) (quantizeMoney_ok.1 hq)
  have hlt_iff := ctx_lt_iff (hx (hp.sub hdue_grid)) (roundTo_nonneg hA0) (amount_le_range hQA)
  obtain ⟨amt', due', rep, bal, db₁, hdue₁, hrep, hm, hs⟩ := settleTopup_ok h
  cases hdue.symm.trans hdue₁
  have hbal₁ : db₁.balance d.buyer_id d.currency_id = bal := by rw [hm.balance, if_pos ⟨rfl, rfl⟩]
  have hdeps₁ : ∃ dep' : WalletDeposit, dep'.status = .paid ∧ dep'.amount = dep.amount ∧
      db₁.wallet_deposits.set j (dep.settle now (some rep)) = db.wallet_deposits.set j dep' :=
    ⟨dep.settle now (some rep), rfl, rfl, by rw [hm.deposits]⟩
  have hr₁ : db₁.deals.row k = some d := by rw [hm.deals, hr]
  cases hs with
  | short hlt ha hl hi =>
    have hcr : Credited db (db₁.setDeposit j (dep.settle now (some rep))) j k dep d d bal :=
      ⟨hm.currencies, hr₁, ⟨.refl d, rfl, rfl⟩, hbal₁, hdeps₁⟩
    rw [hcr.noDeadEnd_iff hf hj hr hw hc hdue (hx hp) ha hi hL, imp_iff_right hlt,
      and_iff_left fun hle => absurd hlt (not_lt.2 hle)]
  | @partly credit e db' hle hq hlt ha hl he hi =>
    obtain rfl := hcredit hq
    have hdue₂ : topupDue e cur = .ok (roundTo cur.decimals d.amount.val, 0) := by
      rw [he]
      exact topupDue_collected hdue0 hdue
    have hre : (db₁.deals.set k e).row k = some e := by rw [Table.set_row hr₁, if_pos rfl]
    have hsame : SameDeal d e ∧ e.status = d.status ∧ e.topup_deposit_id = d.topup_deposit_id := by
      rw [he]
      exact ⟨.refl d, rfl, rfl⟩
    have hcr : Credited db ((db₁.setDeal k e).setDeposit j (dep.settle now (some rep))) j k dep d e bal :=
      ⟨hm.currencies, hre, hsame, hbal₁, hdeps₁⟩
    rw [hcr.noDeadEnd_iff hf hj hr hw hc hdue₂ (hx (hp.sub hdue_grid)) ha hi hL, imp_iff_right (hlt_iff.1 hlt),
      imp_iff_right hle, and_iff_right fun hlt => absurd hlt (not_lt.2 hle)]
  | activated hle hq hge ha hl =>
    obtain rfl := hcredit hq
    refine iff_of_true ⟨by rintro ⟨⟩, ?_⟩ ⟨fun hlt => absurd hlt (not_lt.2 hle), fun _ hlt => ?_⟩
    · intro db' e hdb he hst
      cases hdb
      change (db₁.deals.set k { d with status := .pending_confirmation, commission_paid := true }).row k = some e at he
      rw [Table.set_row hr₁, if_pos rfl] at he
      cases he
      cases hst
    · exact absurd (hlt_iff.2 hlt) (not_lt.2 hge)

/-- A payment does not complain about the commission. -/
theorem settleTopup_avoids (p : ℚ) : Avoids commissionTooSmall (settleTopup db j dep k d cur p reply now) := by
  have hquantize {q : ℚ} {n : ℕ} : Avoids commissionTooSmall (quantizeMoney q n) := .orRaise (by rintro ⟨⟩)
  have hdue (e : Deal) : Avoids commissionTooSmall (topupDue e cur) :=
    hquantize.bind fun _ _ => hquantize.bind fun _ _ => .pure _
  have hvanished : (.value_error "buyer vanished" : Exc) ≠ commissionTooSmall := by
    simp [commissionTooSmall]
  have hforeign : Foreign commissionTooSmall := trivial
  have hissue (db₀ : Db) (e : Deal) (x : ℚ) :
      Avoids commissionTooSmall (issueRemainingTopupInvoice db₀ k e cur x reply now) := by
    refine (Avoids.orRaise hvanished).bind fun _ _ => (hdue e).bind fun r _ => hquantize.bind fun total _ => ?_
    split
    · exact .pure _
    · exact (createDepositInvoice_avoids hforeign fun _ _ _ => hquantize).bind fun _ _ => .pure _
  have hchange {u c : ℕ} {x y : ℚ} {ref : LedgerRef} : Avoids commissionTooSmall (changeBalance db u c x y ref) :=
    changeBalance_avoids (by rintro ⟨⟩)
  refine (hdue d).bind fun r _ => (store_avoids (by rintro ⟨⟩) p).bind fun _ _ => ?_
  split
  · exact hchange.bind fun _ _ => hissue _ _ _
  · refine hquantize.bind fun credit _ => ?_
    dsimp only
    split
    · exact hchange.bind fun _ _ => hissue _ _ _
    · exact hchange.bind fun _ _ => .pure _

/-- A request that leaves the deal waiting leaves it an invoice that will do
exactly when the numbers that are rounded on the way still add up, and the
buyer's balance has room for the activation whenever the invoice may be paid. -/
theorem waiting_deal_payable_iff {op : TopupRequest} (hf : FineRows db) (ha : op.About db k)
    (hends : (∃ db', op.run db = .ok db') ∨ op.run db = .error commissionTooSmall)
    (hL : ∀ db', op.run db = .ok db' → Meanwhile db' k L) :
    NoDeadEnd L (op.run db) k ↔ ∀ o, Waits db op k o → o.Settles L := by
  cases ha with
  | @create b se code amount provider reply now terms ht =>
    obtain ⟨c, cur, amt, com⟩ := terms
    have hcreated := createDealWithTopup_created hf ht rfl hends
    change NoDeadEnd L (createDealWithTopup db b se code amount provider reply now) _ ↔ _
    change ∀ db', createDealWithTopup db b se code amount provider reply now = .ok db' → _ at hL
    generalize createDealWithTopup db b se code amount provider reply now = r at hcreated hL
    cases hcreated with
    | funded hle hst =>
      refine iff_of_true ⟨by rintro ⟨⟩, ?_⟩ ?_
      · intro db' d hdb hd hw
        cases hdb
        exact absurd hw (hst d hd)
      · rintro o ⟨ht', hlt⟩
        cases ht.symm.trans ht'
        exact absurd hlt (not_lt.2 hle)
    | refused hlt hsmall =>
      refine iff_of_false (fun h => h.1 rfl) fun h => ?_
      obtain ⟨a, ha, -⟩ := (h _ (.create ht hlt)).covered.older hsmall
      cases ha
    | waiting hlt hi =>
      rw [hi.noDeadEnd_iff (hL _ rfl)]
      constructor
      · rintro hc o ⟨ht', hlt⟩
        cases ht.symm.trans ht'
        exact hc
      · intro h
        exact h _ (.create ht hlt)
  | @pay j k paid reply now dep d hj hunpaid hl hr hw =>
    change NoDeadEnd L (completeDealTopupPayment db j paid reply now) k ↔ _
    change ∀ db', completeDealTopupPayment db j paid reply now = .ok db' → _ at hL
    change (∃ db', completeDealTopupPayment db j paid reply now = .ok db') ∨
      completeDealTopupPayment db j paid reply now = .error commissionTooSmall at hends
    cases hc : db.currencies.row d.currency_id with
    | none =>
      have herror : completeDealTopupPayment db j paid reply now = .error currencyVanished := by
        have hrow : (orRaise (db.wallet_deposits.row j) .no_result : Result WalletDeposit) = .ok dep := orRaise_ok.2 hj
        simp only [completeDealTopupPayment, hrow, ok_bind, hunpaid, if_false, hl, hr, hc]
        rfl
      rw [herror] at hends
      simp [currencyVanished, commissionTooSmall] at hends
    | some cur =>
      rw [completeDealTopupPayment_waiting hj hunpaid hl hr hw hc] at hends hL ⊢
      have havoid : Avoids commissionTooSmall (quantizeMoney (paid.getD dep.amount.val) cur.decimals >>= fun p =>
          settleTopup db j dep k d cur p reply now) :=
        Avoids.bind (.orRaise (by rintro ⟨⟩)) fun p _ => settleTopup_avoids p
      obtain ⟨db', hrun⟩ := hends.resolve_right havoid
      rw [hrun]
      obtain ⟨p, hq, hs⟩ := bind_ok.1 hrun
      obtain ⟨-, hp⟩ := quantizeMoney_ok_iff.1 hq
      obtain ⟨amt, due, -, -, -, hdue, -⟩ := settleTopup_ok hs
      rw [settleTopup_noDeadEnd hf hj hr hw hc hdue (quantizeMoney_grid hq) hs (hL _ hrun)]
      constructor
      · rintro ⟨hshort, hpartly⟩ o hwaits
        cases hwaits with
        | short hj' hr' hc' hdue' hp' hlt =>
          cases hj.symm.trans hj'
          cases hr.symm.trans hr'
          cases hc.symm.trans hc'
          cases hdue.symm.trans hdue'
          rw [← hp] at hp'
          subst hp'
          exact hshort hlt
        | partly hj' hr' hc' hdue' hp' hle hlt =>
          cases hj.symm.trans hj'
          cases hr.symm.trans hr'
          cases hc.symm.trans hc'
          cases hdue.symm.trans hdue'
          rw [← hp] at hp'
          subst hp'
          exact hpartly hle hlt
      · intro h
        exact ⟨fun hlt => h _ (.short hj hr hc hdue hp hlt), fun hle hlt => h _ (.partly hj hr hc hdue hp hle hlt)⟩

end

/-! ## Two runs -/

theorem sampleDb_fineRows (n : ℕ) (v : Money) : FineRows (sampleDb n v) := by
  have hcur {i : ℕ} {c : Currency} (h : (sampleDb n v).currencies.row i = some c) : i = 1 ∧ c = sampleCurrency n := by
    change (Table.empty.insert (sampleCurrency n)).row i = some c at h
    rw [Table.insert_row] at h
    split at h
    · cases h
      exact ⟨‹_›, rfl⟩
    · cases h
  refine ⟨⟨?_, ?_⟩, ?_, ?_, ?_⟩
  · intro i c i' c' hi hi' _
    rw [(hcur hi).1, (hcur hi').1]
  · intro i c hi
    rw [(hcur hi).2]
    show "USDT".toUpper = "USDT"
    decide +kernel
  · show (0 : ℚ) ≤ (⟨500, by decide⟩ : Numeric 5 2).val
    decide +kernel
  · intro k d hk
    cases hk
  · intro j dep hj
    cases hj

/-- The buyer pays the invoice of 10.50 with nothing on the balance, or after a
deposit of 200 and another deal of 30. -/
def sampleMeanwhile (s : Db) : Prop :=
  Later sampleWaitingDb s 1 1 sampleWaitingDeal sampleWaitingDeposit ∧
    (s.balance 1 1 = UserBalance.zero ∨ s.balance 1 1 = ⟨⟨20000000000, by decide⟩, ⟨3000000000, by decide⟩⟩)

/-- Either way it activates the deal. -/
theorem sampleRequest_activates : NoDeadEnd sampleMeanwhile sampleRequest 1 := by
  have ht : dealTerms (sampleDb 2 ⟨0, by decide⟩) 1 2 "USDT" (some 10) = .ok (1, sampleCurrency 2, 10, 1 / 2) := by
    decide +kernel
  have habout : TopupRequest.About (sampleDb 2 ⟨0, by decide⟩)
      (.create 1 2 "USDT" (some 10) "cryptobot" (.invoice "IV1" "https://pay") 0) 1 := .create ht
  have hnow : Later sampleWaitingDb sampleWaitingDb 1 1 sampleWaitingDeal sampleWaitingDeposit :=
    ⟨⟨_, sampleWaitingDb_row, .refl _, rfl, rfl⟩, ⟨_, sampleWaitingDeposit_row, by decide, rfl, rfl⟩, rfl, le_rfl⟩
  have hlater : Meanwhile sampleWaitingDb 1 sampleMeanwhile := by
    refine ⟨⟨hnow, .inl (by decide +kernel)⟩, ?_⟩
    intro s hs j d dep hd hlink hdep _ _
    cases sampleWaitingDb_row.symm.trans hd
    cases hlink
    cases sampleWaitingDeposit_row.symm.trans hdep
    exact hs.1
  refine (waiting_deal_payable_iff (sampleDb_fineRows 2 ⟨0, by decide⟩) habout (.inl ⟨_, sampleRequest_ok⟩) ?_).2 ?_
  · intro db' hdb
    cases sampleRequest_ok.symm.trans hdb
    exact hlater
  rintro o ⟨ht', -⟩
  cases ht.symm.trans ht'
  refine ⟨⟨?_, fun _ => ?_, fun hle => ?_⟩, ?_⟩
  · unfold Quantises
    decide +kernel
  · unfold Quantises
    decide +kernel
  · exact absurd hle (by decide +kernel)
  · have hfits {x : ℚ} (h : (Numeric.ofRat 28 8 x).isSome = true) : Storable x := by
      obtain ⟨v, hv⟩ := Option.isSome_iff_exists.1 h
      exact ⟨v, orRaise_ok.2 hv⟩
    rintro s ⟨-, hbal⟩
    change Headroom (s.balance 1 1) _ _ _
    rcases hbal with hbal | hbal
    · rw [hbal]
      exact ⟨hfits (by decide +kernel), hfits (by decide +kernel), hfits (by decide +kernel), hfits (by decide +kernel)⟩
    · rw [hbal]
      exact ⟨hfits (by decide +kernel), hfits (by decide +kernel), hfits (by decide +kernel), hfits (by decide +kernel)⟩

/-- The fee is waived and the buyer lacks less than the smallest unit. -/
def sampleAlmostDb : Db :=
  { sampleDb 2 ⟨999999999, by decide⟩ with
    app_settings := { (sampleDb 2 ⟨0, money_zero_fits⟩).app_settings with deal_commission_percent := Numeric.zero 5 2 } }

/-- The exception a result is, if it is one. -/
def refusal {α : Type} : Result α → Option Exc
  | .ok _ => none
  | .error e => some e

theorem refused_of_check {α : Type} {x : Result α} {e : Exc} (h : refusal x = some e) : x = .error e := by
  cases x with
  | error e' => exact congrArg _ (Option.some.inj h)
  | ok a => cases h

/-- With 9.99999999 on the balance a deal of 10.00 is refused, and with 9.995 it
gets an invoice for the commission of 0.50 only, after which it goes on waiting. -/
theorem lowered_invoice_dead_end :
    createDealWithTopup sampleAlmostDb 1 2 "USDT" (some 10) "cryptobot" (.invoice "IV1" "https://pay") 0 =
        .error commissionTooSmall ∧
      ∃ db, createDealWithTopup (sampleDb 2 ⟨999500000, by decide⟩) 1 2 "USDT" (some 10) "cryptobot"
          (.invoice "IV1" "https://pay") 0 = .ok db ∧
        (∃ db', completeDealTopupPayment db 1 none (.error "") 0 = .ok db' ∧
          (db'.deals.row 1).map (·.status) = some .pending_topup ∧
          (db'.deals.row 1).map (·.topup_deposit_id) = some (some 1) ∧
          (db'.wallet_deposits.row 1).map (·.status) = some .paid) := by
  refine ⟨refused_of_check (by decide +kernel), ?_⟩
  have hrun : (createDealWithTopup (sampleDb 2 ⟨999500000, by decide⟩) 1 2 "USDT" (some 10) "cryptobot"
      (.invoice "IV1" "https://pay") 0).toOption.any (fun db => decide
        ((completeDealTopupPayment db 1 none (.error "") 0).toOption.any (fun db' =>
          decide ((db'.deals.row 1).map (·.status) = some .pending_topup ∧
            (db'.deals.row 1).map (·.topup_deposit_id) = some (some 1) ∧
            (db'.wallet_deposits.row 1).map (·.status) = some .paid)) = true)) = true := by decide +kernel
  obtain ⟨db, hdb, hpay⟩ := exists_ok hrun
  exact ⟨db, hdb, exists_ok hpay⟩

end Garant
