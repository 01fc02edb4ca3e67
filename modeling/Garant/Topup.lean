import Garant.Settlement
/-!
# Deals paid by top-up

A deal that `create_deal_with_topup` created, the payments of its linked
deposits, and the three ways of closing or removing it, in any order. The
buyer's funds grow by the payments less the commission, which is withheld once
(`Account`), as long as no payment arrives for a deal that was deleted.
-/
open Decimal Relation

namespace Garant

/-! ## The operations -/

inductive TopupOp
  | pay (deposit_id : ℕ) (paid_amount : Option ℚ) (reply : InvoiceReply) (now : Time)
  | cancel (user_id : ℕ) (now : Time)
  | sweep (picked : List ℕ) (now : Time)
  | delete

/-- The database, and what has happened to the deal so far: the deposits that
were linked to it, the payments that were processed, whether one of them set
`commission_paid`, and for each step what it added to the buyer's locked funds
and whether it took the deal from `pending_topup` to `pending_confirmation`. -/
structure Topup where
  deal_id : ℕ
  buyer_id : ℕ
  currency_id : ℕ
  db : Db
  deposits : List ℕ
  payments : List (ℕ × ℚ)
  commission_set : Bool
  moves : List (ℚ × Bool)

namespace Topup

/-- The deal as it was created. -/
def start (db : Db) (deal_id : ℕ) (deal : Deal) : Topup :=
  ⟨deal_id, deal.buyer_id, deal.currency_id, db, deal.topup_deposit_id.toList, [], false, []⟩

/-- Payments are delivered to the linked deposits. -/
def run (s : Topup) : TopupOp → Result Db
  | .pay j paid reply now => do
    raiseIf (j ∉ s.deposits) .no_result
    completeDealTopupPayment s.db j paid reply now
  | .cancel u now => cancelPendingTopup s.db s.deal_id u now
  | .sweep picked now => sweepPendingTopup s.db picked now
  | .delete => deleteDeal s.db s.deal_id

/-- The payment a step processes; a deposit that is paid already is not processed again. -/
def received (s : Topup) : TopupOp → List (ℕ × ℚ)
  | .pay j paid _ _ => match s.db.wallet_deposits.row j with
    | some deposit => if deposit.status = .paid then [] else [(j, paid.getD deposit.amount.val)]
    | none => []
  | _ => []

/-- The buyer's balance in the deal's currency. -/
def balance (s : Topup) (db : Db) : UserBalance := db.balance s.buyer_id s.currency_id

def observe (s : Topup) (op : TopupOp) (db : Db) : Topup :=
  let before := s.db.deals.row s.deal_id
  let after := db.deals.row s.deal_id
  { s with
    db
    deposits := match after.bind (·.topup_deposit_id) with
      | some k => if k ∈ s.deposits then s.deposits else s.deposits ++ [k]
      | none => s.deposits
    payments := s.payments ++ s.received op
    commission_set := s.commission_set || (before.any (!·.commission_paid) && after.any (·.commission_paid))
    moves := s.moves ++ [(max 0 ((s.balance db).locked.val - (s.balance s.db).locked.val),
      before.any (·.status = .pending_topup) && after.any (·.status = .pending_confirmation))] }

def exec (s : Topup) (op : TopupOp) : Result Topup := do
  let db ← s.run op
  pure (s.observe op db)

/-- The buyer's spendable and locked funds together. -/
def funds (s : Topup) : ℚ := (s.balance s.db).amount.val + (s.balance s.db).locked.val

end Topup

/-! ## What a step leaves of the deal and its deposits -/

/-- The parts of a deal that nothing changes. -/
def SameDeal (d d' : Deal) : Prop := SameTerms d d' ∧ d'.commission_amount = d.commission_amount

theorem SameDeal.refl (d : Deal) : SameDeal d d := ⟨⟨rfl, rfl, rfl, rfl⟩, rfl⟩

theorem SameDeal.trans {a b c : Deal} (h : SameDeal a b) (h' : SameDeal b c) : SameDeal a c := by
  obtain ⟨⟨h1, h2, h3, h4⟩, h5⟩ := h
  obtain ⟨⟨k1, k2, k3, k4⟩, k5⟩ := h'
  exact ⟨⟨k1.trans h1, k2.trans h2, k3.trans h3, k4.trans h4⟩, k5.trans h5⟩

/-- The deal is `d` before and `d'` after, its deposits stay linked, those in
`P` may be paid by it, and a new link points at an unpaid deposit. -/
structure Progress (db db' : Db) (i : ℕ) (d d' : Deal) (P : ℕ → Prop) : Prop where
  before : db.deals.row i = some d
  after : db'.deals.row i = some d'
  same : SameDeal d d'
  currencies : db'.currencies = db.currencies
  deposits : ∀ k dep, db.wallet_deposits.row k = some dep → ∃ dep', db'.wallet_deposits.row k = some dep' ∧
    dep'.linked_deal_id = dep.linked_deal_id ∧ (dep'.status = .paid → dep.status = .paid ∨ P k)
  link : ∀ k, d'.topup_deposit_id = some k → d.topup_deposit_id = some k ∨
    ∃ dep, db'.wallet_deposits.row k = some dep ∧ dep.linked_deal_id = some i ∧ dep.status ≠ .paid

section
variable {db db₁ db' : Db} {i j k : ℕ} {d d' : Deal} {P Q : ℕ → Prop} {dep : WalletDeposit} {now : Time} {cur : Currency}

theorem Progress.trans {d₁ : Deal} (h : Progress db db₁ i d d₁ P) (h' : Progress db₁ db' i d₁ d' fun _ => False) :
    Progress db db' i d d' P := by
  refine ⟨h.before, h'.after, h.same.trans h'.same, h'.currencies.trans h.currencies, ?_, ?_⟩
  · intro k dep hk
    obtain ⟨dep₁, hk₁, hl₁, hp₁⟩ := h.deposits k dep hk
    obtain ⟨dep₂, hk₂, hl₂, hp₂⟩ := h'.deposits k dep₁ hk₁
    exact ⟨dep₂, hk₂, hl₂.trans hl₁, fun hp => hp₁ ((hp₂ hp).resolve_right id)⟩
  · intro k hk
    rcases h'.link k hk with hk | hnew
    · rcases h.link k hk with hk | ⟨dep₁, hk₁, hl₁, hp₁⟩
      · exact .inl hk
      · obtain ⟨dep₂, hk₂, hl₂, hp₂⟩ := h'.deposits k dep₁ hk₁
        exact .inr ⟨dep₂, hk₂, hl₂.trans hl₁, fun hp => hp₁ ((hp₂ hp).resolve_right id)⟩
    · exact .inr hnew

/-- A first step that pays nothing and links nothing. -/
theorem Progress.after_still {d₁ : Deal} (h : Progress db db₁ i d d₁ fun _ => False)
    (hl : d₁.topup_deposit_id = d.topup_deposit_id) (h' : Progress db₁ db' i d₁ d' P) : Progress db db' i d d' P := by
  refine ⟨h.before, h'.after, h.same.trans h'.same, h'.currencies.trans h.currencies, ?_, fun k hk => hl ▸ h'.link k hk⟩
  intro k dep hk
  obtain ⟨dep₁, hk₁, hl₁, hp₁⟩ := h.deposits k dep hk
  obtain ⟨dep₂, hk₂, hl₂, hp₂⟩ := h'.deposits k dep₁ hk₁
  exact ⟨dep₂, hk₂, hl₂.trans hl₁, fun hp => (hp₂ hp).imp_left fun hp => (hp₁ hp).resolve_right id⟩

/-- Funds that move leave deals and deposits alone. -/
theorem Moved.progress {F : Prop} {u c : ℕ} {bal : UserBalance} (h : Moved F db db' u c bal)
    (hr : db.deals.row i = some d) : Progress db db' i d d P := by
  refine ⟨hr, by rw [h.deals, hr], .refl d, h.currencies, ?_, fun k hk => .inl hk⟩
  intro k dep hk
  exact ⟨dep, by rw [h.deposits, hk], rfl, .inl⟩

theorem Progress.refl (hr : db.deals.row i = some d) : Progress db db i d d P :=
  ⟨hr, hr, .refl d, rfl, fun _ dep hk => ⟨dep, hk, rfl, .inl⟩, fun _ hk => .inl hk⟩

/-- Settling the deposit of a payment. -/
theorem setDeposit_progress {dep' : WalletDeposit} (hr : db.deals.row i = some d)
    (hj : db.wallet_deposits.row j = some dep) (hl : dep'.linked_deal_id = dep.linked_deal_id)
    (hp : dep'.status = .paid → dep.status = .paid ∨ P j) : Progress db (db.setDeposit j dep') i d d P := by
  refine ⟨hr, hr, .refl d, rfl, ?_, fun k hk => .inl hk⟩
  intro k e hk
  simp only [Db.setDeposit]
  rw [Table.set_row hj]
  split
  · subst k
    cases hj.symm.trans hk
    exact ⟨dep', rfl, hl, hp⟩
  · exact ⟨e, hk, rfl, .inl⟩

/-- Rewriting the deal's row. -/
theorem setDeal_progress (hr : db.deals.row i = some d) (hs : SameDeal d d')
    (hl : d'.topup_deposit_id = d.topup_deposit_id) : Progress db (db.setDeal i d') i d d' P := by
  refine ⟨hr, ?_, hs, rfl, fun k dep hk => ⟨dep, hk, rfl, .inl⟩, fun k hk => .inl (hl ▸ hk)⟩
  simp only [Db.setDeal]
  rw [Table.set_row hr, if_pos rfl]

/-- Rewriting another deal's row. -/
theorem setDeal_other (hr : db.deals.row i = some d) (hk : i ≠ k) (e : Deal) : Progress db (db.setDeal k e) i d d P := by
  refine ⟨hr, ?_, .refl d, rfl, fun _ dep hk => ⟨dep, hk, rfl, .inl⟩, fun _ hk => .inl hk⟩
  simp only [Db.setDeal]
  rw [Table.set_row_ne hk, hr]

/-- Expiring a linked deposit. -/
theorem expireTopupDeposit_progress {e : Deal} (hr : db.deals.row i = some d) :
    Progress db (expireTopupDeposit db e) i d d P := by
  unfold expireTopupDeposit
  split
  · exact .refl hr
  split
  · exact .refl hr
  rename_i j _ dep hj
  split
  · refine setDeposit_progress hr hj rfl fun hp => ?_
    cases hp
  · exact .refl hr

theorem expireTopupDeposit_balances (db : Db) (e : Deal) : (expireTopupDeposit db e).user_balances = db.user_balances := by
  obtain ⟨t, ht⟩ := expireTopupDeposit_eq db e
  rw [ht]

/-- Linking a deposit that was just inserted. -/
theorem linkDeposit_new (i : ℕ) (dep : WalletDeposit) (hr : db.deals.row i = some d) :
    (linkDeposit { db with wallet_deposits := db.wallet_deposits.insert dep } i db.wallet_deposits.next).deals =
        db.deals.set i { d with topup_deposit_id := some db.wallet_deposits.next } ∧
      (linkDeposit { db with wallet_deposits := db.wallet_deposits.insert dep } i
        db.wallet_deposits.next).wallet_deposits = db.wallet_deposits.insert { dep with linked_deal_id := some i } := by
  constructor
  · simp only [linkDeposit, hr]
  · simp only [linkDeposit, Table.insert_row, if_true, Table.set_insert]

/-- A replacement invoice is a pending deposit linked to the deal. -/
theorem issueRemainingTopupInvoice_progress {x : ℚ} {reply : InvoiceReply} (hr : db.deals.row i = some d)
    {e : Deal} (h : issueRemainingTopupInvoice db i e cur x reply now = .ok db') :
    db'.user_balances = db.user_balances ∧ ∃ d', Progress db db' i d d' P ∧ d'.status = d.status ∧
      d'.commission_paid = d.commission_paid := by
  simp only [issueRemainingTopupInvoice, bind_ok] at h
  obtain ⟨_, -, ⟨amt, due⟩, -, total, -, h⟩ := h
  split at h
  · rw [← pure_ok.1 h]
    exact ⟨rfl, d, .refl hr, rfl, rfl⟩
  · simp only [bind_ok, pure_ok] at h
    obtain ⟨⟨j, db₁⟩, hi, rfl⟩ := h
    obtain ⟨dep, hpend, -, -, -, hdep⟩ := createDepositInvoice_ok hi
    simp only [Prod.mk.injEq] at hdep
    obtain ⟨rfl, rfl⟩ := hdep
    refine ⟨rfl, { d with topup_deposit_id := some db.wallet_deposits.next }, ?_, rfl, rfl⟩
    have hlink := linkDeposit_new i dep hr
    refine ⟨hr, ?_, ⟨⟨rfl, rfl, rfl, rfl⟩, rfl⟩, rfl, ?_, ?_⟩
    · rw [hlink.1, Table.set_row hr, if_pos rfl]
    · intro k e hk
      refine ⟨e, ?_, rfl, .inl⟩
      rw [hlink.2, Table.insert_row, if_neg (Table.lt_next hk).ne, hk]
    · intro k hk
      cases hk
      refine .inr ⟨{ dep with linked_deal_id := some i }, ?_, rfl, ?_⟩
      · rw [hlink.2, Table.insert_row, if_pos rfl]
      · simp [hpend]

/-! ## A payment -/

/-- What a deal waiting for its top-up is about. -/
structure TopupTerms (db : Db) (d : Deal) (cur : Currency) (com : Money) : Prop where
  currency : db.currencies.row d.currency_id = some cur
  grid : IsGrid cur.decimals d.amount.val
  commission : d.commission_amount = some com
  commission_grid : IsGrid cur.decimals com.val
  commission_nonneg : 0 ≤ com.val

/-- The payment has no more fractional digits than the deal's currency and the
balance column, and the context can hold the balance it makes. -/
def PaymentFine (db : Db) (d : Deal) (cur : Currency) (p : ℚ) : Prop :=
  IsGrid cur.decimals p ∧ IsGrid 8 p ∧ ∀ amt due, topupDue d cur = .ok (amt, due) →
    Fits prec ((db.balance d.buyer_id d.currency_id).amount.val + (p - due))

/-- What a payment of `p` for the deal does. -/
structure PaidIn (db db' : Db) (i j : ℕ) (d d' : Deal) (p com : ℚ) : Prop where
  progress : Progress db db' i d d' fun k => k = j
  status : d'.status = d.status ∨ (d.status = .pending_topup ∧ d'.status = .pending_confirmation)
  commission : d.commission_paid = true → d'.commission_paid = true
  funds : (db'.balance d.buyer_id d.currency_id).amount.val + (db'.balance d.buyer_id d.currency_id).locked.val =
    (db.balance d.buyer_id d.currency_id).amount.val + (db.balance d.buyer_id d.currency_id).locked.val + p -
      if d.commission_paid = false ∧ d'.commission_paid = true then com else 0
  locked : (db'.balance d.buyer_id d.currency_id).locked.val = (db.balance d.buyer_id d.currency_id).locked.val +
    if d'.status = d.status then 0 else d.amount.val

theorem topupDue_ok {com : Money} {amt due : ℚ} (ht : TopupTerms db d cur com) (h : topupDue d cur = .ok (amt, due)) :
    amt = d.amount.val ∧ due = if d.commission_paid then 0 else com.val := by
  simp only [topupDue, ht.commission, Option.elim_some, bind_ok, pure_ok, Prod.mk.injEq] at h
  obtain ⟨a, ha, c, hc, rfl, rfl⟩ := h
  rw [quantizeMoney_of_grid ht.grid ha, quantizeMoney_of_grid ht.commission_grid hc]
  exact ⟨rfl, rfl⟩

/-- The due commission is a stored number. -/
theorem due_grid {com : Money} {due : ℚ} {n : ℕ} (hc : IsGrid n com.val) {paid : Bool}
    (h : due = if paid then 0 else com.val) : IsGrid n due := by
  rw [h]
  split
  · exact isGrid_zero n
  · exact hc

/-- The three ends of a payment for a waiting deal, on the account of the deal. -/
theorem settleTopup_paidIn {com : Money} {p : ℚ} {reply : InvoiceReply} (hr : db.deals.row i = some d)
    (hj : db.wallet_deposits.row j = some dep) (hst : d.status = .pending_topup) (ht : TopupTerms db d cur com)
    (hp : PaymentFine db d cur p) (h : settleTopup db j dep i d cur p reply now = .ok db') :
    ∃ d', PaidIn db db' i j d d' p com.val := by
  obtain ⟨amt, due, rep, bal, db₁, hdue, -, hm, h⟩ := settleTopup_ok h
  obtain ⟨hgrid, hgrid8, hfits⟩ := hp
  have hfit := hfits amt due hdue
  obtain ⟨rfl, hdueq⟩ := topupDue_ok ht hdue
  have hb : db₁.balance d.buyer_id d.currency_id = bal := by rw [hm.balance, if_pos ⟨rfl, rfl⟩]
  have hr₁ : db₁.deals.row i = some d := by rw [hm.deals, hr]
  have hj₁ : db₁.wallet_deposits.row j = some dep := by rw [hm.deposits, hj]
  -- the deposit is marked paid, and perhaps replaced
  have settled {db₂ : Db} {d₂ : Deal} (hr₂ : db₂.deals.row i = some d₂) (hj₂ : db₂.wallet_deposits.row j = some dep) :
      Progress db₂ (db₂.setDeposit j (dep.settle now (some rep))) i d₂ d₂ fun k => k = j :=
    setDeposit_progress hr₂ hj₂ rfl fun _ => .inr rfl
  have hcredit {credit : ℚ} (hq : quantizeMoney (minus p due) cur.decimals = .ok credit) : credit = p - due :=
    quantize_ctx (by norm_num [prec]) (hgrid.sub (due_grid ht.commission_grid hdueq)) (quantizeMoney_ok.1 hq)
  have hgrid8' : IsGrid 8 (p - due) := hgrid8.sub (due_grid (Numeric.isGrid _) hdueq)
  cases h with
  | short hlt ha hl hi =>
    obtain ⟨hbal, d', hprog, hst', hcp⟩ := issueRemainingTopupInvoice_progress (P := fun _ => False)
      (settled hr₁ hj₁).after hi
    have hb' : db'.balance d.buyer_id d.currency_id = bal := by
      rw [Db.balance, hbal]
      exact hb
    refine ⟨d', ((hm.progress hr).after_still rfl (settled hr₁ hj₁)).trans hprog, .inl hst', ?_, ?_, ?_⟩
    · rw [hcp]
      exact id
    · rw [hb', hl, store_plus (Numeric.isGrid _) hgrid8 ha, hcp, if_neg (by simp)]
      ring
    · rw [hb', hl, if_pos hst', add_zero]
  | @partly credit e _ hle hq hlt ha hl he hi =>
    have hset : Progress db₁ (db₁.setDeal i e) i d e fun _ => False := by
      refine setDeal_progress hr₁ ?_ (by rw [he])
      rw [he]
      exact ⟨⟨rfl, rfl, rfl, rfl⟩, rfl⟩
    obtain ⟨hbal, d', hprog, hst', hcp⟩ := issueRemainingTopupInvoice_progress (P := fun _ => False)
      (settled hset.after hj₁).after hi
    have hb' : db'.balance d.buyer_id d.currency_id = bal := by
      rw [Db.balance, hbal]
      exact hb
    have hcp' : d'.commission_paid = (d.commission_paid || decide (0 < due)) := by rw [hcp, he]
    have hst'' : d'.status = d.status := by rw [hst', he]
    refine ⟨d', ?_, .inl hst'', ?_, ?_, ?_⟩
    · refine Progress.trans ?_ hprog
      exact ((hm.progress hr).after_still rfl hset).after_still (by rw [he]) (settled hset.after hj₁)
    · intro hpaid
      rw [hcp', hpaid, Bool.true_or]
    · rw [hcredit hq] at ha
      rw [hb', hl, store_plus (Numeric.isGrid _) hgrid8' ha, hcp', hdueq]
      rcases hc : d.commission_paid with _ | _
      · by_cases hpos : 0 < com.val
        · simp [hpos]
          ring
        · have : com.val = 0 := le_antisymm (not_lt.1 hpos) ht.commission_nonneg
          simp [this]
          ring
      · simp
        ring
    · rw [hb', hl, if_pos hst'', add_zero]
  | @activated credit hle hq hge ha hl =>
    rw [hcredit hq, plus, Decimal.add, ctx_of_fits hfit] at ha
    have hset : Progress db₁ (db₁.setDeal i { d with status := .pending_confirmation, commission_paid := true }) i d
        { d with status := .pending_confirmation, commission_paid := true } fun _ => False :=
      setDeal_progress hr₁ ⟨⟨rfl, rfl, rfl, rfl⟩, rfl⟩ rfl
    refine ⟨_, ((hm.progress hr).after_still rfl hset).after_still rfl (settled hset.after hj₁),
      .inr ⟨hst, rfl⟩, fun _ => rfl, ?_, ?_⟩
    · show (db₁.balance _ _).amount.val + (db₁.balance _ _).locked.val = _
      rw [hb, store_plus (Numeric.isGrid _) (Numeric.isGrid _) hl,
        store_minus ((Numeric.isGrid _).add hgrid8') (Numeric.isGrid _) ha, hdueq]
      rcases d.commission_paid with _ | _
      · simp
        ring
      · simp
        ring
    · show (db₁.balance _ _).locked.val = _
      rw [hb, store_plus (Numeric.isGrid _) (Numeric.isGrid _) hl, if_neg]
      show ¬DealStatus.pending_confirmation = d.status
      rw [hst]
      decide

/-- A payment for a deal that still exists is added to the buyer's funds, less the commission if it pays that. -/
theorem completeDealTopupPayment_paidIn {com : Money} {paid : Option ℚ} {reply : InvoiceReply}
    (hr : db.deals.row i = some d) (hj : db.wallet_deposits.row j = some dep) (hl : dep.linked_deal_id = some i)
    (hunpaid : dep.status ≠ .paid) (ht : TopupTerms db d cur com)
    (hp : PaymentFine db d cur (paid.getD dep.amount.val))
    (h : completeDealTopupPayment db j paid reply now = .ok db') :
    ∃ d', PaidIn db db' i j d d' (paid.getD dep.amount.val) com.val := by
  simp only [completeDealTopupPayment, bind_ok, orRaise_ok] at h
  obtain ⟨dep', hj', h⟩ := h
  cases hj.symm.trans hj'
  rw [if_neg hunpaid] at h
  simp only [hl, hr, ht.currency, bind_ok, orRaise_ok, Option.some.injEq] at h
  obtain ⟨cur', rfl, p, hq, h⟩ := h
  rw [quantizeMoney_of_grid hp.1 hq] at h
  split at h
  · exact settleTopup_paidIn hr hj ‹_› ht hp h
  · -- late: the deal no longer waits
    obtain ⟨db₁, hcr, h⟩ := bind_ok.1 h
    obtain ⟨rep, -, h⟩ := bind_ok.1 h
    obtain ⟨bal, hm, hbl, hba⟩ := creditAmount_ok (depositRef_ne (by decide) _ _) hcr
    have hb : db₁.balance d.buyer_id d.currency_id = bal := by rw [hm.balance, if_pos ⟨rfl, rfl⟩]
    have hr₁ : db₁.deals.row i = some d := by rw [hm.deals, hr]
    have hj₁ : db₁.wallet_deposits.row j = some dep := by rw [hm.deposits, hj]
    rw [← pure_ok.1 h]
    refine ⟨d, (hm.progress hr).after_still rfl (setDeposit_progress hr₁ hj₁ rfl fun _ => .inr rfl), .inl rfl, id, ?_, ?_⟩
    · show (db₁.balance _ _).amount.val + (db₁.balance _ _).locked.val = _
      rw [hb, hbl, store_plus (Numeric.isGrid _) hp.2.1 hba, if_neg (by simp)]
      ring
    · show (db₁.balance _ _).locked.val = _
      rw [hb, hbl, if_pos rfl, add_zero]

/-! ## Steps that pay nothing -/

/-- No funds move, no deposit is paid, and the deal waits as before or is closed. -/
structure Quiet (db db' : Db) (i : ℕ) : Prop where
  balances : db'.user_balances = db.user_balances
  currencies : db'.currencies = db.currencies
  deposits : ∀ k dep, db.wallet_deposits.row k = some dep → ∃ dep', db'.wallet_deposits.row k = some dep' ∧
    (dep'.status = .paid → dep.status = .paid)
  gone : db.deals.row i = none → db'.deals.row i = none
  deal : ∀ d, db.deals.row i = some d → ∃ d', Progress db db' i d d' (fun _ => False) ∧
    d'.commission_paid = d.commission_paid ∧
      (d'.status = d.status ∨ (d.status = .pending_topup ∧
        (d'.status = .cancelled ∨ d'.status = .cancelled_for_inactivity)))

theorem Quiet.refl (db : Db) (i : ℕ) : Quiet db db i where
  balances := rfl
  currencies := rfl
  deposits _ dep hk := ⟨dep, hk, id⟩
  gone := id
  deal d hd := ⟨d, .refl hd, rfl, .inl rfl⟩

theorem Quiet.trans (h : Quiet db db₁ i) (h' : Quiet db₁ db' i) : Quiet db db' i := by
  refine ⟨h'.balances.trans h.balances, h'.currencies.trans h.currencies, ?_, fun hn => h'.gone (h.gone hn), ?_⟩
  · intro k dep hk
    obtain ⟨dep₁, hk₁, hp₁⟩ := h.deposits k dep hk
    obtain ⟨dep₂, hk₂, hp₂⟩ := h'.deposits k dep₁ hk₁
    exact ⟨dep₂, hk₂, fun hp => hp₁ (hp₂ hp)⟩
  · intro d hd
    obtain ⟨d₁, hprog₁, hcp₁, hst₁⟩ := h.deal d hd
    obtain ⟨d₂, hprog₂, hcp₂, hst₂⟩ := h'.deal d₁ hprog₁.after
    refine ⟨d₂, hprog₁.trans hprog₂, hcp₂.trans hcp₁, ?_⟩
    rcases hst₁ with hst₁ | ⟨hw, hst₁⟩
    · rw [hst₁] at hst₂
      exact hst₂
    · -- a closed deal stays closed
      rcases hst₂ with hst₂ | ⟨hw₂, -⟩
      · exact .inr ⟨hw, by rw [hst₂]; exact hst₁⟩
      · rw [hw₂] at hst₁
        rcases hst₁ with hst₁ | hst₁ <;> cases hst₁

/-- Closing a waiting deal, and expiring its deposit. -/
theorem close_quiet {e : Deal} {st : DealStatus} (hk : db.deals.row k = some e) (hw : e.status = .pending_topup)
    (hst : st = .cancelled ∨ st = .cancelled_for_inactivity) (i : ℕ) :
    Quiet db ((expireTopupDeposit db e).setDeal k { e with status := st, completed_at := some now }) i := by
  have hdeals : (expireTopupDeposit db e).deals = db.deals := by
    obtain ⟨t, ht⟩ := expireTopupDeposit_eq db e
    rw [ht]
  have hk' : (expireTopupDeposit db e).deals.row k = some e := by rw [hdeals, hk]
  have hexp : Progress db (expireTopupDeposit db e) k e e fun _ => False := expireTopupDeposit_progress hk
  refine ⟨expireTopupDeposit_balances db e, hexp.currencies, ?_, ?_, ?_⟩
  · intro j dep hj
    obtain ⟨dep', hj', -, hp⟩ := hexp.deposits j dep hj
    exact ⟨dep', hj', fun h => (hp h).resolve_right id⟩
  · intro hn
    have hik : i ≠ k := by
      rintro rfl
      rw [hk] at hn
      cases hn
    simp only [Db.setDeal]
    rw [Table.set_row_ne hik, hdeals, hn]
  · intro d hd
    by_cases hik : i = k
    · subst hik
      cases hk.symm.trans hd
      exact ⟨_, hexp.trans (setDeal_progress hk' ⟨⟨rfl, rfl, rfl, rfl⟩, rfl⟩ rfl), rfl, .inr ⟨hw, hst⟩⟩
    · exact ⟨d, (expireTopupDeposit_progress hd).trans (setDeal_other (by rw [hdeals, hd]) hik _), rfl, .inl rfl⟩

theorem cancelPendingTopup_quiet {u : ℕ} (h : cancelPendingTopup db k u now = .ok db') (i : ℕ) : Quiet db db' i := by
  simp only [cancelPendingTopup, getDeal, bind_ok, orRaise_ok, raiseIf_ok, pure_ok] at h
  obtain ⟨e, hk, _, -, _, hs, rfl⟩ := h
  exact close_quiet hk (not_not.1 hs) (.inl rfl) i

theorem sweepPendingTopup_quiet {picked : List ℕ} (h : sweepPendingTopup db picked now = .ok db') (i : ℕ) :
    Quiet db db' i := by
  -- each row is closed once, in the state the rows before it left
  have key : ∀ (rows : List ℕ) (db : Db), rows.Nodup →
      (∀ k ∈ rows, ∃ e, db.deals.row k = some e ∧ e.status = .pending_topup) →
      rows.foldlM (sweepPendingTopupDeal now) db = .ok db' → Quiet db db' i := by
    intro rows
    induction rows with
    | nil =>
      intro db _ _ h
      rw [List.foldlM_nil] at h
      rw [pure_ok.1 h]
      exact .refl db' i
    | cons k rows ih =>
      intro db hn hrows h
      rw [List.foldlM_cons] at h
      obtain ⟨db₁, h₁, h⟩ := bind_ok.1 h
      obtain ⟨e, hk, hw⟩ := hrows k List.mem_cons_self
      simp only [sweepPendingTopupDeal, getDeal, bind_ok, orRaise_ok, pure_ok] at h₁
      obtain ⟨e', hk', rfl⟩ := h₁
      cases hk.symm.trans hk'
      obtain ⟨hnotin, hn⟩ := List.nodup_cons.1 hn
      refine (close_quiet hk hw (.inr rfl) i).trans (ih _ hn ?_ h)
      intro j hj
      have hjk : j ≠ k := fun hjk => hnotin (hjk ▸ hj)
      obtain ⟨f, hf, hwf⟩ := hrows j (List.mem_cons_of_mem _ hj)
      refine ⟨f, ?_, hwf⟩
      obtain ⟨t, ht⟩ := expireTopupDeposit_eq db e
      simp only [ht, Db.setDeal]
      rw [Table.set_row_ne hjk, hf]
  unfold sweepPendingTopup at h
  extract_lets hrs rows at h
  by_cases h0 : hrs ≤ 0
  · rw [if_pos h0] at h
    rw [pure_ok.1 h]
    exact .refl db' i
  · rw [if_neg h0] at h
    refine key rows db ((List.nodup_dedup _).filter _) ?_ h
    intro k hk
    obtain ⟨e, hk, hp⟩ := picked_rows k hk
    simp only [decide_eq_true_eq] at hp
    exact ⟨e, hk, hp.1⟩

/-! ## The account of the deal -/

/-- The statuses a deal has before anyone accepts it. -/
def EarlyStatus (st : DealStatus) : Prop :=
  st = .pending_topup ∨ st = .pending_confirmation ∨ st = .cancelled ∨ st = .cancelled_for_inactivity

/-- What holds after every step, for a deal created as `d₀` when the buyer's
funds were `total₀`, of which `locked₀` were locked for other deals. -/
structure Account (d₀ : Deal) (cur : Currency) (com : Money) (total₀ locked₀ : ℚ) (s : Topup) : Prop where
  place : s.buyer_id = d₀.buyer_id ∧ s.currency_id = d₀.currency_id
  terms : TopupTerms s.db d₀ cur com
  funds : s.funds = total₀ + (s.payments.map (·.2)).sum - if s.commission_set then com.val else 0
  locked : (s.balance s.db).locked.val = locked₀ +
    if (s.db.deals.row s.deal_id).any (·.status = .pending_confirmation) then d₀.amount.val else 0
  deal : ∀ d, s.db.deals.row s.deal_id = some d → SameDeal d₀ d ∧ EarlyStatus d.status ∧
    d.commission_paid = (d₀.commission_paid || s.commission_set) ∧
      (∀ j ∈ s.deposits, ∃ dep, s.db.wallet_deposits.row j = some dep ∧ dep.linked_deal_id = some s.deal_id) ∧
        ∀ k, d.topup_deposit_id = some k → k ∈ s.deposits
  deposits : ∀ j ∈ s.deposits, ∃ dep, s.db.wallet_deposits.row j = some dep ∧
    (dep.status = .paid → ∃ p, (j, p) ∈ s.payments)
  moves : ∀ m ∈ s.moves, m.1 = if m.2 then d₀.amount.val else 0
  once : s.moves.countP (·.2) ≤
    if (s.db.deals.row s.deal_id).any (·.status = .pending_topup) then 0 else 1

end

section
variable {d₀ d d' : Deal} {cur : Currency} {com : Money} {total₀ locked₀ : ℚ} {s t : Topup} {db db' : Db} {op : TopupOp}
  {P : ℕ → Prop}

theorem TopupTerms.same (h : TopupTerms db d₀ cur com) (hs : SameDeal d₀ d) (hc : db'.currencies = db.currencies) :
    TopupTerms db' d cur com := by
  obtain ⟨⟨-, -, h3, h4⟩, h5⟩ := hs
  exact ⟨by rw [hc, h3, h.currency], by rw [h4]; exact h.grid, by rw [h5, h.commission], h.commission_grid,
    h.commission_nonneg⟩

/-- The deposits known after a step: those known before, and the one the deal points at. -/
theorem observe_mem {j : ℕ} : j ∈ (s.observe op db').deposits ↔
    j ∈ s.deposits ∨ (db'.deals.row s.deal_id).bind (·.topup_deposit_id) = some j := by
  simp only [Topup.observe]
  split
  · rename_i k hk
    rw [hk]
    split
    · rename_i hmem
      constructor
      · exact .inl
      · rintro (h | h)
        · exact h
        · cases h
          exact hmem
    · simp only [List.mem_append, List.mem_singleton, Option.some.injEq, eq_comm]
  · rename_i hk
    rw [hk]
    simp

/-- A step that leaves the deal in place keeps the account. -/
theorem Account.stays (h : Account d₀ cur com total₀ locked₀ s) (h0 : 0 ≤ d₀.amount.val)
    (hp : Progress s.db db' s.deal_id d d' P)
    (hst : d'.status = d.status ∨ (d.status = .pending_topup ∧
      (d'.status = .pending_confirmation ∨ d'.status = .cancelled ∨ d'.status = .cancelled_for_inactivity)))
    (hcom : d.commission_paid = true → d'.commission_paid = true)
    (hfunds : (s.balance db').amount.val + (s.balance db').locked.val = s.funds + ((s.received op).map (·.2)).sum -
      if d.commission_paid = false ∧ d'.commission_paid = true then com.val else 0)
    (hlocked : (s.balance db').locked.val = (s.balance s.db).locked.val +
      if d.status = .pending_topup ∧ d'.status = .pending_confirmation then d₀.amount.val else 0)
    (hP : ∀ k, P k → ∃ p, (k, p) ∈ s.received op) : Account d₀ cur com total₀ locked₀ (s.observe op db') := by
  obtain ⟨hsame, hearly, hpaid, hlinked, htop⟩ := h.deal d hp.before
  have hbefore := hp.before
  have hafter := hp.after
  refine ⟨h.place, h.terms.same (.refl d₀) hp.currencies, ?_, ?_, ?_, ?_, ?_, ?_⟩
  · -- the funds
    show (s.balance db').amount.val + (s.balance db').locked.val = _
    rw [hfunds, h.funds]
    simp only [Topup.observe, hbefore, hafter, Option.any_some, List.map_append, List.sum_append]
    rcases hd : d.commission_paid with _ | _ <;> rcases hd' : d'.commission_paid with _ | _ <;>
      rcases hs : s.commission_set with _ | _ <;> simp_all <;> ring
  · -- the locked funds
    show (s.balance db').locked.val = _
    rw [hlocked, h.locked]
    simp only [Topup.observe, hbefore, hafter, Option.any_some]
    rcases hst with hst | ⟨hw, hst | hst | hst⟩
    · rw [hst]
      by_cases hc : d.status = .pending_confirmation
      · simp [hc]
      · simp [hc]
    · simp [hw, hst]
    · simp [hw, hst]
    · simp [hw, hst]
  · intro e he
    cases hafter.symm.trans he
    refine ⟨hsame.trans hp.same, ?_, ?_, ?_, ?_⟩
    · rcases hst with hst | ⟨-, hst | hst | hst⟩
      · rw [hst]
        exact hearly
      · exact .inr (.inl hst)
      · exact .inr (.inr (.inl hst))
      · exact .inr (.inr (.inr hst))
    · simp only [Topup.observe, hbefore, hafter, Option.any_some]
      rcases hd : d.commission_paid with _ | _ <;> rcases hd' : d'.commission_paid with _ | _ <;> simp_all
    · intro j hj
      rcases observe_mem.1 hj with hj | hj
      · obtain ⟨dep, hrow, hl⟩ := hlinked j hj
        obtain ⟨dep', hrow', hl', -⟩ := hp.deposits j dep hrow
        exact ⟨dep', hrow', hl'.trans hl⟩
      · rw [hafter, Option.bind_some] at hj
        rcases hp.link j hj with hj | ⟨dep, hrow, hl, -⟩
        · obtain ⟨dep, hrow, hl⟩ := hlinked j (htop j hj)
          obtain ⟨dep', hrow', hl', -⟩ := hp.deposits j dep hrow
          exact ⟨dep', hrow', hl'.trans hl⟩
        · exact ⟨dep, hrow, hl⟩
    · intro k hk
      refine observe_mem.2 (.inr ?_)
      rw [hafter, Option.bind_some, hk]
  · intro j hj
    have old {k : ℕ} (hk : k ∈ s.deposits) : ∃ dep, db'.wallet_deposits.row k = some dep ∧
        (dep.status = .paid → ∃ p, (k, p) ∈ s.payments ++ s.received op) := by
      obtain ⟨dep, hrow, hrec⟩ := h.deposits k hk
      obtain ⟨dep', hrow', -, hp'⟩ := hp.deposits k dep hrow
      refine ⟨dep', hrow', fun hpd => ?_⟩
      rcases hp' hpd with hpd | hpk
      · obtain ⟨p, hp⟩ := hrec hpd
        exact ⟨p, List.mem_append_left _ hp⟩
      · obtain ⟨p, hp⟩ := hP k hpk
        exact ⟨p, List.mem_append_right _ hp⟩
    rcases observe_mem.1 hj with hj | hj
    · exact old hj
    · rw [hafter, Option.bind_some] at hj
      rcases hp.link j hj with hj | ⟨dep, hrow, -, hunpaid⟩
      · exact old (htop j hj)
      · exact ⟨dep, hrow, fun hpd => absurd hpd hunpaid⟩
  · intro m hm
    simp only [Topup.observe, hbefore, hafter, Option.any_some, List.mem_append, List.mem_singleton] at hm
    rcases hm with hm | rfl
    · exact h.moves m hm
    · simp only [Topup.balance] at hlocked ⊢
      rw [hlocked, add_sub_cancel_left]
      by_cases hact : d.status = .pending_topup ∧ d'.status = .pending_confirmation
      · simp [hact, h0]
      · simp [hact]
  · have honce := h.once
    rw [hbefore, Option.any_some] at honce
    simp only [Topup.observe, hbefore, hafter, Option.any_some, List.countP_append, List.countP_singleton]
    rcases hst with hst | ⟨hw, hst⟩
    · rw [hst]
      by_cases hw : d.status = .pending_topup
      · simpa [hw] using honce
      · simpa [hw] using honce
    · -- the deal was still waiting: nothing had been moved
      have hz : s.moves.countP (·.2) = 0 := by
        rw [hw, decide_eq_true rfl, if_pos rfl] at honce
        exact Nat.le_zero.1 honce
      rw [hz]
      rcases hst with hst | hst | hst <;> simp [hw, hst]

/-- A step that pays nothing keeps the account, also when the deal is gone. -/
theorem Account.quiet (h : Account d₀ cur com total₀ locked₀ s) (h0 : 0 ≤ d₀.amount.val)
    (hq : Quiet s.db db' s.deal_id) (hrec : s.received op = []) : Account d₀ cur com total₀ locked₀ (s.observe op db') := by
  have hbal : s.balance db' = s.balance s.db := by rw [Topup.balance, Topup.balance, Db.balance, hq.balances, Db.balance]
  cases hr : s.db.deals.row s.deal_id with
  | some d =>
    obtain ⟨d', hp, hcp, hst⟩ := hq.deal d hr
    refine h.stays h0 hp ?_ (by rw [hcp]; exact id) ?_ ?_ fun _ => False.elim
    · exact hst.imp_right fun hst => ⟨hst.1, .inr hst.2⟩
    · rw [hbal, hrec, hcp, if_neg (by simp), Topup.funds]
      simp
    · rw [hbal, if_neg, add_zero]
      rintro ⟨hw, hact⟩
      rcases hst with hst | ⟨-, hst | hst⟩
      · rw [hst, hw] at hact
        cases hact
      · rw [hst] at hact
        cases hact
      · rw [hst] at hact
        cases hact
  | none =>
    have hr' := hq.gone hr
    refine ⟨h.place, h.terms.same (.refl d₀) hq.currencies, ?_, ?_, ?_, ?_, ?_, ?_⟩
    · show (s.balance db').amount.val + (s.balance db').locked.val = _
      rw [hbal]
      refine h.funds.trans ?_
      simp [Topup.observe, hrec, hr]
    · show (s.balance db').locked.val = _
      rw [hbal, h.locked]
      simp [Topup.observe, hr, hr']
    · intro d hd
      rw [Topup.observe, hr'] at hd
      cases hd
    · intro j hj
      simp only [Topup.observe, hr', Option.bind_none] at hj
      obtain ⟨dep, hrow, hrec'⟩ := h.deposits j hj
      obtain ⟨dep', hrow', hp⟩ := hq.deposits j dep hrow
      refine ⟨dep', hrow', fun hpd => ?_⟩
      obtain ⟨p, hmem⟩ := hrec' (hp hpd)
      exact ⟨p, List.mem_append_left _ hmem⟩
    · intro m hm
      simp only [Topup.observe, hr, List.mem_append, List.mem_singleton] at hm
      rcases hm with hm | rfl
      · exact h.moves m hm
      · simp [hbal]
    · have honce := h.once
      rw [hr] at honce
      simpa [Topup.observe, hr, hr'] using honce

/-- Deleting the deal gives back what it locked, and changes the account no further. -/
theorem Account.delete (h : Account d₀ cur com total₀ locked₀ s) (h0 : 0 ≤ d₀.amount.val) (hl0 : 0 ≤ locked₀)
    (hdel : deleteDeal s.db s.deal_id = .ok db') : Account d₀ cur com total₀ locked₀ (s.observe .delete db') := by
  obtain ⟨d, hr, hcase⟩ := deleteDeal_ok hdel
  obtain ⟨hsame, hearly, hpaid, hlinked, htop⟩ := h.deal d hr
  obtain ⟨⟨hb, -, hc, ha⟩, -⟩ := hsame
  -- what the deletion does to the buyer's funds
  have hdb : db'.deals.row s.deal_id = none ∧ db'.currencies = s.db.currencies ∧
      (∀ k dep, s.db.wallet_deposits.row k = some dep → ∃ dep', db'.wallet_deposits.row k = some dep' ∧
        dep'.status = dep.status) ∧
      (s.balance db').amount.val + (s.balance db').locked.val = s.funds ∧
      (s.balance db').locked.val = locked₀ := by
    have hrows {db₁ : Db} (hd : db₁.wallet_deposits = s.db.wallet_deposits) :
        ∀ k dep, s.db.wallet_deposits.row k = some dep →
          ∃ dep', (removeDeal db₁ s.deal_id).wallet_deposits.row k = some dep' ∧ dep'.status = dep.status := by
      intro k dep hk
      simp only [removeDeal, hd, Table.mapRows_row, hk, Option.map_some]
      refine ⟨_, rfl, ?_⟩
      split <;> rfl
    have hlock := h.locked
    rw [hr, Option.any_some] at hlock
    rcases hcase with ⟨hin, rfl⟩ | ⟨hact, amt, bal, db₁, hq, hba, hbl, hm, rfl⟩
    · have hinactive : isActiveForMoneyMovement d.status = false :=
        hin.resolve_right (by rw [hc, h.terms.currency]; simp)
      refine ⟨by simp [removeDeal], rfl, hrows rfl, rfl, ?_⟩
      show (s.balance s.db).locked.val = _
      rw [hlock, if_neg, add_zero]
      rw [decide_eq_true_eq]
      intro hpc
      rw [hpc] at hinactive
      cases hinactive
    · have hpc : d.status = .pending_confirmation := by
        rcases hearly with hst | hst | hst | hst
        · rw [hst] at hact
          cases hact
        · exact hst
        · rw [hst] at hact
          cases hact
        · rw [hst] at hact
          cases hact
      rw [if_pos (by rw [hpc]; rfl)] at hlock
      obtain rfl : amt = d.amount.val := by
        obtain ⟨c', hc', hq⟩ := hq
        rw [hc] at hc'
        cases hc'.symm.trans h.terms.currency
        exact quantizeMoney_of_grid (by rw [ha]; exact h.terms.grid) hq
      have hplace : s.balance s.db = s.db.balance d.buyer_id d.currency_id := by
        rw [Topup.balance, h.place.1, h.place.2, hb, hc]
      have hbal : s.balance (removeDeal db₁ s.deal_id) = bal := by
        show db₁.balance s.buyer_id s.currency_id = bal
        rw [hm.balance, if_pos ⟨by rw [h.place.1, hb], by rw [h.place.2, hc]⟩]
      rw [← hplace] at hba hbl
      have hunlock := unlock_exact (by rw [hlock, ha]; linarith) hbl
      have hcr := credit_exact hba
      refine ⟨by simp [removeDeal], hm.currencies, hrows hm.deposits, ?_, ?_⟩
      · rw [hbal, hcr, hunlock, Topup.funds]
        ring
      · rw [hbal, hunlock, hlock, ha]
        ring
  obtain ⟨hr', hcur, hdeps, hfunds, hlocked⟩ := hdb
  refine ⟨h.place, h.terms.same (.refl d₀) hcur, ?_, ?_, ?_, ?_, ?_, ?_⟩
  · show (s.balance db').amount.val + (s.balance db').locked.val = _
    rw [hfunds]
    refine h.funds.trans ?_
    simp [Topup.observe, Topup.received, hr']
  · show (s.balance db').locked.val = _
    rw [hlocked]
    simp [Topup.observe, hr']
  · intro e he
    rw [Topup.observe, hr'] at he
    cases he
  · intro j hj
    simp only [Topup.observe, hr', Option.bind_none] at hj
    obtain ⟨dep, hrow, hrec⟩ := h.deposits j hj
    obtain ⟨dep', hrow', hst⟩ := hdeps j dep hrow
    refine ⟨dep', hrow', fun hpd => ?_⟩
    obtain ⟨p, hmem⟩ := hrec (hst ▸ hpd)
    exact ⟨p, List.mem_append_left _ hmem⟩
  · intro m hm
    simp only [Topup.observe, hr', Option.any_none, Bool.and_false, List.mem_append, List.mem_singleton] at hm
    rcases hm with hm | rfl
    · exact h.moves m hm
    · have hle : (s.balance db').locked.val ≤ (s.balance s.db).locked.val := by
        rw [hlocked, h.locked]
        split <;> linarith
      simp only [Bool.false_eq_true, if_false]
      exact max_eq_left (sub_nonpos.2 hle)
  · have honce := h.once
    simp only [Topup.observe, hr', Option.any_none, Bool.and_false, List.countP_append, List.countP_singleton,
      Bool.false_eq_true, if_false]
    split at honce <;> omega

/-- No payment arrives for a deal that is gone, and no payment is rounded. -/
def Topup.Ok (s : Topup) : TopupOp → Prop
  | .pay j paid _ _ => ∀ dep, s.db.wallet_deposits.row j = some dep → dep.status ≠ .paid →
      ∃ d cur, s.db.deals.row s.deal_id = some d ∧ s.db.currencies.row d.currency_id = some cur ∧
        PaymentFine s.db d cur (paid.getD dep.amount.val)
  | _ => True

theorem Account.pay {j : ℕ} {paid : Option ℚ} {reply : InvoiceReply} {now : Time}
    (h : Account d₀ cur com total₀ locked₀ s) (h0 : 0 ≤ d₀.amount.val) (hok : s.Ok (.pay j paid reply now))
    (hj : j ∈ s.deposits) (hpay : completeDealTopupPayment s.db j paid reply now = .ok db') :
    Account d₀ cur com total₀ locked₀ (s.observe (.pay j paid reply now) db') := by
  obtain ⟨dep, hrow, -⟩ := h.deposits j hj
  by_cases hpaid : dep.status = .paid
  · -- paid already: nothing happens
    have hdb : db' = s.db := by
      simp only [completeDealTopupPayment, bind_ok, orRaise_ok] at hpay
      obtain ⟨dep', hrow', hpay⟩ := hpay
      cases hrow.symm.trans hrow'
      rw [if_pos hpaid] at hpay
      exact (pure_ok.1 hpay).symm
    rw [hdb]
    refine h.quiet h0 (.refl _ _) ?_
    simp [Topup.received, hrow, hpaid]
  · obtain ⟨d, cur', hd, hcur, hfine⟩ := hok dep hrow hpaid
    obtain ⟨hsame, -, -, hlinked, -⟩ := h.deal d hd
    have hterms := h.terms.same hsame (Eq.refl s.db.currencies)
    cases hterms.currency.symm.trans hcur
    have hlink : dep.linked_deal_id = some s.deal_id := by
      obtain ⟨dep', hrow', hl⟩ := hlinked j hj
      cases hrow.symm.trans hrow'
      exact hl
    obtain ⟨d', hin⟩ := completeDealTopupPayment_paidIn hd hrow hlink hpaid hterms hfine hpay
    have hrec : s.received (.pay j paid reply now) = [(j, paid.getD dep.amount.val)] := by
      simp [Topup.received, hrow, hpaid]
    have hplace (db : Db) : s.balance db = db.balance d.buyer_id d.currency_id := by
      rw [Topup.balance, h.place.1, h.place.2, hsame.1.1, hsame.1.2.2.1]
    refine h.stays h0 hin.progress ?_ hin.commission ?_ ?_ ?_
    · exact hin.status.imp_right fun hst => ⟨hst.1, .inl hst.2⟩
    · rw [Topup.funds, hplace, hplace, hin.funds, hrec]
      simp
    · rw [hplace, hplace, hin.locked, hsame.1.2.2.2]
      rcases hin.status with hst | ⟨hw, hact⟩
      · rw [if_pos hst, if_neg]
        rintro ⟨hw, hact⟩
        rw [hst, hw] at hact
        cases hact
      · have hne : d'.status ≠ d.status := by simp [hw, hact]
        rw [if_neg hne, if_pos ⟨hw, hact⟩]
    · rintro k rfl
      rw [hrec]
      exact ⟨_, List.mem_singleton.2 rfl⟩

theorem Account.exec (h : Account d₀ cur com total₀ locked₀ s) (h0 : 0 ≤ d₀.amount.val) (hl0 : 0 ≤ locked₀)
    (hok : s.Ok op) (hstep : s.exec op = .ok t) : Account d₀ cur com total₀ locked₀ t := by
  obtain ⟨db', hrun, ht⟩ := bind_ok.1 hstep
  rw [← pure_ok.1 ht]
  cases op with
  | pay j paid reply now =>
    obtain ⟨_, hj, hpay⟩ := bind_ok.1 hrun
    exact h.pay h0 hok (not_not.1 (raiseIf_ok.1 hj)) hpay
  | cancel u now => exact h.quiet h0 (cancelPendingTopup_quiet hrun _) rfl
  | sweep picked now => exact h.quiet h0 (sweepPendingTopup_quiet hrun _) rfl
  | delete => exact h.delete h0 hl0 hrun

end

/-! ## Creation -/

section
variable {d₀ : Deal} {cur : Currency} {com : Money} {db db₁ : Db} {i : ℕ}

/-- The account opens with a row that nobody has paid for yet. -/
theorem Account.start (hr : db.deals.row i = some d₀) (ht : TopupTerms db d₀ cur com) (hst : EarlyStatus d₀.status)
    (hdep : ∀ j, d₀.topup_deposit_id = some j → ∃ dep, db.wallet_deposits.row j = some dep ∧
      dep.linked_deal_id = some i ∧ dep.status ≠ .paid) :
    Account d₀ cur com (Topup.start db i d₀).funds ((db.balance d₀.buyer_id d₀.currency_id).locked.val -
      if d₀.status = .pending_confirmation then d₀.amount.val else 0) (Topup.start db i d₀) := by
  refine ⟨⟨rfl, rfl⟩, ht, ?_, ?_, ?_, ?_, ?_, ?_⟩
  · simp [Topup.start]
  · simp [Topup.start, Topup.balance, hr]
  · intro d hd
    cases hr.symm.trans hd
    refine ⟨.refl d₀, hst, by simp [Topup.start], ?_, ?_⟩
    · intro j hj
      obtain ⟨dep, hrow, hl, -⟩ := hdep j (Option.mem_toList.1 hj)
      exact ⟨dep, hrow, hl⟩
    · intro k hk
      exact Option.mem_toList.2 hk
  · intro j hj
    obtain ⟨dep, hrow, -, hunpaid⟩ := hdep j (Option.mem_toList.1 hj)
    exact ⟨dep, hrow, fun hpaid => absurd hpaid hunpaid⟩
  · intro m hm
    simp [Topup.start] at hm
  · simp [Topup.start]

theorem lockUserBalance_moneyless (db : Db) (u c : ℕ) :
    (lockUserBalance db u c).deals = db.deals ∧ (lockUserBalance db u c).currencies = db.currencies := by
  obtain ⟨f, hf⟩ := lockUserBalance_eq db u c
  rw [hf]
  exact ⟨rfl, rfl⟩

/-- A stored sum is no smaller than a stored part of it. -/
theorem le_store_plus {x amt : ℚ} {a l : Money} (hx : 0 ≤ x) (hf : Fits prec amt) (h0 : 0 ≤ amt) (ha : store amt = .ok a)
    (hl : store (plus x amt) = .ok l) : a.val ≤ l.val := by
  have hle : amt ≤ plus x amt := le_ctx_of_le (by norm_num [prec]) hf h0 (by linarith)
  exact Numeric.val_mono h0 hle (orRaise_ok.1 ha) (orRaise_ok.1 hl)

theorem dealTerms_fits {b s : ℕ} {code : String} {amount : Option ℚ} {c : ℕ} {amt com : ℚ}
    (h : dealTerms db b s code amount = .ok (c, cur, amt, com)) :
    getCurrencyByCode db code = .ok (c, cur) ∧ Fits prec amt := by
  simp only [dealTerms, bind_ok, pure_ok, Prod.mk.injEq] at h
  obtain ⟨_, -, _, -, _, -, ⟨c₁, cur₁⟩, hc₁, _, -, _, -, _, hq, _, -, _, -, rfl, rfl, rfl, -⟩ := h
  exact ⟨hc₁, quantize_fits (quantizeMoney_ok.1 hq)⟩

theorem dealTerms_commission {b s : ℕ} {code : String} {amount : Option ℚ} {c : ℕ} {amt com : ℚ}
    (hrate : 0 ≤ db.app_settings.deal_commission_percent.val) (h : dealTerms db b s code amount = .ok (c, cur, amt, com)) :
    IsGrid cur.decimals com ∧ 0 ≤ com := by
  obtain ⟨-, -, hpos, -, ⟨rate, hnn, hcom⟩, -⟩ := dealTerms_ok h
  refine ⟨quantizeMoney_grid hcom, quantizeMoney_nonneg ?_ hcom⟩
  have hprod : 0 ≤ times amt rate := ctx_nonneg _ (mul_nonneg hpos.le (hnn hrate))
  exact ctx_nonneg _ (div_nonneg hprod (by norm_num))

/-- A deal linked to its first invoice. -/
theorem waiting_account {d : Deal} {dep : WalletDeposit} (hr : db.deals.row i = some d) (hst : d.status = .pending_topup)
    (hpend : dep.status = .pending) (ht : TopupTerms db d cur com) :
    (linkDeposit { db with wallet_deposits := db.wallet_deposits.insert dep } i db.wallet_deposits.next).deals.row i =
        some { d with topup_deposit_id := some db.wallet_deposits.next } ∧
      Account { d with topup_deposit_id := some db.wallet_deposits.next } cur com
        (Topup.start (linkDeposit { db with wallet_deposits := db.wallet_deposits.insert dep } i
          db.wallet_deposits.next) i { d with topup_deposit_id := some db.wallet_deposits.next }).funds
        (db.balance d.buyer_id d.currency_id).locked.val
        (Topup.start (linkDeposit { db with wallet_deposits := db.wallet_deposits.insert dep } i
          db.wallet_deposits.next) i { d with topup_deposit_id := some db.wallet_deposits.next }) := by
  obtain ⟨hdeals, hdeps⟩ := linkDeposit_new i dep hr
  have hrow : (linkDeposit { db with wallet_deposits := db.wallet_deposits.insert dep } i
      db.wallet_deposits.next).deals.row i = some { d with topup_deposit_id := some db.wallet_deposits.next } := by
    rw [hdeals, Table.set_row hr, if_pos rfl]
  refine ⟨hrow, ?_⟩
  have hterms : TopupTerms (linkDeposit { db with wallet_deposits := db.wallet_deposits.insert dep } i
      db.wallet_deposits.next) { d with topup_deposit_id := some db.wallet_deposits.next } cur com :=
    ⟨ht.currency, ht.grid, ht.commission, ht.commission_grid, ht.commission_nonneg⟩
  have hacc := Account.start hrow hterms (.inl hst) ?_
  · rw [if_neg (by simp [hst]), sub_zero] at hacc
    exact hacc
  · intro j hj
    cases hj
    refine ⟨{ dep with linked_deal_id := some i }, ?_, rfl, ?_⟩
    · rw [hdeps, Table.insert_row, if_pos rfl]
    · simp [hpend]

/-- `create_deal_with_topup` opens an account: the new deal waits for its linked
deposit, or its amount is locked already. -/
theorem createDealWithTopup_account {b se c : ℕ} {code provider : String} {amount : Option ℚ} {reply : InvoiceReply}
    {now : Time} (hrate : 0 ≤ db.app_settings.deal_commission_percent.val) (hc : getCurrencyByCode db code = .ok (c, cur))
    (hlocked : 0 ≤ (db.balance b c).locked.val)
    (h : createDealWithTopup db b se code amount provider reply now = .ok db₁) :
    ∃ d₀ com locked₀, db₁.deals.row db.deals.next = some d₀ ∧ d₀.buyer_id = b ∧ d₀.currency_id = c ∧
      d₀.commission_amount = some com ∧ 0 ≤ d₀.amount.val ∧ 0 ≤ locked₀ ∧
        Account d₀ cur com (Topup.start db₁ db.deals.next d₀).funds locked₀ (Topup.start db₁ db.deals.next d₀) := by
  simp only [createDealWithTopup, bind_ok] at h
  obtain ⟨⟨c', cur', amt, fee⟩, ht, needed, -, gap, -, total, -, a, ha, com, hcom, h⟩ := h
  obtain ⟨hc', hfit⟩ := dealTerms_fits ht
  cases hc.symm.trans hc'
  obtain ⟨hgridc, hcom0⟩ := dealTerms_commission hrate ht
  obtain ⟨-, hcur, hpos, hgrid, -, -⟩ := dealTerms_ok ht
  have hamt0 : 0 ≤ a.val := store_nonneg hpos.le ha
  have hdeals : (lockUserBalance db b c).deals = db.deals := (lockUserBalance_moneyless db b c).1
  have hcurs : (lockUserBalance db b c).currencies = db.currencies := (lockUserBalance_moneyless db b c).2
  have hterms {db₂ : Db} {d : Deal} (hcs : db₂.currencies = db.currencies)
      (hd : d.currency_id = c ∧ d.amount = a ∧ d.commission_amount = some com) : TopupTerms db₂ d cur com := by
    obtain ⟨hd1, hd2, hd3⟩ := hd
    exact ⟨by rw [hcs, hd1]; exact hcur, by rw [hd2]; exact store_keeps_grid hgrid ha, hd3,
      store_keeps_grid hgridc hcom, store_nonneg hcom0 hcom⟩
  split at h
  · -- paid from the balance
    obtain ⟨bal, -, hl, hm⟩ := changeBalance_ok (dealRef_ne (by decide) _) h
    have hrow : db₁.deals.row db.deals.next = some (newDeal b se c a com .pending_confirmation provider true now) := by
      rw [hm.deals]
      simp [insertDeal, hdeals]
    have hbal : db₁.balance b c = bal := by rw [hm.balance, if_pos ⟨rfl, rfl⟩]
    have hle : a.val ≤ bal.locked.val := by
      rw [balance_lockUserBalance] at hl
      exact le_store_plus hlocked hfit hpos.le ha hl
    refine ⟨_, com, _, hrow, rfl, rfl, rfl, hamt0, ?_,
      Account.start hrow (hterms (hm.currencies.trans hcurs) ⟨rfl, rfl, rfl⟩) (.inr (.inl rfl)) ?_⟩
    · simp [newDeal, hbal, hle]
    · intro j hj
      cases hj
  · -- waiting for the invoice
    simp only [bind_ok, raiseIf_ok, pure_ok] at h
    obtain ⟨_, -, ⟨j, db₂⟩, hi, rfl⟩ := h
    obtain ⟨dep, hpend, -, -, -, hdep⟩ := createDepositInvoice_ok hi
    simp only [Prod.mk.injEq] at hdep
    obtain ⟨rfl, rfl⟩ := hdep
    have hnext : (lockUserBalance db b c).deals.next = db.deals.next := by rw [hdeals]
    have hnew : (insertDeal (lockUserBalance db b c) (newDeal b se c a com .pending_topup provider false now)).deals.row
        db.deals.next = some (newDeal b se c a com .pending_topup provider false now) := by
      simp [insertDeal, hdeals]
    obtain ⟨hrow, hacc⟩ := waiting_account hnew rfl hpend (hterms hcurs ⟨rfl, rfl, rfl⟩)
    have hbal : (insertDeal (lockUserBalance db b c)
        (newDeal b se c a com .pending_topup provider false now)).balance b c = db.balance b c :=
      balance_lockUserBalance db b c b c
    simp only [hnext]
    refine ⟨_, com, _, hrow, rfl, rfl, rfl, hamt0, ?_, hacc⟩
    show 0 ≤ (UserBalance.locked _).val
    rw [show (newDeal b se c a com .pending_topup provider false now).buyer_id = b from rfl,
      show (newDeal b se c a com .pending_topup provider false now).currency_id = c from rfl, hbal]
    exact hlocked

end

/-! ## Runs -/

/-- A step of the deal's top-up. -/
def TopupStep (op : TopupOp) (s t : Topup) : Prop := s.exec op = .ok t

/-- After every run whose payments find their deal, the buyer's funds have grown
by the payments less the commission if one of them set it, the amount was locked
by the step that took the deal from `pending_topup` to `pending_confirmation`
and by no other, at most one step did that, and every paid deposit is one of the
payments. -/
theorem topup_accounted {db db₁ : Db} {b se c : ℕ} {code provider : String} {cur : Currency} {amount : Option ℚ}
    {reply : InvoiceReply} {now : Time} (hrate : 0 ≤ db.app_settings.deal_commission_percent.val)
    (hc : getCurrencyByCode db code = .ok (c, cur)) (hlocked : 0 ≤ (db.balance b c).locked.val)
    (h : createDealWithTopup db b se code amount provider reply now = .ok db₁) :
    ∃ d₀ com, db₁.deals.row db.deals.next = some d₀ ∧ d₀.buyer_id = b ∧ d₀.currency_id = c ∧
      d₀.commission_amount = some com ∧
      ∀ t, Reach TopupStep (fun op s => s.Ok op) (Topup.start db₁ db.deals.next d₀) t →
        (t.db.balance b c).amount.val + (t.db.balance b c).locked.val =
            (db₁.balance b c).amount.val + (db₁.balance b c).locked.val + (t.payments.map (·.2)).sum -
              (if t.commission_set then com.val else 0) ∧
          (∀ m ∈ t.moves, m.1 = if m.2 then d₀.amount.val else 0) ∧ t.moves.countP (·.2) ≤ 1 ∧
            ∀ j ∈ t.deposits, ∀ dep, t.db.wallet_deposits.row j = some dep → dep.status = .paid →
              ∃ p, (j, p) ∈ t.payments := by
  obtain ⟨d₀, com, locked₀, hrow, rfl, rfl, hcom, h0, hl0, hacc⟩ := createDealWithTopup_account hrate hc hlocked h
  refine ⟨d₀, com, hrow, rfl, rfl, hcom, ?_⟩
  intro t hrun
  have hend : Account d₀ cur com (Topup.start db₁ db.deals.next d₀).funds locked₀ t := by
    refine hrun.invariant hacc ?_
    intro op s t hs hok hstep
    exact hs.exec h0 hl0 hok hstep
  refine ⟨?_, hend.moves, ?_, ?_⟩
  · have hfunds := hend.funds
    simp only [Topup.funds, Topup.balance, hend.place.1, hend.place.2] at hfunds
    exact hfunds
  · refine hend.once.trans ?_
    split <;> omega
  · intro j hj dep hdep hpaid
    obtain ⟨dep', hdep', hrec⟩ := hend.deposits j hj
    cases hdep.symm.trans hdep'
    exact hrec hpaid

/-- User 1, with nothing on the balance, asked for a deal of 10.00 with user 2. -/
def sampleRequest : Result Db :=
  createDealWithTopup (sampleDb 2 ⟨0, money_zero_fits⟩) 1 2 "USDT" (some 10) "cryptobot" (.invoice "IV1" "https://pay") 0

def sampleWaitingDb : Db := sampleRequest.toOption.getD (sampleDb 2 ⟨0, money_zero_fits⟩)

/-- The deal waits for the 10.50 of deposit 1. -/
def sampleWaitingDeal : Deal :=
  { newDeal 1 2 1 ⟨1000000000, money_ten_fits⟩ ⟨50000000, by decide⟩ .pending_topup "cryptobot" false 0 with
    topup_deposit_id := some 1 }

theorem sampleRequest_ok : sampleRequest = .ok sampleWaitingDb := by
  have hsome : sampleRequest.toOption.isSome = true := by decide +kernel
  unfold sampleWaitingDb
  cases h : sampleRequest with
  | error e =>
    rw [h] at hsome
    cases hsome
  | ok db => rfl

theorem sampleWaitingDb_row : sampleWaitingDb.deals.row 1 = some sampleWaitingDeal := by decide +kernel

/-- The invoice is paid in full: 10.00 are locked, 0.50 withheld. -/
theorem samplePayment_accounted :
    ∃ t, Reach TopupStep (fun op s => s.Ok op) (Topup.start sampleWaitingDb 1 sampleWaitingDeal) t ∧
      t.payments = [(1, 21 / 2)] ∧ t.moves = [(10, true)] ∧
        (t.db.balance 1 1).amount.val + (t.db.balance 1 1).locked.val = 10 := by
  have hrun : ∃ t, (Topup.start sampleWaitingDb 1 sampleWaitingDeal).exec (.pay 1 (some (21 / 2)) (.error "") 0) = .ok t ∧
      t.payments = [(1, 21 / 2)] ∧ t.moves = [(10, true)] ∧ t.commission_set = true := by
    refine exists_ok ?_
    decide +kernel
  obtain ⟨t, hstep, hpay, hmoves, hset⟩ := hrun
  have hok : (Topup.start sampleWaitingDb 1 sampleWaitingDeal).Ok (.pay 1 (some (21 / 2)) (.error "") 0) := by
    intro dep _ _
    have hcur : sampleWaitingDb.currencies.row 1 = some (sampleCurrency 2) := by decide +kernel
    have hbal : (sampleWaitingDb.balance 1 1).amount.val = 0 := by decide +kernel
    refine ⟨sampleWaitingDeal, sampleCurrency 2, sampleWaitingDb_row, hcur, ?_, ?_, ?_⟩
    · show IsGrid 2 (21 / 2)
      decide +kernel
    · show IsGrid 8 (21 / 2)
      decide +kernel
    intro amt due hdue
    have hten : topupDue sampleWaitingDeal (sampleCurrency 2) = .ok (10, 1 / 2) := by decide +kernel
    cases hten.symm.trans hdue
    refine ⟨10, 0, ?_, by decide⟩
    show (sampleWaitingDb.balance 1 1).amount.val + (21 / 2 - 1 / 2) = _
    rw [hbal]
    norm_num
  have hreach : Reach TopupStep (fun op s => s.Ok op) (Topup.start sampleWaitingDb 1 sampleWaitingDeal) t :=
    .step .refl hok hstep
  have hrate : 0 ≤ (sampleDb 2 ⟨0, by decide⟩).app_settings.deal_commission_percent.val := by decide +kernel
  have hcode : getCurrencyByCode (sampleDb 2 ⟨0, by decide⟩) "USDT" = .ok (1, sampleCurrency 2) := by decide +kernel
  have hlocked : 0 ≤ ((sampleDb 2 ⟨0, by decide⟩).balance 1 1).locked.val := by decide +kernel
  obtain ⟨d₀, com, hrow, -, -, hcom, hall⟩ := topup_accounted hrate hcode hlocked sampleRequest_ok
  cases hrow.symm.trans sampleWaitingDb_row
  cases hcom
  obtain ⟨hfunds, -⟩ := hall t hreach
  refine ⟨t, hreach, hpay, hmoves, ?_⟩
  rw [hfunds, hpay, hset]
  decide +kernel

/-- The deal is deleted before its invoice is paid: the deposit ends as paid, and
the 10.50 of the payment are nowhere. -/
theorem deleted_deal_loses_payment :
    sampleRequest = .ok sampleWaitingDb ∧ sampleWaitingDb.deals.row 1 = some sampleWaitingDeal ∧
      ∃ t, Reach TopupStep Free (Topup.start sampleWaitingDb 1 sampleWaitingDeal) t ∧ t.payments = [(1, 21 / 2)] ∧
        t.commission_set = false ∧ (t.db.wallet_deposits.row 1).any (·.status = .paid) = true ∧
          (t.db.balance 1 1).amount.val = 0 ∧ (t.db.balance 1 1).locked.val = 0 := by
  refine ⟨sampleRequest_ok, sampleWaitingDb_row, ?_⟩
  refine Reach.free_of_check Topup.exec [.delete, .pay 1 (some (21 / 2)) (.error "") 0] ?_
  decide +kernel

end Garant
