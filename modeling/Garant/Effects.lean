import Garant.System
/-!
# What the operations do

`Effect` lists what a transaction can do to funds, deals and withdrawals, and
`effects_of` (with `withdrawal_effect` for the withdrawal requests) says that
every operation is a sequence of them. The invariants are case analyses over
`Effect`, so none of them looks at an operation again.
-/
open Decimal Relation

namespace Garant

/-! ## Moving funds -/

theorem dealRef_ne {s : String} (h : s ≠ trustEvent) (k : Option ℕ) : (dealRef s k).event_type ≠ trustEvent := h

theorem depositRef_ne {s : String} (h : s ≠ trustEvent) (k : ℕ) (d : WalletDeposit) :
    (depositRef s k d).event_type ≠ trustEvent := h

theorem withdrawalRef_ne {s : String} (h : s ≠ trustEvent) (k : ℕ) : (withdrawalRef s k).event_type ≠ trustEvent := h

section
variable {db db' : Db} {u c : ℕ} {x y : ℚ} {ref : LedgerRef}

/-- A credit adds to the spendable amount and leaves the locked funds alone. -/
theorem creditAmount_ok (hev : ref.event_type ≠ trustEvent) (h : creditAmount db u c x ref = .ok db') :
    ∃ bal : UserBalance, Moved False db db' u c bal ∧ bal.locked = (db.balance u c).locked ∧
      store (plus (db.balance u c).amount.val x) = .ok bal.amount := by
  obtain ⟨bal, ha, hl, hm⟩ := changeBalance_ok hev h
  rw [store_val, Except.ok.injEq] at hl
  exact ⟨bal, hm, hl.symm, ha⟩

theorem dropLocked_ok (hev : ref.event_type ≠ trustEvent) (h : dropLocked db u c x ref = .ok db') :
    ∃ bal : UserBalance, Moved False db db' u c bal ∧ bal.amount = (db.balance u c).amount ∧
      store (max 0 (minus (db.balance u c).locked.val x)) = .ok bal.locked := by
  obtain ⟨bal, ha, hl, hm⟩ := changeBalance_ok hev h
  rw [store_val, Except.ok.injEq] at ha
  exact ⟨bal, hm, ha.symm, hl⟩

theorem unlockAndCredit_ok (hev : ref.event_type ≠ trustEvent) (h : unlockAndCredit db u c x y ref = .ok db') :
    ∃ bal : UserBalance, Moved False db db' u c bal ∧ store (plus (db.balance u c).amount.val y) = .ok bal.amount ∧
      store (max 0 (minus (db.balance u c).locked.val x)) = .ok bal.locked := by
  obtain ⟨bal, ha, hl, hm⟩ := changeBalance_ok hev h
  exact ⟨bal, hm, ha, hl⟩

theorem debit_ok (h : debit db u c x = .ok db') :
    ∃ bal : UserBalance, Moved False db db' u c bal ∧ x ≤ (db.balance u c).amount.val ∧
      store (minus (db.balance u c).amount.val x) = .ok bal.amount ∧
      store (plus (db.balance u c).locked.val x) = .ok bal.locked := by
  obtain ⟨_, hr, h⟩ := bind_ok.1 h
  obtain ⟨bal, ha, hl, hm⟩ := changeBalance_ok (by decide) h
  exact ⟨bal, hm, not_lt.1 (raiseIf_ok.1 hr), ha, hl⟩

end

/-! ## Effects -/

/-- The irregular effects a step may have. -/
structure Flaws where
  /-- A deal with no locked funds enters arbitration. -/
  seizes : Prop
  /-- An amount is rounded to other digits in the locked funds than in its own row. -/
  coarse : Prop
  /-- A refund is rounded to other digits than the withdrawal. -/
  blurred : Prop
  /-- A withdrawal is settled that is no longer open. -/
  stale : Prop
  /-- A withdrawal is refunded while its transfer may go through. -/
  overpaid : Prop
  /-- Funds move without a ledger entry. -/
  silent : Prop

/-- The funds, the withdrawals and the ledger of the funds are as they were. -/
structure SameMoney (db db' : Db) : Prop where
  balance : ∀ u c, db'.balance u c = db.balance u c
  ledger : ∃ es, db'.wallet_ledger_entries = db.wallet_ledger_entries ++ es ∧ ∀ e ∈ es, e.event_type = trustEvent
  withdrawals : db'.wallet_withdrawals = db.wallet_withdrawals
  currencies : db'.currencies = db.currencies

theorem SameMoney.of_eq {db db' : Db} (hb : db'.user_balances = db.user_balances)
    (hl : db'.wallet_ledger_entries = db.wallet_ledger_entries) (hw : db'.wallet_withdrawals = db.wallet_withdrawals)
    (hc : db'.currencies = db.currencies) : SameMoney db db' :=
  ⟨fun u c => by simp only [Db.balance, hb], ⟨[], by simp [hl]⟩, hw, hc⟩

/-- The terms of a deal, which nothing changes. -/
def SameTerms (d d' : Deal) : Prop :=
  d'.buyer_id = d.buyer_id ∧ d'.seller_id = d.seller_id ∧ d'.currency_id = d.currency_id ∧ d'.amount = d.amount

/-- A deal for an amount its currency can express. -/
def DealOk (currencies : Table Currency) (d : Deal) : Prop :=
  0 ≤ d.amount.val ∧ ∃ c, currencies.row d.currency_id = some c ∧ IsGrid c.decimals d.amount.val

/-- The withdrawal's funds are still locked. -/
def WalletWithdrawStatus.isOpen : WalletWithdrawStatus → Bool
  | .pending | .approved => true
  | .sent | .rejected => false

def SameRequest (w w' : WalletWithdrawal) : Prop :=
  w'.user_id = w.user_id ∧ w'.currency_id = w.currency_id ∧ w'.amount = w.amount

/-- Which way a deal's locked funds go. -/
inductive Flow
  | refund
  | release
  | split (share : ℚ)

/-- The movement of a settlement: the buyer's locked funds are released and
credited to the buyer, to the seller, or to both. -/
inductive Payout (db : Db) (d : Deal) (amt : ℚ) : Flow → Db → Prop
  | refund {db' : Db} {r : LedgerRef} (hr : r.event_type ≠ trustEvent)
      (h : unlockAndCredit db d.buyer_id d.currency_id amt amt r = .ok db') : Payout db d amt .refund db'
  | release {db₁ db' : Db} {r₁ r₂ : LedgerRef} (hr₁ : r₁.event_type ≠ trustEvent) (hr₂ : r₂.event_type ≠ trustEvent)
      (h₁ : dropLocked db d.buyer_id d.currency_id amt r₁ = .ok db₁)
      (h₂ : creditAmount db₁ d.seller_id d.currency_id amt r₂ = .ok db') : Payout db d amt .release db'
  | split {share : ℚ} {db₁ db' : Db} {r₁ r₂ : LedgerRef} (hr₁ : r₁.event_type ≠ trustEvent)
      (hr₂ : r₂.event_type ≠ trustEvent) (h₁ : unlockAndCredit db d.buyer_id d.currency_id amt share r₁ = .ok db₁)
      (h₂ : creditAmount db₁ d.seller_id d.currency_id (minus amt share) r₂ = .ok db') : Payout db d amt (.split share) db'

/-- The deal's amount as the settling operations compute it. -/
def Quantised (db : Db) (d : Deal) (amt : ℚ) : Prop :=
  ∃ c, db.currencies.row d.currency_id = some c ∧ quantizeMoney d.amount.val c.decimals = .ok amt

/-- A deal leaves escrow and its funds are paid out. -/
structure Settled (db db' : Db) (i : ℕ) (d : Deal) (flow : Flow) : Prop where
  row : db.deals.row i = some d
  active : isActiveForMoneyMovement d.status = true
  paid : ∃ amt db₁, Quantised db d amt ∧ Payout db d amt flow db₁ ∧ SameMoney db₁ db'
  closed : ∃ d', db'.deals = db.deals.set i d' ∧ SameTerms d d' ∧ isTerminal d'.status = true

inductive Effect (F : Flaws) (db db' : Db) : Prop
  | idle (h : SameMoney db db') (hd : db'.deals = db.deals)
  | credit {u c : ℕ} {bal : UserBalance} (h : Moved F.silent db db' u c bal)
      (hl : bal.locked = (db.balance u c).locked)
  | opened {d : Deal} {bal : UserBalance} {db₁ : Db} (h : Moved False db db₁ d.buyer_id d.currency_id bal)
      (h' : SameMoney db₁ db') (hd : db'.deals = db.deals.insert d) (ha : isActiveForMoneyMovement d.status = true)
      (hk : DealOk db.currencies d)
      (hl : F.coarse ∨ bal.locked.val = (db.balance d.buyer_id d.currency_id).locked.val + d.amount.val)
  | waiting {d : Deal} (h : SameMoney db db') (hd : db'.deals = db.deals.insert d)
      (ha : isActiveForMoneyMovement d.status = false) (hk : DealOk db.currencies d)
  | relabel {i : ℕ} {d d' : Deal} (h : SameMoney db db') (hr : db.deals.row i = some d)
      (hd : db'.deals = db.deals.set i d') (ht : SameTerms d d')
      (ha : F.seizes ∨ isActiveForMoneyMovement d'.status = isActiveForMoneyMovement d.status)
  | activated {i : ℕ} {d d' : Deal} {bal : UserBalance} {amt : ℚ} {db₁ : Db}
      (h : Moved False db db₁ d.buyer_id d.currency_id bal) (h' : SameMoney db₁ db') (hr : db.deals.row i = some d)
      (hd : db'.deals = db.deals.set i d') (ht : SameTerms d d') (ha : isActiveForMoneyMovement d.status = false)
      (ha' : isActiveForMoneyMovement d'.status = true) (hq : Quantised db d amt)
      (hl : store (plus (db.balance d.buyer_id d.currency_id).locked.val amt) = .ok bal.locked)
  | settled {i : ℕ} {d : Deal} {flow : Flow} (h : Settled db db' i d flow)
  | removed {i : ℕ} {d : Deal} (h : SameMoney db db') (hr : db.deals.row i = some d)
      (hd : db'.deals = db.deals.erase i)
      (ha : isActiveForMoneyMovement d.status = false ∨ db.currencies.row d.currency_id = none)
  | removedActive {i : ℕ} {d : Deal} {bal : UserBalance} {amt : ℚ} {db₁ : Db}
      (h : Moved F.silent db db₁ d.buyer_id d.currency_id bal) (h' : SameMoney db₁ db') (hr : db.deals.row i = some d)
      (hd : db'.deals = db.deals.erase i) (ha : isActiveForMoneyMovement d.status = true) (hq : Quantised db d amt)
      (hl : store (max 0 (minus (db.balance d.buyer_id d.currency_id).locked.val amt)) = .ok bal.locked)
  | requested {w : WalletWithdrawal} {bal : UserBalance} {db₁ : Db} (h : Moved False db db₁ w.user_id w.currency_id bal)
      (hb : db'.user_balances = db₁.user_balances) (hj : db'.wallet_ledger_entries = db₁.wallet_ledger_entries)
      (hd : db'.deals = db.deals) (hc : db'.currencies = db.currencies)
      (hw : db'.wallet_withdrawals = db.wallet_withdrawals.insert w) (ho : w.status.isOpen = true)
      (hn : 0 ≤ w.amount.val)
      (hl : F.coarse ∨ bal.locked.val = (db.balance w.user_id w.currency_id).locked.val + w.amount.val)
  | annotated {i : ℕ} {w w' : WalletWithdrawal} (hr : db.wallet_withdrawals.row i = some w)
      (h : db' = db.setWithdrawal i w') (ht : SameRequest w w') (ho : w'.status.isOpen = w.status.isOpen)
  | paidOut {i : ℕ} {w w' : WalletWithdrawal} {bal : UserBalance} {db₁ : Db}
      (h : Moved F.silent db db₁ w.user_id w.currency_id bal) (h' : db' = db₁.setWithdrawal i w')
      (hr : db.wallet_withdrawals.row i = some w) (ht : SameRequest w w') (ho' : w'.status.isOpen = false)
      (ho : F.stale ∨ w.status.isOpen = true)
      (hl : F.coarse ∨ store (max 0 (minus (db.balance w.user_id w.currency_id).locked.val w.amount.val)) =
        .ok bal.locked)

/-- A transaction is a sequence of effects. -/
def Effects (F : Flaws) : Db → Db → Prop := ReflTransGen (Effect F)

theorem Effect.effects {F : Flaws} {db db' : Db} (h : Effect F db db') : Effects F db db' := .single h

/-! ## Settling operations -/

section
variable {db db₁ db' : Db} {i u : ℕ} {d d' : Deal} {amt : ℚ} {flow : Flow} {now : Time}

theorem dealAmount_ok {e : Exc} (h : dealAmount db d e = .ok amt) : Quantised db d amt := by
  obtain ⟨c, hc, h⟩ := bind_ok.1 h
  exact ⟨c, orRaise_ok.1 hc, h⟩

/-- A payout moves funds and nothing else. -/
theorem Payout.frame (h : Payout db d amt flow db₁) :
    db₁.deals = db.deals ∧ db₁.wallet_deposits = db.wallet_deposits ∧ db₁.wallet_withdrawals = db.wallet_withdrawals ∧
      db₁.currencies = db.currencies ∧ db₁.users = db.users := by
  cases h with
  | refund hr h =>
    obtain ⟨_, m, -, -⟩ := unlockAndCredit_ok hr h
    exact ⟨m.deals, m.deposits, m.withdrawals, m.currencies, m.users⟩
  | release hr₁ hr₂ h₁ h₂ =>
    obtain ⟨_, m₁, -, -⟩ := dropLocked_ok hr₁ h₁
    obtain ⟨_, m₂, -, -⟩ := creditAmount_ok hr₂ h₂
    exact ⟨m₂.deals.trans m₁.deals, m₂.deposits.trans m₁.deposits, m₂.withdrawals.trans m₁.withdrawals,
      m₂.currencies.trans m₁.currencies, m₂.users.trans m₁.users⟩
  | split hr₁ hr₂ h₁ h₂ =>
    obtain ⟨_, m₁, -, -⟩ := unlockAndCredit_ok hr₁ h₁
    obtain ⟨_, m₂, -, -⟩ := creditAmount_ok hr₂ h₂
    exact ⟨m₂.deals.trans m₁.deals, m₂.deposits.trans m₁.deposits, m₂.withdrawals.trans m₁.withdrawals,
      m₂.currencies.trans m₁.currencies, m₂.users.trans m₁.users⟩

/-- A payout followed by the closing of the deal's row settles the deal. -/
theorem Payout.settled (hp : Payout db d amt flow db₁) (hr : db.deals.row i = some d)
    (ha : isActiveForMoneyMovement d.status = true) (hq : Quantised db d amt) (h' : SameMoney db₁ db')
    (hd : db'.deals = db₁.deals.set i d') (ht : SameTerms d d') (hc : isTerminal d'.status = true) :
    Settled db db' i d flow where
  row := hr
  active := ha
  paid := ⟨amt, db₁, hq, hp, h'⟩
  closed := ⟨d', by rw [hd, hp.frame.1], ht, hc⟩

theorem refundPrincipal_ok (h : refundPrincipal db d.buyer_id d.currency_id amt = .ok db₁) :
    Payout db d amt .refund db₁ := .refund (by decide) h

theorem releaseTo_ok (h : releaseTo db d.buyer_id d.seller_id d.currency_id amt amt = .ok db₁) :
    Payout db d amt .release db₁ := by
  obtain ⟨db₂, h₁, h₂⟩ := bind_ok.1 h
  exact .release (by decide) (by decide) h₁ h₂

theorem declineDeal_ok (h : declineDeal db i u now = .ok db') : ∃ d, Settled db db' i d .refund := by
  simp only [declineDeal, getDeal, bind_ok, orRaise_ok, raiseIf_ok, pure_ok] at h
  obtain ⟨d, hr, _, -, _, hs, amt, hq, db₁, hp, rfl⟩ := h
  exact ⟨d, (refundPrincipal_ok hp).settled hr (by rw [not_not.1 hs]; rfl) (dealAmount_ok hq) (.of_eq rfl rfl rfl rfl)
    rfl ⟨rfl, rfl, rfl, rfl⟩ rfl⟩

theorem acceptCancel_ok (h : acceptCancel db i u now = .ok db') : ∃ d, Settled db db' i d .refund := by
  simp only [acceptCancel, getDeal, bind_ok, orRaise_ok, raiseIf_ok, pure_ok] at h
  obtain ⟨d, hr, _, hs, _, -, _, -, amt, hq, db₁, hp, rfl⟩ := h
  exact ⟨d, (refundPrincipal_ok hp).settled hr (by rw [not_not.1 hs]; rfl) (dealAmount_ok hq) (.of_eq rfl rfl rfl rfl)
    rfl ⟨rfl, rfl, rfl, rfl⟩ rfl⟩

theorem finishDeal_ok (h : finishDeal db i u now = .ok db') : ∃ d, Settled db db' i d .release := by
  simp only [finishDeal, getDeal, bind_ok, orRaise_ok, raiseIf_ok, pure_ok] at h
  obtain ⟨d, hr, _, -, _, hs, amt, hq, db₁, hp, rfl⟩ := h
  exact ⟨d, (releaseTo_ok hp).settled hr (by rw [not_not.1 hs]; rfl) (dealAmount_ok hq) (.of_eq rfl rfl rfl rfl)
    rfl ⟨rfl, rfl, rfl, rfl⟩ rfl⟩

/-- The winner of an arbitration and the way the funds go. -/
def winnerFlow (winner : String) : Flow := if winner = "buyer" then .refund else .release

theorem payWinner_ok {winner : String} {r : Db × DealStatus} (h : payWinner db d winner amt = .ok r) :
    Payout db d amt (winnerFlow winner) r.1 ∧ isTerminal r.2 = true := by
  unfold payWinner at h
  unfold winnerFlow
  split at h
  · obtain ⟨db₁, hp, h⟩ := bind_ok.1 h
    rw [if_pos ‹_›, ← pure_ok.1 h]
    exact ⟨refundPrincipal_ok hp, rfl⟩
  · obtain ⟨db₁, hp, h⟩ := bind_ok.1 h
    rw [if_neg ‹_›, ← pure_ok.1 h]
    exact ⟨releaseTo_ok hp, rfl⟩

theorem resolveArbitration_ok {winner note : String} (h : resolveArbitration db i u winner note now = .ok db') :
    ∃ d, Settled db db' i d (winnerFlow winner) := by
  simp only [resolveArbitration, getDeal, bind_ok, orRaise_ok, raiseIf_ok, pure_ok] at h
  obtain ⟨d, hr, admin, -, _, -, _, hs, _, -, amt, hq, ⟨db₁, status⟩, hp, rfl⟩ := h
  obtain ⟨hp, hc⟩ := payWinner_ok hp
  exact ⟨d, hp.settled hr (by rw [not_not.1 hs]; rfl) (dealAmount_ok hq) (.of_eq rfl rfl rfl rfl)
    rfl ⟨rfl, rfl, rfl, rfl⟩ hc⟩

/-- One deal of the inactivity sweep is refunded, or passed over. -/
theorem sweepInactivityDeal_ok (hr : db.deals.row i = some d) (ha : isActiveForMoneyMovement d.status = true)
    (h : sweepInactivityDeal now db i = .ok db') :
    Settled db db' i d .refund ∨ db.currencies.row d.currency_id = none ∧ db' = db := by
  simp only [sweepInactivityDeal, getDeal, bind_ok, orRaise_ok] at h
  obtain ⟨d', hr', h⟩ := h
  obtain rfl : d = d' := Option.some.inj (hr.symm.trans hr')
  split at h
  · exact .inr ⟨‹_›, (pure_ok.1 h).symm⟩
  · simp only [bind_ok, pure_ok] at h
    obtain ⟨amt, hq, db₁, hp, rfl⟩ := h
    refine .inl ((refundPrincipal_ok hp).settled hr ha ⟨_, ‹_›, hq⟩ (.of_eq rfl rfl rfl rfl) rfl ⟨rfl, rfl, rfl, rfl⟩ ?_)
    simp only
    split <;> rfl

end

end Garant
