import Garant.Turns
/-!
# Escrow backing

The locked funds of a user in a currency are exactly what the open deals and
withdrawals hold (`Backed`). Every regular effect keeps this, so it holds in
every state a run of regular steps reaches. A forced arbitration of a deal
that holds nothing breaks it.
-/
open Decimal Relation

namespace Garant

/-- What a deal holds of the funds of `u` in `c`. -/
def dealHold (u c : ℕ) (d : Deal) : ℚ :=
  if isActiveForMoneyMovement d.status = true ∧ d.buyer_id = u ∧ d.currency_id = c then d.amount.val else 0

/-- What a withdrawal holds of the funds of `u` in `c`. -/
def withdrawalHold (u c : ℕ) (w : WalletWithdrawal) : ℚ :=
  if w.status.isOpen = true ∧ w.user_id = u ∧ w.currency_id = c then w.amount.val else 0

/-- What all deals and withdrawals together hold of the funds of `u` in `c`. -/
def held (db : Db) (u c : ℕ) : ℚ :=
  db.deals.sum (dealHold u c) + db.wallet_withdrawals.sum (withdrawalHold u c)

structure Backed (db : Db) : Prop where
  locked : ∀ u c, (db.balance u c).locked.val = held db u c
  deals : ∀ i d, db.deals.row i = some d → DealOk db.currencies d
  amounts : AmountsOk db

section
variable {F : Flaws} {db db₁ db' : Db} {i u c : ℕ} {d d' : Deal} {w w' : WalletWithdrawal} {bal : UserBalance}
  {amt x : ℚ}

/-! ## Holds -/

theorem dealHold_active (h : isActiveForMoneyMovement d.status = true) (u c : ℕ) :
    dealHold u c d = if u = d.buyer_id ∧ c = d.currency_id then d.amount.val else 0 := by
  unfold dealHold
  simp only [h, true_and, eq_comm]

theorem dealHold_inactive (h : isActiveForMoneyMovement d.status = false) (u c : ℕ) : dealHold u c d = 0 := by
  unfold dealHold
  rw [if_neg (by simp [h])]

theorem dealHold_same (ht : SameTerms d d')
    (ha : isActiveForMoneyMovement d'.status = isActiveForMoneyMovement d.status) (u c : ℕ) :
    dealHold u c d' = dealHold u c d := by
  obtain ⟨hb, -, hc, hm⟩ := ht
  unfold dealHold
  rw [ha, hb, hc, hm]

theorem withdrawalHold_open (h : w.status.isOpen = true) (u c : ℕ) :
    withdrawalHold u c w = if u = w.user_id ∧ c = w.currency_id then w.amount.val else 0 := by
  unfold withdrawalHold
  simp only [h, true_and, eq_comm]

theorem withdrawalHold_closed (h : w.status.isOpen = false) (u c : ℕ) : withdrawalHold u c w = 0 := by
  unfold withdrawalHold
  rw [if_neg (by simp [h])]

theorem withdrawalHold_same (ht : SameRequest w w') (ho : w'.status.isOpen = w.status.isOpen) (u c : ℕ) :
    withdrawalHold u c w' = withdrawalHold u c w := by
  obtain ⟨hu, hc, hm⟩ := ht
  unfold withdrawalHold
  rw [ho, hu, hc, hm]

theorem active_of_terminal {st : DealStatus} (h : isTerminal st = true) : isActiveForMoneyMovement st = false := by
  cases st <;> revert h <;> decide

theorem dealHold_nonneg (h : DealOk db.currencies d) (u c : ℕ) : 0 ≤ dealHold u c d := by
  unfold dealHold
  split
  · exact h.1
  · exact le_rfl

theorem withdrawalHold_nonneg (h : 0 ≤ w.amount.val) (u c : ℕ) : 0 ≤ withdrawalHold u c w := by
  unfold withdrawalHold
  split
  · exact h
  · exact le_rfl

theorem Backed.deals_nonneg (h : Backed db) (u c : ℕ) : 0 ≤ db.deals.sum (dealHold u c) :=
  Table.sum_nonneg fun i d hd => dealHold_nonneg (h.deals i d hd) u c

theorem withdrawals_nonneg (h : AmountsOk db) (u c : ℕ) : 0 ≤ db.wallet_withdrawals.sum (withdrawalHold u c) :=
  Table.sum_nonneg fun i w hw => withdrawalHold_nonneg (h i w hw) u c

/-- The funds of an active deal are in the buyer's locked funds. -/
theorem Backed.deal_le (h : Backed db) (hr : db.deals.row i = some d) (ha : isActiveForMoneyMovement d.status = true) :
    d.amount.val ≤ (db.balance d.buyer_id d.currency_id).locked.val := by
  have hle := Table.le_sum (f := dealHold d.buyer_id d.currency_id)
    (fun i d hd => dealHold_nonneg (h.deals i d hd) _ _) hr
  rw [dealHold_active ha, if_pos ⟨rfl, rfl⟩] at hle
  rw [h.locked, held]
  exact le_add_of_le_of_nonneg hle (withdrawals_nonneg h.amounts _ _)

/-- The funds of an open withdrawal are in the user's locked funds. -/
theorem Backed.withdrawal_le (h : Backed db) (hr : db.wallet_withdrawals.row i = some w) (ho : w.status.isOpen = true) :
    w.amount.val ≤ (db.balance w.user_id w.currency_id).locked.val := by
  have hle := Table.le_sum (f := withdrawalHold w.user_id w.currency_id)
    (fun i w hw => withdrawalHold_nonneg (h.amounts i w hw) _ _) hr
  rw [withdrawalHold_open ho, if_pos ⟨rfl, rfl⟩] at hle
  rw [h.locked, held]
  exact le_add_of_nonneg_of_le (h.deals_nonneg _ _) hle

/-! ## Locked funds -/

/-- The locked funds moved by `x` at one place and nowhere else. -/
def LockedBy (db db' : Db) (u c : ℕ) (x : ℚ) : Prop :=
  ∀ v e, (db'.balance v e).locked.val = (db.balance v e).locked.val + if v = u ∧ e = c then x else 0

theorem Moved.lockedBy {P : Prop} (hm : Moved P db db' u c bal)
    (hl : bal.locked.val = (db.balance u c).locked.val + x) : LockedBy db db' u c x := by
  intro v e
  rw [hm.balance]
  split
  · rename_i h
    rw [hl, h.1, h.2]
  · rw [add_zero]

theorem SameMoney.lockedBy (h : SameMoney db₁ db') (hl : LockedBy db db₁ u c x) : LockedBy db db' u c x := by
  intro v e
  rw [h.balance, hl v e]

/-- The amount of a deal is its own quantisation. -/
theorem DealOk.quantised (h : DealOk db.currencies d) (hq : Quantised db d amt) : amt = d.amount.val := by
  obtain ⟨c, hc, hg⟩ := h.2
  obtain ⟨c', hc', hq⟩ := hq
  cases hc.symm.trans hc'
  exact quantizeMoney_of_grid hg hq

/-- A release that the locked funds cover takes out exactly the amount. -/
theorem unlock_exact {L l : Money} {a : Money} (hle : a.val ≤ L.val)
    (h : store (max 0 (minus L.val a.val)) = .ok l) : l.val = L.val + -a.val := by
  rw [store_unlock (Numeric.isGrid _) (Numeric.isGrid _) hle h, sub_eq_add_neg]

/-- A payout takes the amount out of the buyer's locked funds and no one else's. -/
theorem Payout.lockedBy {flow : Flow} (h : Payout db d d.amount.val flow db₁)
    (hle : d.amount.val ≤ (db.balance d.buyer_id d.currency_id).locked.val) :
    LockedBy db db₁ d.buyer_id d.currency_id (-d.amount.val) := by
  have credit {db₂ db₃ : Db} {u : ℕ} {y : ℚ} {r : LedgerRef} (hr : r.event_type ≠ trustEvent)
      (h : creditAmount db₂ u d.currency_id y r = .ok db₃)
      (hl : LockedBy db db₂ d.buyer_id d.currency_id (-d.amount.val)) :
      LockedBy db db₃ d.buyer_id d.currency_id (-d.amount.val) := by
    obtain ⟨b, hm, hb, -⟩ := creditAmount_ok hr h
    intro v e
    rw [hm.balance, ← hl v e]
    split
    · rename_i hv
      rw [hb, hv.1, hv.2]
    · rfl
  cases h with
  | refund hr h =>
    obtain ⟨b, hm, -, hl⟩ := unlockAndCredit_ok hr h
    exact hm.lockedBy (unlock_exact hle hl)
  | release hr₁ hr₂ h₁ h₂ =>
    obtain ⟨b, hm, -, hl⟩ := dropLocked_ok hr₁ h₁
    exact credit hr₂ h₂ (hm.lockedBy (unlock_exact hle hl))
  | split hr₁ hr₂ h₁ h₂ =>
    obtain ⟨b, hm, -, hl⟩ := unlockAndCredit_ok hr₁ h₁
    exact credit hr₂ h₂ (hm.lockedBy (unlock_exact hle hl))

/-! ## Every regular effect keeps the backing -/

/-- The locked funds and the holds moved together. -/
theorem Backed.move (h : Backed db) (hl : LockedBy db db' u c x)
    (hh : ∀ v e, held db' v e = held db v e + if v = u ∧ e = c then x else 0)
    (hd : ∀ i d, db'.deals.row i = some d → DealOk db'.currencies d) (ha : AmountsOk db') : Backed db' := by
  refine ⟨?_, hd, ha⟩
  intro v e
  rw [hl v e, hh v e, h.locked]

theorem Backed.stay (h : Backed db) (hl : ∀ v e, (db'.balance v e).locked = (db.balance v e).locked)
    (hh : ∀ v e, held db' v e = held db v e)
    (hd : ∀ i d, db'.deals.row i = some d → DealOk db'.currencies d) (ha : AmountsOk db') : Backed db' := by
  refine ⟨?_, hd, ha⟩
  intro v e
  rw [hl v e, hh v e, h.locked]

theorem SameTerms.dealOk {t : Table Currency} (ht : SameTerms d d') (h : DealOk t d) : DealOk t d' := by
  obtain ⟨-, -, hc, hm⟩ := ht
  unfold DealOk
  rw [hc, hm]
  exact h

theorem deals_set_ok {t : Table Deal} {cs : Table Currency} (h : ∀ i d, t.row i = some d → DealOk cs d)
    (hr : t.row i = some d) (ht : SameTerms d d') : ∀ j e, (t.set i d').row j = some e → DealOk cs e := by
  intro j e he
  rw [Table.set_row hr] at he
  split at he
  · cases he
    exact ht.dealOk (h i d hr)
  · exact h j e he

theorem deals_insert_ok {t : Table Deal} {cs : Table Currency} (h : ∀ i d, t.row i = some d → DealOk cs d)
    (hd : DealOk cs d) : ∀ j e, (t.insert d).row j = some e → DealOk cs e := by
  intro j e he
  rw [Table.insert_row] at he
  split at he
  · cases he
    exact hd
  · exact h j e he

theorem deals_erase_ok {t : Table Deal} {cs : Table Currency} (h : ∀ i d, t.row i = some d → DealOk cs d) :
    ∀ j e, (t.erase i).row j = some e → DealOk cs e := by
  intro j e he
  rw [Table.erase_row] at he
  split at he
  · cases he
  · exact h j e he

/-- No deal without funds is arbitrated, no amount rounded, no closed withdrawal settled. -/
def Flaws.Escrow (F : Flaws) : Prop := ¬F.seizes ∧ ¬F.coarse ∧ ¬F.stale

theorem Effect.backed (hF : F.Escrow) (h : Effect F db db') (hb : Backed db) : Backed db' := by
  obtain ⟨hseize, hcoarse, hstale⟩ := hF
  have hamt := h.amounts hb.amounts
  cases h with
  | idle h hd =>
    refine hb.stay (fun v e => by rw [h.balance]) (fun v e => by rw [held, hd, h.withdrawals, held]) ?_ hamt
    rw [hd, h.currencies]
    exact hb.deals
  | credit h hl =>
    refine hb.stay ?_ (fun v e => by rw [held, h.deals, h.withdrawals, held]) ?_ hamt
    · intro v e
      rw [h.balance]
      split
      · rename_i hv
        rw [hl, hv.1, hv.2]
      · rfl
    · rw [h.deals, h.currencies]
      exact hb.deals
  | @opened d bal db₁ h h' hd ha hk hl =>
    refine hb.move (h'.lockedBy (h.lockedBy (hl.resolve_left hcoarse))) ?_ ?_ hamt
    · intro v e
      rw [held, hd, Table.sum_insert, h'.withdrawals, h.withdrawals, dealHold_active ha, held]
      ring
    · rw [hd, h'.currencies, h.currencies]
      exact deals_insert_ok hb.deals hk
  | @waiting d h hd ha hk =>
    refine hb.stay (fun v e => by rw [h.balance]) ?_ ?_ hamt
    · intro v e
      rw [held, hd, Table.sum_insert, h.withdrawals, dealHold_inactive ha, held, add_zero]
    · rw [hd, h.currencies]
      exact deals_insert_ok hb.deals hk
  | @relabel i d d' h hr hd ht ha =>
    refine hb.stay (fun v e => by rw [h.balance]) ?_ ?_ hamt
    · intro v e
      rw [held, hd, Table.sum_set hr, h.withdrawals, dealHold_same ht (ha.resolve_left hseize), held, sub_add_cancel]
    · rw [hd, h.currencies]
      exact deals_set_ok hb.deals hr ht
  | @activated i d d' bal amt db₁ h h' hr hd ht ha ha' hq hl =>
    obtain rfl := (hb.deals i d hr).quantised hq
    have hlock := store_plus (Numeric.isGrid _) (Numeric.isGrid _) hl
    refine hb.move (h'.lockedBy (h.lockedBy hlock)) ?_ ?_ hamt
    · intro v e
      rw [held, hd, Table.sum_set hr, h'.withdrawals, h.withdrawals, dealHold_inactive ha, dealHold_active ha', held,
        ht.1, ht.2.2.1, ht.2.2.2]
      ring
    · rw [hd, h'.currencies, h.currencies]
      exact deals_set_ok hb.deals hr ht
  | @settled i d flow h =>
    obtain ⟨amt, db₁, hq, hp, hs⟩ := h.paid
    obtain ⟨d', hd, ht, hc⟩ := h.closed
    obtain rfl := (hb.deals i d h.row).quantised hq
    obtain ⟨hpd, -, hpw, hpc, -⟩ := hp.frame
    refine hb.move (hs.lockedBy (hp.lockedBy (hb.deal_le h.row h.active))) ?_ ?_ hamt
    · intro v e
      rw [held, hd, Table.sum_set h.row, hs.withdrawals, hpw, dealHold_active h.active,
        dealHold_inactive (active_of_terminal hc), held]
      split_ifs <;> ring
    · rw [hd, hs.currencies, hpc]
      exact deals_set_ok hb.deals h.row ht
  | @removed i d h hr hd ha =>
    -- the deal's currency is never missing
    have ha' : isActiveForMoneyMovement d.status = false := by
      obtain ⟨-, c, hc, -⟩ := hb.deals i d hr
      exact ha.resolve_right (by simp [hc])
    refine hb.stay (fun v e => by rw [h.balance]) ?_ ?_ hamt
    · intro v e
      rw [held, hd, Table.sum_erase hr, h.withdrawals, dealHold_inactive ha', held, sub_zero]
    · rw [hd, h.currencies]
      exact deals_erase_ok hb.deals
  | @removedActive i d bal amt db₁ h h' hr hd ha hq hl =>
    obtain rfl := (hb.deals i d hr).quantised hq
    refine hb.move (h'.lockedBy (h.lockedBy (unlock_exact (hb.deal_le hr ha) hl))) ?_ ?_ hamt
    · intro v e
      rw [held, hd, Table.sum_erase hr, h'.withdrawals, h.withdrawals, dealHold_active ha, held]
      split_ifs <;> ring
    · rw [hd, h'.currencies, h.currencies]
      exact deals_erase_ok hb.deals
  | @requested w bal db₁ h hbal hj hd hc hw ho hn hl =>
    have hlock : LockedBy db db' w.user_id w.currency_id w.amount.val := by
      intro v e
      rw [← h.lockedBy (hl.resolve_left hcoarse) v e, Db.balance, hbal, Db.balance]
    refine hb.move hlock ?_ ?_ hamt
    · intro v e
      rw [held, hd, hw, Table.sum_insert, withdrawalHold_open ho, held]
      ring
    · rw [hd, hc]
      exact hb.deals
  | @annotated i w w' hr h ht ho =>
    subst h
    refine hb.stay (fun v e => rfl) ?_ hb.deals hamt
    intro v e
    rw [held, Db.setWithdrawal, Table.sum_set hr, withdrawalHold_same ht ho, held]
    ring
  | @paidOut i w w' bal db₁ h h' hr ht ho' ho hl =>
    subst h'
    have hopen := ho.resolve_left hstale
    refine hb.move (h.lockedBy (unlock_exact (hb.withdrawal_le hr hopen) (hl.resolve_left hcoarse))) ?_ ?_ hamt
    · intro v e
      simp only [held, Db.setWithdrawal, h.deals, h.withdrawals]
      rw [Table.sum_set hr, withdrawalHold_open hopen, withdrawalHold_closed ho']
      split_ifs <;> ring
    · simp only [Db.setWithdrawal, h.deals, h.currencies]
      exact hb.deals

theorem Effects.backed (hF : F.Escrow) (h : Effects F db db') (hb : Backed db) : Backed db' := by
  induction h with
  | refl => exact hb
  | tail _ h ih => exact h.backed hF ih

end

/-! ## Runs -/

/-- No deals, no withdrawals and nothing locked. -/
structure Fresh (db : Db) : Prop where
  deals : ∀ i, db.deals.row i = none
  withdrawals : ∀ i, db.wallet_withdrawals.row i = none
  locked : ∀ u c, (db.balance u c).locked.val = 0

theorem Fresh.amountsOk {db : Db} (h : Fresh db) : AmountsOk db := by
  intro i w hw
  rw [h.withdrawals] at hw
  cases hw

theorem Fresh.backed {db : Db} (h : Fresh db) : Backed db := by
  have hz {α : Type} (t : Table α) (f : α → ℚ) (ht : ∀ i, t.row i = none) : t.sum f = 0 :=
    Finset.sum_eq_zero fun i _ => by rw [ht i]; rfl
  refine ⟨?_, ?_, h.amountsOk⟩
  · intro u c
    rw [held, hz _ _ h.deals, hz _ _ h.withdrawals, h.locked, add_zero]
  · intro i d hd
    rw [h.deals] at hd
    cases hd

theorem exec_backed {s t : Sys} {a : Action} (hs : SessionsOk s) (hb : Backed s.db) (hF : (a.flaws s).Escrow)
    (h : s.exec a = .ok t) : Backed t.db :=
  (exec_effects hs h).backed hF hb

/-- In every run without those irregular effects, the locked funds are what
the open deals and withdrawals hold. -/
theorem locked_eq_held {db : Db} {t : Sys} (h0 : Fresh db)
    (h : Reach Step (fun a s => (a.flaws s).Escrow) (Sys.start db) t) (u c : ℕ) :
    (t.db.balance u c).locked.val = held t.db u c := by
  have hinv : SessionsOk t ∧ Backed t.db := by
    refine h.invariant (I := fun s => SessionsOk s ∧ Backed s.db) ⟨start_sessionsOk h0.amountsOk, h0.backed⟩ ?_
    rintro a s t ⟨hs, hb⟩ hF hstep
    exact ⟨exec_sessionsOk hs hstep, exec_backed hs hb hF hstep⟩
  exact hinv.2.locked u c

/-- Where every currency has at most eight fractional digits, no amount of a deal is rounded. -/
theorem fineAmount_of_decimals {db : Db} (h : ∀ c cur, db.currencies.row c = some cur → cur.decimals ≤ 8) (b : ℕ)
    (code : String) (amount : Option ℚ) : FineAmount db b code amount := by
  intro c cur raw amt hc _ hq
  exact locksAs_of_grid ((quantizeMoney_grid hq).mono (h c cur (getCurrencyByCode_ok hc))) _

theorem sample_fresh (decimals : ℕ) (amount : Money) : Fresh (sampleDb decimals amount) where
  deals _ := rfl
  withdrawals _ := rfl
  locked u c := by
    simp only [Db.balance, sampleDb]
    split
    · simp [Numeric.val]
    · simp [UserBalance.zero]

theorem sample_decimals {db : Db} {n : ℕ} {amount : Money} (h : db.currencies = (sampleDb n amount).currencies)
    (hn : n ≤ 8) : ∀ c cur, db.currencies.row c = some cur → cur.decimals ≤ 8 := by
  intro c cur hc
  rw [h, sampleDb, Table.insert_row] at hc
  split at hc
  · cases hc
    exact hn
  · cases hc

theorem exec_currencies {s t : Sys} {a : Action} (hs : SessionsOk s) (h : s.exec a = .ok t) :
    t.db.currencies = s.db.currencies :=
  (exec_effects hs h).currencies

/-- A deal, accepted and finished, with its funds. -/
def sampleTrade : List Action :=
  [.op (.createDeal 1 2 "USDT" (some 10) "cryptobot" 0), .op (.acceptDeal 1 2 0)]

theorem sampleTrade_backed :
    ∃ t, Reach Step (fun a s => (a.flaws s).Escrow) (Sys.start (sampleDb 2 ⟨5000000000, by decide⟩)) t ∧
      held t.db 1 1 = 10 ∧ (t.db.balance 1 1).locked.val = held t.db 1 1 := by
  have hrun : ∃ t, Reach Step (fun a s => (a.flaws s).Escrow) (Sys.start (sampleDb 2 ⟨5000000000, by decide⟩)) t ∧
      held t.db 1 1 = 10 := by
    refine Reach.of_check Sys.exec sampleTrade
      (fun s => SessionsOk s ∧ s.db.currencies = (sampleDb 2 ⟨5000000000, by decide⟩).currencies)
      (by decide +kernel) ⟨start_sessionsOk (sample_fresh _ _).amountsOk, rfl⟩ ?_ ?_
    · rintro a s t ⟨hs, hc⟩ h
      exact ⟨exec_sessionsOk hs h, (exec_currencies hs h).trans hc⟩
    · rintro a ha s ⟨-, hc⟩
      simp only [sampleTrade, List.mem_cons, List.not_mem_nil, or_false] at ha
      rcases ha with rfl | rfl
      · exact ⟨id, fun hn => hn (fineAmount_of_decimals (sample_decimals hc (by decide)) _ _ _), id⟩
      · exact ⟨id, id, id⟩
  obtain ⟨t, hreach, hheld⟩ := hrun
  exact ⟨t, hreach, hheld, locked_eq_held (sample_fresh _ _) hreach 1 1⟩

/-- A deal waits for its top-up and an admin forces it into arbitration. -/
def sampleSeizure : List Action :=
  [.op (.createDealWithTopup 1 2 "USDT" (some 10) "cryptobot" (.invoice "IV1" "https://pay") 0),
    .op (.forceArbitration 1 3 none)]

/-- The deal then holds 10 of the buyer's funds, and nothing is locked. -/
theorem seized_deal_not_backed :
    Fresh (sampleDb 2 ⟨0, by decide⟩) ∧ ∃ t, Reach Step Free (Sys.start (sampleDb 2 ⟨0, by decide⟩)) t ∧
      held t.db 1 1 = 10 ∧ (t.db.balance 1 1).locked.val = 0 := by
  refine ⟨sample_fresh _ _, Reach.free_of_check Sys.exec sampleSeizure ?_⟩
  decide +kernel

end Garant
