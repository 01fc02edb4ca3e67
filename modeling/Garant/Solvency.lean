import Garant.Settlement
import Garant.Turns
/-!
# No balance is ever negative

Every operation that takes from a balance checks it first or takes at most what
is there. `Solvent` adds to that what the checks rely on: the amounts that deals,
deposits and withdrawals hold are not negative either. `solvent_run`: every run
from a solvent state stays solvent, as long as no provider reports a negative
amount and nobody asks for a negative invoice.
-/
open Decimal

namespace Garant

/-- No balance is negative, nor is an amount that a row says is to be moved. -/
structure Solvent (db : Db) : Prop where
  funds : NonNegative db
  trust : ∀ i u, db.users.row i = some u → 0 ≤ u.trust_deposit_balance.val
  deals : ∀ i d, db.deals.row i = some d → 0 ≤ d.amount.val
  deposits : ∀ i d, db.wallet_deposits.row i = some d → 0 ≤ d.amount.val

section
variable {db db₁ db' : Db} {i u c : ℕ} {x y amt : ℚ} {d : Deal} {dep : WalletDeposit} {ref : LedgerRef} {now : Time}
  {bal : UserBalance} {reply : InvoiceReply}

/-! ## Writing a balance -/

theorem minus_nonneg (h : y ≤ x) : 0 ≤ minus x y := ctx_nonneg _ (sub_nonneg.2 h)

theorem Solvent.setBalance (h : Solvent db) (ha : 0 ≤ bal.amount.val) (hl : 0 ≤ bal.locked.val) :
    Solvent (db.setBalance u c bal) where
  funds v e := by
    rw [balance_setBalance]
    split
    · exact ⟨ha, hl⟩
    · exact h.funds v e
  trust := h.trust
  deals := h.deals
  deposits := h.deposits

theorem Solvent.lockUserBalance (h : Solvent db) : Solvent (lockUserBalance db u c) := by
  obtain ⟨f, hf⟩ := lockUserBalance_eq db u c
  refine ⟨fun v e => ?_, ?_, ?_, ?_⟩
  · rw [balance_lockUserBalance]
    exact h.funds v e
  all_goals rw [hf]
  · exact h.trust
  · exact h.deals
  · exact h.deposits

theorem Solvent.writeBalance (h : Solvent db) (hx : 0 ≤ x) (hy : 0 ≤ y) (hw : writeBalance db u c x y = .ok db') :
    Solvent db' := by
  obtain ⟨bal, ha, hl, rfl⟩ := writeBalance_ok hw
  exact h.setBalance (store_nonneg hx ha) (store_nonneg hy hl)

theorem Solvent.changeBalance (h : Solvent db) (hx : 0 ≤ x) (hy : 0 ≤ y)
    (hch : changeBalance db u c x y ref = .ok db') : Solvent db' := by
  obtain ⟨db₁, hw, hr⟩ := bind_ok.1 hch
  have h₁ : Solvent db₁ := h.lockUserBalance.writeBalance hx hy hw
  unfold recordBalanceLedger at hr
  split at hr
  · rw [← pure_ok.1 hr]
    exact h₁
  · simp only [bind_ok, pure_ok] at hr
    obtain ⟨_, -, _, -, _, -, _, -, _, -, _, -, rfl⟩ := hr
    exact ⟨h₁.funds, h₁.trust, h₁.deals, h₁.deposits⟩

theorem Solvent.creditAmount (h : Solvent db) (hx : 0 ≤ x) (hcr : creditAmount db u c x ref = .ok db') : Solvent db' :=
  h.changeBalance (plus_nonneg (h.funds u c).1 hx) (h.funds u c).2 hcr

theorem Solvent.dropLocked (h : Solvent db) (hd : dropLocked db u c x ref = .ok db') : Solvent db' :=
  h.changeBalance (h.funds u c).1 (le_max_left _ _) hd

theorem Solvent.unlockAndCredit (h : Solvent db) (hy : 0 ≤ y) (hun : unlockAndCredit db u c x y ref = .ok db') :
    Solvent db' :=
  h.changeBalance (plus_nonneg (h.funds u c).1 hy) (le_max_left _ _) hun

theorem Solvent.debit (h : Solvent db) (hx : 0 ≤ x) (hd : debit db u c x = .ok db') : Solvent db' := by
  obtain ⟨_, hle, hd⟩ := bind_ok.1 hd
  exact h.changeBalance (minus_nonneg (not_lt.1 (raiseIf_ok.1 hle))) (plus_nonneg (h.funds u c).2 hx) hd

theorem Solvent.spendLocked (h : Solvent db) (hs : spendLocked db u c x ref = .ok db') : Solvent db' := by
  unfold Garant.spendLocked at hs
  split at hs
  · rw [← pure_ok.1 hs]
    exact h
  · exact h.dropLocked hs

theorem Solvent.returnLocked (h : Solvent db) (hx : 0 ≤ x) (hs : returnLocked db u c x ref = .ok db') : Solvent db' := by
  unfold Garant.returnLocked at hs
  split at hs
  · rw [← pure_ok.1 hs]
    exact h
  · exact h.unlockAndCredit hx hs

/-! ## Writing a row -/

theorem Solvent.setDeal (h : Solvent db) (hd : 0 ≤ d.amount.val) : Solvent (db.setDeal i d) where
  funds := h.funds
  trust := h.trust
  deals _ _ he := (Table.row_of_set he).elim (fun heq => heq ▸ hd) (h.deals _ _)
  deposits := h.deposits

theorem Solvent.insertDeal (h : Solvent db) (hd : 0 ≤ d.amount.val) : Solvent (insertDeal db d) where
  funds := h.funds
  trust := h.trust
  deals _ _ he := (Table.row_of_insert he).elim (fun heq => heq ▸ hd) (h.deals _ _)
  deposits := h.deposits

theorem Solvent.setDeposit (h : Solvent db) (hd : 0 ≤ dep.amount.val) : Solvent (db.setDeposit i dep) where
  funds := h.funds
  trust := h.trust
  deals := h.deals
  deposits _ _ he := (Table.row_of_set he).elim (fun heq => heq ▸ hd) (h.deposits _ _)

theorem Solvent.setUser {user : User} (h : Solvent db) (hu : 0 ≤ user.trust_deposit_balance.val) :
    Solvent (db.setUser i user) where
  funds := h.funds
  trust _ _ he := (Table.row_of_set he).elim (fun heq => heq ▸ hu) (h.trust _ _)
  deals := h.deals
  deposits := h.deposits

theorem Solvent.updateUsers {ids : List ℕ} {f : User → User} (h : Solvent db)
    (hf : ∀ user, (f user).trust_deposit_balance = user.trust_deposit_balance) : Solvent (db.updateUsers ids f) where
  funds := h.funds
  trust j user hu := by
    change (db.users.mapRows _).row j = some user at hu
    rw [Table.mapRows_row] at hu
    obtain ⟨user₀, hu₀, rfl⟩ := Option.map_eq_some_iff.1 hu
    split
    · rw [hf]
      exact h.trust j user₀ hu₀
    · exact h.trust j user₀ hu₀
  deals := h.deals
  deposits := h.deposits

theorem Solvent.withdrawals {t : Table WalletWithdrawal} (h : Solvent db) : Solvent { db with wallet_withdrawals := t } :=
  ⟨h.funds, h.trust, h.deals, h.deposits⟩

theorem Solvent.linkDeposit (h : Solvent db) (k j : ℕ) : Solvent (linkDeposit db k j) where
  funds := h.funds
  trust := h.trust
  deals m e he := by
    simp only [Garant.linkDeposit] at he
    split at he
    · rename_i d hd
      exact (Table.row_of_set he).elim (fun heq => heq ▸ h.deals k d hd) (h.deals m e)
    · exact h.deals m e he
  deposits m e he := by
    simp only [Garant.linkDeposit] at he
    split at he
    · rename_i d hd
      exact (Table.row_of_set he).elim (fun heq => heq ▸ h.deposits j d hd) (h.deposits m e)
    · exact h.deposits m e he

theorem Solvent.expireTopupDeposit (h : Solvent db) : Solvent (expireTopupDeposit db d) := by
  unfold Garant.expireTopupDeposit
  split
  · exact h
  split
  · exact h
  rename_i dep hdep
  split
  · exact h.setDeposit (h.deposits _ dep hdep)
  · exact h

theorem Solvent.createDepositInvoice {code provider : String} {purpose : Purpose} {m : Bool} {r : ℕ × Db} (h : Solvent db)
    (hx : 0 ≤ x) (hi : createDepositInvoice db u code x purpose provider m reply now = .ok r) : Solvent r.2 := by
  simp only [Garant.createDepositInvoice, insertDeposit, bind_ok, pure_ok] at hi
  obtain ⟨_, -, y, hy, _, -, _, -, a, ha, _, -, rfl⟩ := hi
  refine ⟨h.funds, h.trust, h.deals, fun j e he => ?_⟩
  refine (Table.row_of_insert he).elim (fun heq => ?_) (h.deposits j e)
  rw [heq]
  exact store_nonneg (quantizeMoney_nonneg hx hy) ha

/-! ## Deals -/

theorem Solvent.dealAmount {e : Exc} (h : Solvent db) (hr : db.deals.row i = some d)
    (hq : dealAmount db d e = .ok amt) : 0 ≤ amt := by
  obtain ⟨_, -, hq⟩ := bind_ok.1 hq
  exact quantizeMoney_nonneg (h.deals i d hr) hq

theorem Solvent.refundPrincipal (h : Solvent db) (hx : 0 ≤ x) (hp : refundPrincipal db u c x = .ok db') : Solvent db' :=
  h.unlockAndCredit hx hp

theorem Solvent.releaseTo {v : ℕ} (h : Solvent db) (hy : 0 ≤ y) (hp : releaseTo db u v c x y = .ok db') : Solvent db' := by
  obtain ⟨db₁, h₁, h₂⟩ := bind_ok.1 hp
  exact (h.dropLocked h₁).creditAmount hy h₂

theorem createDeal_solvent {b s : ℕ} {code provider : String} {amount : Option ℚ} (h : Solvent db)
    (hok : createDeal db b s code amount provider now = .ok db') : Solvent db' := by
  simp only [createDeal, bind_ok, pure_ok] at hok
  obtain ⟨⟨c, cur, amt, com⟩, ht, db₁, hd, a, ha, com', -, rfl⟩ := hok
  obtain ⟨-, -, hpos, -⟩ := dealTerms_ok ht
  exact (h.debit hpos.le hd).insertDeal (store_nonneg hpos.le ha)

theorem createDealWithTopup_solvent {b s : ℕ} {code provider : String} {amount : Option ℚ} (h : Solvent db)
    (hok : createDealWithTopup db b s code amount provider reply now = .ok db') : Solvent db' := by
  simp only [createDealWithTopup, bind_ok] at hok
  obtain ⟨⟨c, cur, amt, com⟩, ht, needed, -, gap, -, total, -, a, ha, com', -, hok⟩ := hok
  obtain ⟨-, -, hpos, -⟩ := dealTerms_ok ht
  have h₁ : Solvent (lockUserBalance db b c) := h.lockUserBalance
  split at hok
  · refine (h₁.insertDeal (store_nonneg hpos.le ha)).changeBalance (minus_nonneg ‹_›) ?_ hok
    exact plus_nonneg (h₁.funds b c).2 hpos.le
  · simp only [bind_ok, raiseIf_ok, pure_ok] at hok
    obtain ⟨_, htotal, ⟨j, db₂⟩, hi, rfl⟩ := hok
    exact ((h₁.insertDeal (store_nonneg hpos.le ha)).createDepositInvoice (not_le.1 htotal).le hi).linkDeposit _ _

theorem issueRemainingTopupInvoice_solvent {k : ℕ} {cur : Currency} (h : Solvent db)
    (hok : issueRemainingTopupInvoice db k d cur x reply now = .ok db') : Solvent db' := by
  simp only [issueRemainingTopupInvoice, bind_ok] at hok
  obtain ⟨_, -, _, -, total, -, hok⟩ := hok
  split at hok
  · rw [← pure_ok.1 hok]
    exact h
  · simp only [bind_ok, pure_ok] at hok
    obtain ⟨⟨j, db₁⟩, hi, rfl⟩ := hok
    exact (h.createDepositInvoice (not_le.1 ‹_›).le hi).linkDeposit _ _

theorem settleTopup_solvent {j k : ℕ} {cur : Currency} (h : Solvent db) (hr : db.deals.row k = some d)
    (hdep : 0 ≤ dep.amount.val) (hx : 0 ≤ x) (hok : settleTopup db j dep k d cur x reply now = .ok db') : Solvent db' := by
  have hd : 0 ≤ d.amount.val := h.deals k d hr
  have hbal := h.funds d.buyer_id d.currency_id
  simp only [settleTopup, bind_ok] at hok
  obtain ⟨⟨amt, due⟩, hdue, rep, -, hok⟩ := hok
  have hamt : 0 ≤ amt := quantizeMoney_nonneg hd (topupDue_amt hdue)
  split at hok
  · obtain ⟨db₁, hch, hok⟩ := bind_ok.1 hok
    refine issueRemainingTopupInvoice_solvent ?_ hok
    exact Solvent.setDeposit (h.changeBalance (plus_nonneg hbal.1 hx) hbal.2 hch) hdep
  · obtain ⟨credit, hq, hok⟩ := bind_ok.1 hok
    have hcredit : 0 ≤ credit := quantizeMoney_nonneg (minus_nonneg (not_lt.1 ‹_›)) hq
    split at hok
    · obtain ⟨db₁, hch, hok⟩ := bind_ok.1 hok
      refine issueRemainingTopupInvoice_solvent ?_ hok
      refine Solvent.setDeposit (Solvent.setDeal ?_ ?_) hdep
      · exact h.changeBalance (plus_nonneg hbal.1 hcredit) hbal.2 hch
      · exact hd
    · obtain ⟨db₁, hch, hok⟩ := bind_ok.1 hok
      rw [← pure_ok.1 hok]
      refine Solvent.setDeposit (Solvent.setDeal ?_ ?_) hdep
      · exact h.changeBalance (minus_nonneg (not_lt.1 ‹_›)) (plus_nonneg hbal.2 hamt) hch
      · exact hd

theorem completeDealTopupPayment_solvent {paid : Option ℚ} (h : Solvent db) (hx : ∀ x ∈ paid, 0 ≤ x)
    (hok : completeDealTopupPayment db i paid reply now = .ok db') : Solvent db' := by
  simp only [completeDealTopupPayment, bind_ok, orRaise_ok] at hok
  obtain ⟨dep, hdep, hok⟩ := hok
  have hnn : 0 ≤ dep.amount.val := h.deposits i dep hdep
  have hunattached (hok : settleUnattached db i dep paid now = .ok db') : Solvent db' := by
    obtain ⟨rep, -, hok⟩ := bind_ok.1 hok
    rw [← pure_ok.1 hok]
    exact h.setDeposit hnn
  split at hok
  · rw [← pure_ok.1 hok]
    exact h
  split at hok
  · exact hunattached hok
  split at hok
  · exact hunattached hok
  rename_i d hd
  simp only [bind_ok, orRaise_ok] at hok
  obtain ⟨cur, -, p, hp, hok⟩ := hok
  have hp0 : 0 ≤ p := by
    refine quantizeMoney_nonneg ?_ hp
    cases paid with
    | none => exact hnn
    | some x => exact hx x rfl
  split at hok
  · exact settleTopup_solvent h hd hnn hp0 hok
  · obtain ⟨db₁, hcr, hok⟩ := bind_ok.1 hok
    obtain ⟨rep, -, hok⟩ := bind_ok.1 hok
    rw [← pure_ok.1 hok]
    exact (h.creditAmount hp0 hcr).setDeposit hnn

/-- A sweep whose every step keeps a solvent database solvent. -/
theorem Solvent.sweep {f : Db → ℕ → Result Db} (hf : ∀ db db' i, Solvent db → f db i = .ok db' → Solvent db')
    (rows : List ℕ) (h : Solvent db) (hok : rows.foldlM f db = .ok db') : Solvent db' := by
  induction rows generalizing db with
  | nil =>
    rw [← pure_ok.1 hok]
    exact h
  | cons i rows ih =>
    rw [List.foldlM_cons] at hok
    obtain ⟨db₁, h₁, hok⟩ := bind_ok.1 hok
    exact ih (hf db db₁ i h h₁) hok

theorem sweepPendingTopup_solvent {picked : List ℕ} (h : Solvent db) (hok : sweepPendingTopup db picked now = .ok db') :
    Solvent db' := by
  unfold sweepPendingTopup at hok
  extract_lets hrs rows at hok
  split at hok
  · rw [← pure_ok.1 hok]
    exact h
  · refine Solvent.sweep (fun db db' i h hok => ?_) rows h hok
    simp only [sweepPendingTopupDeal, getDeal, bind_ok, orRaise_ok, pure_ok] at hok
    obtain ⟨d, hd, rfl⟩ := hok
    exact h.expireTopupDeposit.setDeal (h.deals i d hd)

theorem cancelPendingTopup_solvent (h : Solvent db) (hok : cancelPendingTopup db i u now = .ok db') : Solvent db' := by
  simp only [cancelPendingTopup, getDeal, bind_ok, orRaise_ok, raiseIf_ok, pure_ok] at hok
  obtain ⟨d, hd, _, -, _, -, rfl⟩ := hok
  exact h.expireTopupDeposit.setDeal (h.deals i d hd)

theorem acceptDeal_solvent (h : Solvent db) (hok : acceptDeal db i u now = .ok db') : Solvent db' := by
  simp only [acceptDeal, getDeal, bind_ok, orRaise_ok, raiseIf_ok, pure_ok] at hok
  obtain ⟨d, hd, _, -, _, -, rfl⟩ := hok
  exact Solvent.updateUsers (h.setDeal (h.deals i d hd)) fun _ => rfl

theorem declineDeal_solvent (h : Solvent db) (hok : declineDeal db i u now = .ok db') : Solvent db' := by
  simp only [declineDeal, getDeal, bind_ok, orRaise_ok, raiseIf_ok, pure_ok] at hok
  obtain ⟨d, hd, _, -, _, -, amt, hq, db₁, hp, rfl⟩ := hok
  exact (h.refundPrincipal (h.dealAmount hd hq) hp).setDeal (h.deals i d hd)

theorem finishDeal_solvent (h : Solvent db) (hok : finishDeal db i u now = .ok db') : Solvent db' := by
  simp only [finishDeal, getDeal, bind_ok, orRaise_ok, raiseIf_ok, pure_ok] at hok
  obtain ⟨d, hd, _, -, _, -, amt, hq, db₁, hp, rfl⟩ := hok
  refine Solvent.updateUsers (Solvent.setDeal (h.releaseTo (h.dealAmount hd hq) hp) ?_) fun _ => rfl
  exact h.deals i d hd

theorem requestCancel_solvent {reason : String} (h : Solvent db) (hok : requestCancel db i u reason now = .ok db') :
    Solvent db' := by
  simp only [requestCancel, getDeal, bind_ok, orRaise_ok, raiseIf_ok, pure_ok] at hok
  obtain ⟨d, hd, _, -, _, -, rfl⟩ := hok
  exact h.setDeal (h.deals i d hd)

theorem revokeCancel_solvent (h : Solvent db) (hok : revokeCancel db i u = .ok db') : Solvent db' := by
  simp only [revokeCancel, getDeal, bind_ok, orRaise_ok, raiseIf_ok, pure_ok] at hok
  obtain ⟨d, hd, _, -, _, -, rfl⟩ := hok
  exact h.setDeal (h.deals i d hd)

theorem acceptCancel_solvent (h : Solvent db) (hok : acceptCancel db i u now = .ok db') : Solvent db' := by
  simp only [acceptCancel, getDeal, bind_ok, orRaise_ok, raiseIf_ok, pure_ok] at hok
  obtain ⟨d, hd, _, -, _, -, _, -, amt, hq, db₁, hp, rfl⟩ := hok
  exact (h.refundPrincipal (h.dealAmount hd hq) hp).setDeal (h.deals i d hd)

theorem startArbitration_solvent {reason : String} (h : Solvent db) (hok : startArbitration db i u reason = .ok db') :
    Solvent db' := by
  simp only [startArbitration, getDeal, bind_ok, orRaise_ok, raiseIf_ok, pure_ok] at hok
  obtain ⟨d, hd, _, -, _, -, _, -, rfl⟩ := hok
  exact Solvent.updateUsers (h.setDeal (h.deals i d hd)) fun _ => rfl

theorem resolveArbitration_solvent {winner note : String} (h : Solvent db)
    (hok : resolveArbitration db i u winner note now = .ok db') : Solvent db' := by
  simp only [resolveArbitration, getDeal, bind_ok, orRaise_ok, raiseIf_ok, pure_ok] at hok
  obtain ⟨d, hd, admin, -, _, -, _, -, _, -, amt, hq, ⟨db₁, status⟩, hp, rfl⟩ := hok
  have hamt := h.dealAmount hd hq
  have h₁ : Solvent db₁ := by
    unfold payWinner at hp
    split at hp
    · obtain ⟨db₂, hmove, heq⟩ := bind_ok.1 hp
      cases heq
      exact h.refundPrincipal hamt hmove
    · obtain ⟨db₂, hmove, heq⟩ := bind_ok.1 hp
      cases heq
      exact h.releaseTo hamt hmove
  refine Solvent.updateUsers (Solvent.updateUsers (h₁.setDeal ?_) fun _ => rfl) fun _ => rfl
  exact h.deals i d hd

theorem sweepInactivity_solvent {picked : List ℕ} (h : Solvent db) (hok : sweepInactivity db picked now = .ok db') :
    Solvent db' := by
  refine Solvent.sweep (fun db db' i h hok => ?_) _ h hok
  simp only [sweepInactivityDeal, getDeal, bind_ok, orRaise_ok] at hok
  obtain ⟨d, hd, hok⟩ := hok
  split at hok
  · rw [← pure_ok.1 hok]
    exact h
  · simp only [bind_ok, pure_ok] at hok
    obtain ⟨amt, hq, db₁, hp, rfl⟩ := hok
    exact (h.refundPrincipal (quantizeMoney_nonneg (h.deals i d hd) hq) hp).setDeal (h.deals i d hd)

/-! ## Admin actions on deals -/

/-- A rounded share of at most a hundred percent is at most the amount. -/
theorem buyerShare_range {p z : ℚ} {n : ℕ} (hq : quantizeMoney x n = .ok amt) (h0 : 0 ≤ amt) (hp : 0 ≤ p) (hp' : p ≤ 100)
    (h : buyerShare amt p n = .ok z) : 0 ≤ z ∧ z ≤ amt := by
  have hfits : Fits prec amt := by
    obtain ⟨hlt, rfl⟩ := quantizeMoney_ok_iff.1 hq
    exact fits_of_grid hlt
  have hprod : 0 ≤ amt * p := mul_nonneg h0 hp
  have hle : amt * p / 100 ≤ amt := by
    rw [div_le_iff₀ (by norm_num)]
    exact mul_le_mul_of_nonneg_left hp' h0
  unfold buyerShare at h
  rw [quotient_times hprod] at h
  refine ⟨quantizeMoney_nonneg (ctx_nonneg _ (by positivity)) h,
    quantize_le_of_le (quantizeMoney_grid hq) ?_ (quantizeMoney_ok.1 h)⟩
  exact ctx_le_of_le (by norm_num [prec]) (by positivity) hfits hle

theorem Solvent.approvals {t : Table AdminApprovalRequest} (h : Solvent db) :
    Solvent { db with admin_approval_requests := t } := ⟨h.funds, h.trust, h.deals, h.deposits⟩

/-- A forced settlement whose movement keeps a solvent database solvent. -/
theorem forceSettle_solvent {f : ForcedSettlement} {a : ℕ} {reason : Option String} {approval : Option ℕ}
    (hmove : ∀ {db db₁ : Db} {d : Deal} {amt x : ℚ} {n : ℕ}, Solvent db → quantizeMoney x n = .ok amt → 0 ≤ amt →
      f.move db i d amt n = .ok db₁ → Solvent db₁)
    (h : Solvent db) (hok : forceSettle f db i a reason approval now = .ok db') : Solvent db' := by
  obtain ⟨d, c, amt, hd, -, -, hq, ⟨t, rfl⟩ | ⟨db₂, t, hm, rfl⟩⟩ := forceSettle_cases hok
  · exact h.approvals
  · have h₂ : Solvent db₂ := hmove h hq (quantizeMoney_nonneg (h.deals i d hd) hq) hm
    refine Solvent.approvals (h₂.setDeal ?_)
    exact h.deals i d hd

theorem forceRelease_solvent {a : ℕ} {reason : Option String} {approval : Option ℕ} (h : Solvent db)
    (hok : forceRelease db i a reason approval now = .ok db') : Solvent db' := by
  refine forceSettle_solvent ?_ h hok
  intro db db₁ d amt x n h _ hamt hm
  obtain ⟨db₂, h₁, h₂⟩ := bind_ok.1 hm
  exact (h.dropLocked h₁).creditAmount hamt h₂

theorem forceRefund_solvent {a : ℕ} {reason : Option String} {approval : Option ℕ} (h : Solvent db)
    (hok : forceRefund db i a reason approval now = .ok db') : Solvent db' := by
  refine forceSettle_solvent ?_ h hok
  intro db db₁ d amt x n h _ hamt hm
  exact h.unlockAndCredit hamt hm

theorem splitDeal_solvent {a : ℕ} {percent : BodyDecimal} {reason : Option String} {approval : Option ℕ} (h : Solvent db)
    (hok : splitDeal db i a percent reason approval now = .ok db') : Solvent db' := by
  obtain ⟨p, hp, hok⟩ := bind_ok.1 hok
  obtain ⟨hp0, hp100⟩ := percentOk_ok hp
  refine forceSettle_solvent ?_ h hok
  intro db db₁ d amt x n h hq hamt hm
  obtain ⟨share, hsh, hm⟩ := bind_ok.1 hm
  obtain ⟨db₂, h₁, h₂⟩ := bind_ok.1 hm
  obtain ⟨hs0, hsle⟩ := buyerShare_range hq hamt hp0 hp100 hsh
  exact (h.unlockAndCredit hs0 h₁).creditAmount (minus_nonneg hsle) h₂

theorem forceArbitration_solvent {a : ℕ} {reason : Option String} (h : Solvent db)
    (hok : forceArbitration db i a reason = .ok db') : Solvent db' := by
  simp only [forceArbitration, getDeal, bind_ok, orRaise_ok, raiseIf_ok] at hok
  obtain ⟨d, hd, _, -, hok⟩ := hok
  split at hok
  · rw [← pure_ok.1 hok]
    exact h
  · rw [← pure_ok.1 hok]
    exact h.setDeal (h.deals i d hd)

theorem assignArbiter_solvent {a : Option ℕ} (h : Solvent db) (hok : assignArbiter db i a = .ok db') : Solvent db' := by
  simp only [assignArbiter, getDeal, bind_ok, orRaise_ok, raiseIf_ok] at hok
  obtain ⟨d, hd, _, -, hok⟩ := hok
  have key (hok : (if d.arbitration_resolved_by = a then pure db
      else pure (db.setDeal i { d with arbitration_resolved_by := a }) : Result Db) = .ok db') : Solvent db' := by
    split at hok
    · rw [← pure_ok.1 hok]
      exact h
    · rw [← pure_ok.1 hok]
      exact h.setDeal (h.deals i d hd)
  split at hok
  · exact key hok
  · simp only [bind_ok] at hok
    obtain ⟨_, -, _, -, hok⟩ := hok
    exact key hok

theorem approveDealApproval_solvent {a : ℕ} (h : Solvent db) (hok : approveDealApproval db i a now = .ok db') :
    Solvent db' := by
  simp only [approveDealApproval, bind_ok, pure_ok] at hok
  obtain ⟨_, -, _, -, _, -, rfl⟩ := hok
  exact h.approvals

theorem rejectDealApproval_solvent (h : Solvent db) (hok : rejectDealApproval db i now = .ok db') : Solvent db' := by
  simp only [rejectDealApproval, bind_ok, pure_ok] at hok
  obtain ⟨_, -, _, -, rfl⟩ := hok
  exact h.approvals

theorem Solvent.removeDeal (h : Solvent db) : Solvent (removeDeal db i) where
  funds := h.funds
  trust := h.trust
  deals j d hd := by
    change (db.deals.erase i).row j = some d at hd
    rw [Table.erase_row] at hd
    split at hd
    · cases hd
    · exact h.deals j d hd
  deposits j dep hdep := by
    change (db.wallet_deposits.mapRows _).row j = some dep at hdep
    rw [Table.mapRows_row] at hdep
    obtain ⟨dep₀, hdep₀, rfl⟩ := Option.map_eq_some_iff.1 hdep
    split <;> exact h.deposits j dep₀ hdep₀

theorem deleteDeal_solvent (h : Solvent db) (hok : deleteDeal db i = .ok db') : Solvent db' := by
  simp only [deleteDeal, getDeal, bind_ok, orRaise_ok] at hok
  obtain ⟨d, hd, hok⟩ := hok
  split at hok
  · rw [← pure_ok.1 hok]
    exact h.removeDeal
  split at hok
  · simp only [bind_ok, pure_ok] at hok
    obtain ⟨amt, hq, db₁, hw, rfl⟩ := hok
    have hamt : 0 ≤ amt := quantizeMoney_nonneg (h.deals i d hd) hq
    have h₁ : Solvent (Garant.lockUserBalance db d.buyer_id d.currency_id) := h.lockUserBalance
    exact (h₁.writeBalance (plus_nonneg (h₁.funds _ _).1 hamt) (le_max_left _ _) hw).removeDeal
  · rw [← pure_ok.1 hok]
    exact h.removeDeal

/-! ## Deposits -/

/-- A number that was reported is not negative. -/
def Number.NotNegative : Number → Prop
  | .finite q => 0 ≤ q
  | _ => True

theorem creditTrust_solvent (h : Solvent db) (hx : 0 ≤ x) (hok : creditTrust db i dep x = .ok db') : Solvent db' := by
  simp only [creditTrust, bind_ok, orRaise_ok] at hok
  obtain ⟨user, hu, b, hb, hok⟩ := hok
  have h₁ : Solvent (db.setUser dep.user_id { user with trust_deposit_balance := b }) :=
    h.setUser (store_nonneg (plus_nonneg (h.trust _ user hu) hx) hb)
  unfold recordSyntheticLedger at hok
  split at hok
  · rw [← pure_ok.1 hok]
    exact h₁
  · simp only [bind_ok, pure_ok] at hok
    obtain ⟨_, -, _, -, _, -, rfl⟩ := hok
    exact ⟨h₁.funds, h₁.trust, h₁.deals, h₁.deposits⟩

theorem creditDeposit_solvent {paid : Option Number} (h : Solvent db) (hx : ∀ n ∈ paid, n.NotNegative)
    (hok : creditDeposit db i paid reply now = .ok db') : Solvent db' := by
  simp only [creditDeposit, bind_ok, orRaise_ok] at hok
  obtain ⟨dep, hdep, hok⟩ := hok
  split at hok
  · rw [← pure_ok.1 hok]
    exact h
  obtain ⟨nominal, hn, hok⟩ := bind_ok.1 hok
  obtain ⟨reported, -, hok⟩ := bind_ok.1 hok
  split at hok
  · refine completeDealTopupPayment_solvent h ?_ hok
    intro x hx'
    obtain ⟨n, hn, hrat⟩ := Option.bind_eq_some_iff.1 hx'
    cases n with
    | finite q =>
      cases hrat
      exact hx _ hn
    | nan => cases hrat
    | infinity => cases hrat
  · have hcredit : 0 ≤ max nominal (reported.getD nominal) :=
      (quantizeMoney_nonneg (h.deposits i dep hdep) hn).trans (le_max_left _ _)
    obtain ⟨db₁, hc, hok⟩ := bind_ok.1 hok
    simp only [bind_ok, pure_ok] at hok
    obtain ⟨a, ha, rep, -, rfl⟩ := hok
    have h₁ : Solvent db₁ := by
      unfold creditBalance at hc
      split at hc
      · exact creditTrust_solvent h hcredit hc
      · exact h.creditAmount hcredit hc
    refine h₁.setDeposit ?_
    exact store_nonneg hcredit ha

theorem expireDeposit_solvent (h : Solvent db) (hd : 0 ≤ dep.amount.val) : Solvent (expireDeposit db i dep) :=
  h.setDeposit hd

theorem sweepExpiredDeposits_solvent {picked : List ℕ} (h : Solvent db) : Solvent (sweepExpiredDeposits db picked now) := by
  unfold sweepExpiredDeposits
  split
  · exact h
  rename_i hon
  dsimp only
  generalize picked.dedup.filter _ = rows
  clear hon
  induction rows generalizing db with
  | nil => exact h
  | cons i rows ih =>
    rw [List.foldl_cons]
    refine ih ?_
    cases hdep : db.wallet_deposits.row i with
    | none => exact h
    | some dep => exact expireDeposit_solvent h (h.deposits i dep hdep)

theorem pollDepositStatus_solvent {answer : PollReply} (h : Solvent db)
    (hok : pollDepositStatus db i answer reply now = .ok db') : Solvent db' := by
  simp only [pollDepositStatus, bind_ok] at hok
  obtain ⟨dep, -, hok⟩ := hok
  split at hok
  · rw [← pure_ok.1 hok]
    exact h
  split at hok
  · rw [← pure_ok.1 hok]
    exact h
  · rw [← pure_ok.1 hok]
    exact h
  split at hok
  · simp only [lockAndCreditDeposit, bind_ok] at hok
    obtain ⟨dep', -, hok⟩ := hok
    split at hok
    · rw [← pure_ok.1 hok]
      exact h
    · exact creditDeposit_solvent h (by simp) hok
  split at hok
  · simp only [lockAndExpireDeposit, bind_ok, orRaise_ok] at hok
    obtain ⟨dep', hdep', hok⟩ := hok
    split at hok
    · rw [← pure_ok.1 hok]
      exact h
    · rw [← pure_ok.1 hok]
      exact expireDeposit_solvent h (h.deposits i dep' hdep')
  · rw [← pure_ok.1 hok]
    exact h

/-- The payload reports no negative amount. -/
def Reported.NotNegative (r : Reported) : Prop := ∀ n ∈ parsePaidAmount r, n.NotNegative

theorem creditReported_solvent {r : Reported} {res : Db × Handled} (h : Solvent db) (hr : r.NotNegative)
    (hok : creditReported db i dep r reply now = .ok res) : Solvent res.1 := by
  simp only [creditReported, bind_ok] at hok
  obtain ⟨_, -, hok⟩ := hok
  split at hok
  · rw [← pure_ok.1 hok]
    exact h
  · simp only [bind_ok, pure_ok] at hok
    obtain ⟨db₁, hc, rfl⟩ := hok
    exact creditDeposit_solvent h hr hc

theorem expireReported_solvent (h : Solvent db) (hd : 0 ≤ dep.amount.val) : Solvent (expireReported db i dep).1 := by
  unfold expireReported
  split
  · exact expireDeposit_solvent h hd
  · exact h

theorem handleInvoicePaid_solvent {p : InvoicePayload} {r : Db × Handled} (h : Solvent db) (hp : p.amount.NotNegative)
    (hok : handleInvoicePaid db p reply now = .ok r) : Solvent r.1 := by
  unfold handleInvoicePaid at hok
  split at hok
  · rw [← pure_ok.1 hok]
    exact h
  split at hok
  · rw [← pure_ok.1 hok]
    exact h
  obtain ⟨k, -, hok⟩ := bind_ok.1 hok
  split at hok
  · rw [← pure_ok.1 hok]
    exact h
  obtain ⟨dep, -, hok⟩ := bind_ok.1 hok
  split at hok
  · rw [← pure_ok.1 hok]
    exact h
  · exact creditReported_solvent h hp hok

theorem handleInvoiceExpired_solvent {p : InvoicePayload} {r : Db × Handled} (h : Solvent db)
    (hok : handleInvoiceExpired db p = .ok r) : Solvent r.1 := by
  unfold handleInvoiceExpired at hok
  split at hok
  · rw [← pure_ok.1 hok]
    exact h
  obtain ⟨k, -, hok⟩ := bind_ok.1 hok
  split at hok
  · rw [← pure_ok.1 hok]
    exact h
  · simp only [bind_ok, orRaise_ok, pure_ok] at hok
    obtain ⟨dep, hdep, rfl⟩ := hok
    exact expireReported_solvent h (h.deposits _ dep hdep)

theorem handleCrystalpayInvoice_solvent {p : InvoicePayload} {r : Db × Handled} (h : Solvent db)
    (hp : p.amount.NotNegative) (hok : handleCrystalpayInvoice db p reply now = .ok r) : Solvent r.1 := by
  unfold handleCrystalpayInvoice at hok
  split at hok
  · rw [← pure_ok.1 hok]
    exact h
  dsimp only at hok
  obtain ⟨k, -, hok⟩ := bind_ok.1 hok
  split at hok
  · rw [← pure_ok.1 hok]
    exact h
  simp only [bind_ok, orRaise_ok] at hok
  obtain ⟨dep, hdep, hok⟩ := hok
  split at hok
  · split at hok
    · rw [← pure_ok.1 hok]
      exact h
    split at hok
    · rw [← pure_ok.1 hok]
      exact h
    · exact creditReported_solvent h hp hok
  split at hok
  · rw [← pure_ok.1 hok]
    exact expireReported_solvent h (h.deposits _ dep hdep)
  · rw [← pure_ok.1 hok]
    exact h

theorem markPaid_solvent (h : Solvent db) (hok : markPaid db i now = .ok db') : Solvent db' := by
  simp only [markPaid, bind_ok, orRaise_ok] at hok
  obtain ⟨dep, hdep, hok⟩ := hok
  have hd : 0 ≤ dep.amount.val := h.deposits i dep hdep
  split at hok
  · rw [← pure_ok.1 hok]
    exact h
  · simp only [bind_ok, pure_ok] at hok
    obtain ⟨_, -, db₁, hw, rfl⟩ := hok
    have h₁ : Solvent (Garant.lockUserBalance db dep.user_id dep.currency_id) := h.lockUserBalance
    refine (h₁.writeBalance (plus_nonneg (h₁.funds _ _).1 hd) (h₁.funds _ _).2 hw).setDeposit ?_
    exact hd

theorem refundDeposit_solvent (h : Solvent db) (hok : refundDeposit db i = .ok db') : Solvent db' := by
  simp only [refundDeposit, bind_ok, orRaise_ok, raiseIf_ok, pure_ok] at hok
  obtain ⟨dep, hdep, _, -, _, -, bal, hbal, _, hle, db₁, hw, rfl⟩ := hok
  have heq : db.balance dep.user_id dep.currency_id = bal := by rw [Db.balance, hbal, Option.getD_some]
  have hfunds := h.funds dep.user_id dep.currency_id
  rw [heq] at hfunds
  refine (h.writeBalance (minus_nonneg (not_lt.1 hle)) hfunds.2 hw).setDeposit ?_
  exact h.deposits i dep hdep

theorem adjustUserBalance_solvent {code : String} (h : Solvent db) (hok : adjustUserBalance db u code x = .ok db') :
    Solvent db' := by
  simp only [adjustUserBalance, bind_ok, raiseIf_ok] at hok
  obtain ⟨_, -, _, -, _, -, c, -, _, hnn, hok⟩ := hok
  exact h.changeBalance (not_lt.1 hnn) (h.funds u c).2 hok

theorem pinResetPaid_solvent (h : Solvent db) (hok : pinResetPaid db u = .ok db') : Solvent db' := by
  simp only [pinResetPaid, bind_ok] at hok
  obtain ⟨usd, -, hok⟩ := hok
  split at hok
  · rw [← pure_ok.1 hok]
    exact h
  · simp only [bind_ok, raiseIf_ok] at hok
    obtain ⟨_, hle, hw⟩ := hok
    have h₁ : Solvent (Garant.lockUserBalance db u usd) := h.lockUserBalance
    exact h₁.writeBalance (minus_nonneg (not_lt.1 hle)) (h₁.funds _ _).2 hw

/-! ## Withdrawals -/

theorem createWithdrawal_solvent {fullmatch : String → String → Bool} {code : String} {address : Option String}
    {r : ℕ × Db} (h : Solvent db) (hok : createWithdrawal db fullmatch u code x address now = .ok r) : Solvent r.2 := by
  simp only [createWithdrawal, bind_ok, raiseIf_ok, pure_ok] at hok
  obtain ⟨_, hx, ⟨c, cur⟩, -, _, -, a, -, _, -, _, hle, st, -, db₁, hch, rfl⟩ := hok
  refine Solvent.withdrawals (h.changeBalance (minus_nonneg (not_lt.1 hle)) ?_ hch)
  exact plus_nonneg (h.funds u c).2 (not_le.1 hx).le

theorem createWithdrawalSent_solvent {tid : String} (h : Solvent db)
    (hok : createWithdrawalSent db i x tid now = .ok db') : Solvent db' := by
  unfold createWithdrawalSent at hok
  split at hok
  · rw [← pure_ok.1 hok]
    exact h
  split at hok
  · simp only [bind_ok, pure_ok] at hok
    obtain ⟨db₁, hs, rfl⟩ := hok
    exact (h.spendLocked hs).withdrawals
  · rw [← pure_ok.1 hok]
    exact h

theorem createWithdrawalAutoFailed_solvent (h : Solvent db) (hx : 0 ≤ x)
    (hok : createWithdrawalAutoFailed db i u c x now = .ok db') : Solvent db' := by
  unfold createWithdrawalAutoFailed at hok
  split at hok
  · simp only [bind_ok, pure_ok] at hok
    obtain ⟨db₁, hun, rfl⟩ := hok
    exact (h.unlockAndCredit hx hun).withdrawals
  · rw [← pure_ok.1 hok]
    exact h

theorem decideApprove_solvent {note : Option String} (h : Solvent db) (hok : decideApprove db i note = .ok db') :
    Solvent db' := by
  simp only [decideApprove, bind_ok, raiseIf_ok, pure_ok] at hok
  obtain ⟨w, -, _, -, rfl⟩ := hok
  exact h.withdrawals

theorem decideApproveSent_solvent {seen : WalletWithdrawal} {tid : String} (h : Solvent db)
    (hok : decideApproveSent db i seen tid now = .ok db') : Solvent db' := by
  simp only [decideApproveSent, bind_ok, raiseIf_ok] at hok
  obtain ⟨w, -, _, -, hok⟩ := hok
  split at hok
  · rw [← pure_ok.1 hok]
    exact h
  · simp only [bind_ok, pure_ok] at hok
    obtain ⟨db₁, hs, rfl⟩ := hok
    exact (h.spendLocked hs).withdrawals

theorem decideApproveFailed_solvent {err : String} (h : Solvent db) (hok : decideApproveFailed db i err = .ok db') :
    Solvent db' := by
  unfold decideApproveFailed at hok
  split at hok
  · rw [← pure_ok.1 hok]
    exact h
  · rw [← pure_ok.1 hok]
    exact h.withdrawals

theorem decideReject_solvent {note : Option String} (h : Solvent db)
    (hw : ∀ w, db.wallet_withdrawals.row i = some w → 0 ≤ w.amount.val) (hok : decideReject db i note now = .ok db') :
    Solvent db' := by
  simp only [decideReject, bind_ok, raiseIf_ok, pure_ok] at hok
  obtain ⟨w, hrow, _, -, db₁, hr, rfl⟩ := hok
  exact (h.returnLocked (hw w (getWithdrawal_ok hrow)) hr).withdrawals

theorem decideMarkSent_solvent {note : Option String} (h : Solvent db) (hok : decideMarkSent db i note now = .ok db') :
    Solvent db' := by
  simp only [decideMarkSent, bind_ok, raiseIf_ok, pure_ok] at hok
  obtain ⟨w, -, _, -, db₁, hs, rfl⟩ := hok
  exact (h.spendLocked hs).withdrawals

theorem sweepStaleWithdrawal_solvent {seen : WalletWithdrawal} {matched : Option String} (h : Solvent db)
    (hseen : 0 ≤ seen.amount.val) (hok : sweepStaleWithdrawal db i seen matched now = .ok db') : Solvent db' := by
  unfold sweepStaleWithdrawal at hok
  split at hok
  · rw [← pure_ok.1 hok]
    exact h
  split at hok
  · rw [← pure_ok.1 hok]
    exact h
  have h₁ : Solvent (Garant.lockUserBalance db seen.user_id seen.currency_id) := h.lockUserBalance
  have hbal := h₁.funds seen.user_id seen.currency_id
  cases matched with
  | some tid =>
    simp only [bind_ok, pure_ok] at hok
    obtain ⟨db₁, hw, rfl⟩ := hok
    exact (h₁.writeBalance hbal.1 (le_max_left _ _) hw).withdrawals
  | none =>
    simp only [bind_ok, pure_ok] at hok
    obtain ⟨db₁, hw, rfl⟩ := hok
    exact (h₁.writeBalance (plus_nonneg hbal.1 hseen) (le_max_left _ _) hw).withdrawals

end

/-! ## Runs -/

/-- What callers and providers have to respect: invoices are for no negative amount,
as the request schema checks, and no payment is reported as negative. -/
def Action.NotNegative : Action → Prop
  | .op (.createDepositInvoice _ _ amount ..) => 0 ≤ amount
  | .op (.completeDealTopupPayment _ paid ..) => ∀ x ∈ paid, 0 ≤ x
  | .op (.handleInvoicePaid payload ..) | .op (.handleCrystalpayInvoice payload ..) => payload.amount.NotNegative
  | _ => True

section
variable {s t : Sys} {db db' : Db}

theorem Op.solvent {op : Op} (h : Solvent db) (hop : (Action.op op).NotNegative) (hok : op.run db = .ok db') :
    Solvent db' := by
  cases op with
  | createDepositInvoice =>
    obtain ⟨r, hr, rfl⟩ := map_ok.1 hok
    exact h.createDepositInvoice hop hr
  | createDeal => exact createDeal_solvent h hok
  | createDealWithTopup => exact createDealWithTopup_solvent h hok
  | completeDealTopupPayment => exact completeDealTopupPayment_solvent h hop hok
  | sweepPendingTopup => exact sweepPendingTopup_solvent h hok
  | cancelPendingTopup => exact cancelPendingTopup_solvent h hok
  | acceptDeal => exact acceptDeal_solvent h hok
  | declineDeal => exact declineDeal_solvent h hok
  | finishDeal => exact finishDeal_solvent h hok
  | requestCancel => exact requestCancel_solvent h hok
  | revokeCancel => exact revokeCancel_solvent h hok
  | acceptCancel => exact acceptCancel_solvent h hok
  | startArbitration => exact startArbitration_solvent h hok
  | resolveArbitration => exact resolveArbitration_solvent h hok
  | sweepInactivity => exact sweepInactivity_solvent h hok
  | approveDealApproval => exact approveDealApproval_solvent h hok
  | rejectDealApproval => exact rejectDealApproval_solvent h hok
  | forceRelease => exact forceRelease_solvent h hok
  | forceRefund => exact forceRefund_solvent h hok
  | splitDeal => exact splitDeal_solvent h hok
  | forceArbitration => exact forceArbitration_solvent h hok
  | assignArbiter => exact assignArbiter_solvent h hok
  | deleteDeal => exact deleteDeal_solvent h hok
  | handleInvoicePaid =>
    obtain ⟨r, hr, rfl⟩ := map_ok.1 hok
    exact handleInvoicePaid_solvent h hop hr
  | handleInvoiceExpired =>
    obtain ⟨r, hr, rfl⟩ := map_ok.1 hok
    exact handleInvoiceExpired_solvent h hr
  | handleCrystalpayInvoice =>
    obtain ⟨r, hr, rfl⟩ := map_ok.1 hok
    exact handleCrystalpayInvoice_solvent h hop hr
  | pollDepositStatus => exact pollDepositStatus_solvent h hok
  | sweepExpiredDeposits =>
    rw [← pure_ok.1 hok]
    exact sweepExpiredDeposits_solvent h
  | markPaid => exact markPaid_solvent h hok
  | refundDeposit => exact refundDeposit_solvent h hok
  | adjustUserBalance => exact adjustUserBalance_solvent h hok
  | pinResetPaid => exact pinResetPaid_solvent h hok

/-- A step of a withdrawal request; what its session remembers is what its row says. -/
theorem Sys.withdrawal_solvent {op : WithdrawalOp} (hs : SessionsOk s) (h : Solvent s.db)
    (hok : s.withdrawal op = .ok t) : Solvent t.db := by
  cases op with
  | create =>
    simp only [Sys.withdrawal, bind_ok, orRaise_ok, pure_ok] at hok
    obtain ⟨⟨i, db⟩, hc, w, -, rfl⟩ := hok
    split <;> exact createWithdrawal_solvent h hc
  | create_sent j =>
    simp only [Sys.withdrawal, bind_ok, session_ok] at hok
    obtain ⟨x, hj, hok⟩ := hok
    cases x with
    | creating =>
      simp only [bind_ok, pure_ok] at hok
      obtain ⟨_, -, db, hdb, rfl⟩ := hok
      simp only [Sys.close, commit_db]
      exact createWithdrawalSent_solvent h hdb
    | approving | sweeping | reconciling => cases throw_ok.1 hok
  | create_failed j =>
    simp only [Sys.withdrawal, bind_ok, session_ok] at hok
    obtain ⟨x, hj, hok⟩ := hok
    cases x with
    | creating i u c x admin_exists =>
      cases admin_exists with
      | true =>
        simp only [if_true, pure_ok] at hok
        rw [← hok]
        exact h
      | false =>
        simp only [Bool.false_eq_true, if_false, bind_ok, pure_ok] at hok
        obtain ⟨db, hdb, rfl⟩ := hok
        simp only [Sys.close, commit_db]
        exact createWithdrawalAutoFailed_solvent h (hs.sessions j _ hj).1 hdb
    | approving | sweeping | reconciling => cases throw_ok.1 hok
  | approve =>
    simp only [Sys.withdrawal, bind_ok, orRaise_ok, pure_ok] at hok
    obtain ⟨db, hdb, w, -, rfl⟩ := hok
    split
    · simp only [Sys.opened, commit_db]
      exact decideApprove_solvent h hdb
    · simp only [commit_db]
      exact decideApprove_solvent h hdb
  | approve_sent j =>
    simp only [Sys.withdrawal, bind_ok, session_ok] at hok
    obtain ⟨x, hj, hok⟩ := hok
    cases x with
    | approving =>
      simp only [bind_ok, pure_ok] at hok
      obtain ⟨_, -, db, hdb, rfl⟩ := hok
      simp only [Sys.close, commit_db]
      exact decideApproveSent_solvent h hdb
    | creating | sweeping | reconciling => cases throw_ok.1 hok
  | approve_failed j =>
    simp only [Sys.withdrawal, bind_ok, session_ok] at hok
    obtain ⟨x, hj, hok⟩ := hok
    cases x with
    | approving =>
      simp only [bind_ok, pure_ok] at hok
      obtain ⟨db, hdb, rfl⟩ := hok
      simp only [Sys.close, commit_db]
      exact decideApproveFailed_solvent h hdb
    | creating | sweeping | reconciling => cases throw_ok.1 hok
  | reject i =>
    simp only [Sys.withdrawal, bind_ok, pure_ok] at hok
    obtain ⟨db, hdb, rfl⟩ := hok
    rw [commit_db]
    exact decideReject_solvent h (hs.amounts i) hdb
  | mark_sent =>
    simp only [Sys.withdrawal, bind_ok, pure_ok] at hok
    obtain ⟨db, hdb, rfl⟩ := hok
    rw [commit_db]
    exact decideMarkSent_solvent h hdb
  | sweep_select now =>
    rw [← pure_ok.1 hok]
    obtain ⟨ts, hts, -⟩ := openSweeps_ok fun _ => staleWithdrawals_pending now
    rw [hts]
    exact h
  | sweep_query j =>
    simp only [Sys.withdrawal, bind_ok, session_ok] at hok
    obtain ⟨x, hj, hok⟩ := hok
    cases x with
    | sweeping =>
      rw [← pure_ok.1 hok]
      exact h
    | creating | approving | reconciling => cases throw_ok.1 hok
  | sweep_error j =>
    simp only [Sys.withdrawal, bind_ok, session_ok] at hok
    obtain ⟨x, hj, hok⟩ := hok
    cases x with
    | sweeping =>
      rw [← pure_ok.1 hok]
      exact h
    | creating | approving | reconciling => cases throw_ok.1 hok
  | sweep_apply j =>
    simp only [Sys.withdrawal, bind_ok, session_ok] at hok
    obtain ⟨x, hj, hok⟩ := hok
    cases x with
    | reconciling i seen m =>
      simp only [bind_ok, pure_ok] at hok
      obtain ⟨db, hdb, rfl⟩ := hok
      simp only [Sys.close, commit_db]
      obtain ⟨-, w, hw, ht⟩ := hs.sessions j _ hj
      refine sweepStaleWithdrawal_solvent h ?_ hdb
      rw [ht.2.2]
      exact hs.amounts i w hw
    | creating | approving | sweeping => cases throw_ok.1 hok
  | execute j =>
    simp only [Sys.withdrawal, bind_ok, session_ok] at hok
    obtain ⟨x, hj, hok⟩ := hok
    cases x with
    | creating | approving =>
      rw [← pure_ok.1 hok]
      exact h
    | sweeping | reconciling => cases throw_ok.1 hok

/-- From a solvent database without negative withdrawals, no balance, spendable,
locked or of trust, ever becomes negative, nor does the amount of a deal, a deposit
or a withdrawal, whatever is done in whatever order, while no negative amount is
asked for or reported. -/
theorem solvent_run (h0 : Solvent db) (hw : AmountsOk db) (h : Reach Step (fun a _ => a.NotNegative) (Sys.start db) t) :
    Solvent t.db ∧ AmountsOk t.db := by
  have hinv : SessionsOk t ∧ Solvent t.db := by
    refine h.invariant (I := fun s => SessionsOk s ∧ Solvent s.db) ⟨start_sessionsOk hw, h0⟩ ?_
    rintro a s t ⟨hs, hsolvent⟩ hok hstep
    refine ⟨exec_sessionsOk hs hstep, ?_⟩
    cases a with
    | op op =>
      obtain ⟨db, hdb, ht⟩ := bind_ok.1 hstep
      rw [← pure_ok.1 ht]
      exact Op.solvent hsolvent hok hdb
    | withdrawal op => exact Sys.withdrawal_solvent hs hsolvent hstep
  exact ⟨hinv.2, hinv.1.amounts⟩

end

/-! ## A trade -/

theorem sample_solvent (decimals : ℕ) : Solvent (sampleDb decimals ⟨1000000000, by decide⟩) where
  funds u c := by
    simp only [Db.balance, sampleDb]
    split
    · norm_num [Numeric.val]
    · simp [UserBalance.zero]
  trust i u hu := by
    have htrust : ∀ i u, (sampleDb decimals ⟨1000000000, by decide⟩).users.row i = some u →
        u.trust_deposit_balance = ⟨0, money_zero_fits⟩ := by
      intro i u hu
      rcases Table.row_of_insert hu with rfl | hu
      · rfl
      rcases Table.row_of_insert hu with rfl | hu
      · rfl
      rcases Table.row_of_insert hu with rfl | hu
      · rfl
      cases hu
    rw [htrust i u hu]
    simp [Numeric.val]
  deals _ _ h := by cases h
  deposits _ _ h := by cases h

/-- User 1 spends the 10 there are on a deal with user 2, who asks for the money. -/
def sampleSale : List Action :=
  [.op (.createDeal 1 2 "USDT" (some 10) "cryptobot" 0), .op (.acceptDeal 1 2 0), .op (.finishDeal 1 1 0),
    .withdrawal (.create (fun _ _ => true) 2 "USDT" 10 none 0)]

theorem sampleSale_solvent : ∃ t, Reach Step (fun a _ => a.NotNegative) (Sys.start (sampleDb 2 ⟨1000000000, by decide⟩)) t ∧
    ((t.db.balance 1 1).amount.val = 0 ∧ (t.db.balance 2 1).locked.val = 10) ∧ Solvent t.db := by
  have hok : ∀ a ∈ sampleSale, ∀ s : Sys, True → a.NotNegative := by
    intro a ha s _
    simp only [sampleSale, List.mem_cons, List.not_mem_nil, or_false] at ha
    rcases ha with rfl | rfl | rfl | rfl <;> trivial
  have hrun : (sampleSale.foldlM Sys.exec (Sys.start (sampleDb 2 ⟨1000000000, by decide⟩))).toOption.any
      (fun t => decide ((t.db.balance 1 1).amount.val = 0 ∧ (t.db.balance 2 1).locked.val = 10)) = true := by
    decide +kernel
  obtain ⟨t, ht, hbal⟩ :=
    Reach.of_check Sys.exec sampleSale (fun _ => True) hrun trivial (fun _ _ _ _ _ => trivial) hok
  exact ⟨t, ht, hbal, (solvent_run (sample_solvent 2) (fun _ _ h => by cases h) ht).1⟩

end Garant
