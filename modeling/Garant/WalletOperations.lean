import Garant.Operations
/-!
# Deposits as effects

The operations on deposits, and `effects_of`: every operation that is one
transaction is a sequence of effects, with the irregular ones that `Op.flaws`
names.
-/
open Decimal Relation

namespace Garant

section
variable {F : Flaws} {db db₁ db' : Db} {i u c : ℕ} {now : Time}

/-! ## Crediting -/

theorem setDeposit_effect (db : Db) (i : ℕ) (d : WalletDeposit) : Effect F db (db.setDeposit i d) :=
  .idle (.of_eq rfl rfl rfl rfl) rfl

/-- A trust credit leaves every balance alone and its ledger entry is marked. -/
theorem creditTrust_effect {d : WalletDeposit} {x : ℚ} (h : creditTrust db i d x = .ok db') : Effect F db db' := by
  simp only [creditTrust, recordSyntheticLedger, bind_ok] at h
  obtain ⟨_, -, _, -, h⟩ := h
  split at h
  · rw [← pure_ok.1 h]
    exact .idle (.of_eq rfl rfl rfl rfl) rfl
  · simp only [bind_ok, pure_ok] at h
    obtain ⟨_, -, _, -, _, -, rfl⟩ := h
    refine .idle ⟨fun _ _ => rfl, ⟨_, rfl, ?_⟩, rfl, rfl⟩ rfl
    intro e he
    rw [List.mem_singleton.1 he]
    rfl

theorem creditAmount_effect {x : ℚ} {ref : LedgerRef} (hev : ref.event_type ≠ trustEvent)
    (h : creditAmount db u c x ref = .ok db') : Effect F db db' := by
  obtain ⟨bal, hm, hl, -⟩ := creditAmount_ok hev h
  exact .credit (hm.mono False.elim) hl

theorem creditBalance_effect {d : WalletDeposit} {x : ℚ} (h : creditBalance db i d x = .ok db') : Effect F db db' := by
  unfold creditBalance at h
  split at h
  · exact creditTrust_effect h
  · exact creditAmount_effect (depositRef_ne (by decide) _ _) h

theorem creditDeposit_effects {paid : Option Number} {reply : InvoiceReply}
    (h : creditDeposit db i paid reply now = .ok db') : Effects F db db' := by
  simp only [creditDeposit, bind_ok] at h
  obtain ⟨d, -, h⟩ := h
  split at h
  · rw [pure_ok.1 h]
    exact .refl
  simp only [bind_ok] at h
  obtain ⟨_, -, _, -, h⟩ := h
  split at h
  · exact completeDealTopupPayment_effects h
  · simp only [bind_ok, pure_ok] at h
    obtain ⟨db₁, hcr, _, -, _, -, rfl⟩ := h
    exact ReflTransGen.head (creditBalance_effect hcr) (setDeposit_effect _ _ _).effects

/-! ## Provider events -/

theorem lockAndCreditDeposit_effects {reply : InvoiceReply} (h : lockAndCreditDeposit db i reply now = .ok db') :
    Effects F db db' := by
  simp only [lockAndCreditDeposit, bind_ok] at h
  obtain ⟨d, -, h⟩ := h
  split at h
  · rw [pure_ok.1 h]
    exact .refl
  · exact creditDeposit_effects h

theorem lockAndExpireDeposit_effects (h : lockAndExpireDeposit db i = .ok db') : Effects F db db' := by
  simp only [lockAndExpireDeposit, bind_ok] at h
  obtain ⟨d, -, h⟩ := h
  split at h
  · rw [pure_ok.1 h]
    exact .refl
  · rw [← pure_ok.1 h]
    exact (setDeposit_effect _ _ _).effects

theorem pollDepositStatus_effects {answer : PollReply} {reply : InvoiceReply}
    (h : pollDepositStatus db i answer reply now = .ok db') : Effects F db db' := by
  simp only [pollDepositStatus, bind_ok] at h
  obtain ⟨d, -, h⟩ := h
  split at h
  · rw [pure_ok.1 h]
    exact .refl
  split at h
  · rw [pure_ok.1 h]
    exact .refl
  · rw [pure_ok.1 h]
    exact .refl
  · split at h
    · exact lockAndCreditDeposit_effects h
    split at h
    · exact lockAndExpireDeposit_effects h
    · rw [pure_ok.1 h]
      exact .refl

theorem creditReported_effects {d : WalletDeposit} {rep : Reported} {reply : InvoiceReply} {r : Db × Handled}
    (h : creditReported db i d rep reply now = .ok r) : Effects F db r.1 := by
  simp only [creditReported, bind_ok] at h
  obtain ⟨_, -, h⟩ := h
  split at h
  · rw [← pure_ok.1 h]
    exact .refl
  · simp only [bind_ok, pure_ok] at h
    obtain ⟨db₁, hcr, rfl⟩ := h
    exact creditDeposit_effects hcr

theorem expireReported_effects (db : Db) (i : ℕ) (d : WalletDeposit) : Effects F db (expireReported db i d).1 := by
  unfold expireReported
  split
  · exact (setDeposit_effect _ _ _).effects
  · exact .refl

theorem handleInvoicePaid_effects {p : InvoicePayload} {reply : InvoiceReply} {r : Db × Handled}
    (h : handleInvoicePaid db p reply now = .ok r) : Effects F db r.1 := by
  unfold handleInvoicePaid at h
  split at h
  · rw [← pure_ok.1 h]
    exact .refl
  split at h
  · rw [← pure_ok.1 h]
    exact .refl
  obtain ⟨k, -, h⟩ := bind_ok.1 h
  split at h
  · rw [← pure_ok.1 h]
    exact .refl
  obtain ⟨d, -, h⟩ := bind_ok.1 h
  split at h
  · rw [← pure_ok.1 h]
    exact .refl
  · exact creditReported_effects h

theorem handleInvoiceExpired_effects {p : InvoicePayload} {r : Db × Handled}
    (h : handleInvoiceExpired db p = .ok r) : Effects F db r.1 := by
  unfold handleInvoiceExpired at h
  split at h
  · rw [← pure_ok.1 h]
    exact .refl
  obtain ⟨k, -, h⟩ := bind_ok.1 h
  split at h
  · rw [← pure_ok.1 h]
    exact .refl
  obtain ⟨d, -, h⟩ := bind_ok.1 h
  rw [← pure_ok.1 h]
  exact expireReported_effects _ _ _

theorem handleCrystalpayInvoice_effects {p : InvoicePayload} {reply : InvoiceReply} {r : Db × Handled}
    (h : handleCrystalpayInvoice db p reply now = .ok r) : Effects F db r.1 := by
  unfold handleCrystalpayInvoice at h
  split at h
  · rw [← pure_ok.1 h]
    exact .refl
  obtain ⟨k, -, h⟩ := bind_ok.1 h
  split at h
  · rw [← pure_ok.1 h]
    exact .refl
  obtain ⟨d, -, h⟩ := bind_ok.1 h
  split at h
  · split at h
    · rw [← pure_ok.1 h]
      exact .refl
    split at h
    · rw [← pure_ok.1 h]
      exact .refl
    · exact creditReported_effects h
  split at h
  · rw [← pure_ok.1 h]
    exact expireReported_effects _ _ _
  · rw [← pure_ok.1 h]
    exact .refl

/-- The expiry sweep writes deposits only. -/
theorem sweepExpiredDeposits_eq (db : Db) (picked : List ℕ) (now : Time) :
    ∃ t, sweepExpiredDeposits db picked now = { db with wallet_deposits := t } := by
  have key {f : Db → ℕ → Db} (hf : ∀ db j, ∃ t, f db j = { db with wallet_deposits := t }) (rows : List ℕ) (db : Db) :
      ∃ t, rows.foldl f db = { db with wallet_deposits := t } := by
    induction rows generalizing db with
    | nil => exact ⟨_, rfl⟩
    | cons j rows ih =>
      obtain ⟨t₁, h₁⟩ := hf db j
      obtain ⟨t, ht⟩ := ih (f db j)
      rw [List.foldl_cons, ht, h₁]
      exact ⟨t, rfl⟩
  unfold sweepExpiredDeposits
  split
  · exact ⟨_, rfl⟩
  · refine key (fun db j => ?_) _ db
    split
    · exact ⟨_, rfl⟩
    · exact ⟨_, rfl⟩

theorem sweepExpiredDeposits_effects (db : Db) (picked : List ℕ) (now : Time) :
    Effects F db (sweepExpiredDeposits db picked now) := by
  obtain ⟨t, ht⟩ := sweepExpiredDeposits_eq db picked now
  rw [ht]
  exact Effect.effects (.idle (.of_eq rfl rfl rfl rfl) rfl)

/-! ## Admin actions and the paid PIN reset -/

/-- A credit by hand that moves funds. -/
def PaysByHand (db : Db) (i : ℕ) : Prop :=
  ∃ d, db.wallet_deposits.row i = some d ∧ d.status ≠ .paid ∧ d.amount.val ≠ 0

theorem markPaid_effects (hF : PaysByHand db i → F.silent) (h : markPaid db i now = .ok db') : Effects F db db' := by
  simp only [markPaid, bind_ok, orRaise_ok] at h
  obtain ⟨d, hr, h⟩ := h
  split at h
  · rw [pure_ok.1 h]
    exact .refl
  rename_i hs
  simp only [bind_ok, pure_ok, balance_lockUserBalance] at h
  obtain ⟨_, -, db₁, hw, rfl⟩ := h
  obtain ⟨bal, ha, hl, hm⟩ := writeBalance_moved hw
  rw [store_val, Except.ok.injEq] at hl
  refine ReflTransGen.head (.credit (hm.mono ?_) hl.symm) (setDeposit_effect _ _ _).effects
  intro hne
  refine hF ⟨d, hr, hs, fun h0 => hne ?_⟩
  rw [h0, plus_zero_val, store_val, Except.ok.injEq] at ha
  rw [← UserBalance.eta bal, ← ha, ← hl]

/-- A refund of a deposit that moves funds. -/
def RefundsFunds (db : Db) (i : ℕ) : Prop :=
  ∃ d, db.wallet_deposits.row i = some d ∧ d.status = .paid ∧ d.amount.val ≠ 0

theorem refundDeposit_effects (hF : RefundsFunds db i → F.silent) (h : refundDeposit db i = .ok db') :
    Effects F db db' := by
  simp only [refundDeposit, bind_ok, orRaise_ok, raiseIf_ok, pure_ok] at h
  obtain ⟨d, hr, _, hs, _, -, old, hold, _, -, db₁, hw, rfl⟩ := h
  obtain ⟨bal, ha, hl, rfl⟩ := writeBalance_ok hw
  have hbal : db.balance d.user_id d.currency_id = old := by rw [Db.balance, hold, Option.getD_some]
  rw [store_val, Except.ok.injEq] at hl
  refine ReflTransGen.head (.credit ((setBalance_moved db d.user_id d.currency_id bal).mono ?_) ?_)
    (setDeposit_effect _ _ _).effects
  · intro hne
    refine hF ⟨d, hr, not_not.1 hs, fun h0 => hne ?_⟩
    rw [h0, minus_zero_val, store_val, Except.ok.injEq] at ha
    rw [hbal, ← UserBalance.eta bal, ← ha, ← hl]
  · rw [hbal, hl]

theorem adjustUserBalance_effects {code : String} {x : ℚ} (h : adjustUserBalance db u code x = .ok db') :
    Effects F db db' := by
  simp only [adjustUserBalance, bind_ok, orRaise_ok, raiseIf_ok] at h
  obtain ⟨_, -, _, -, _, -, c, -, _, -, h⟩ := h
  have hev : ("admin_wallet.adjust" : String) ≠ trustEvent := by decide
  obtain ⟨bal, -, hl, hm⟩ := changeBalance_ok hev h
  rw [store_val, Except.ok.injEq] at hl
  exact Effect.effects (.credit (hm.mono False.elim) hl.symm)

theorem pinResetPaid_effects (hF : 0 < db.app_settings.pin_reset_price_usd.val → F.silent)
    (h : pinResetPaid db u = .ok db') : Effects F db db' := by
  simp only [pinResetPaid, bind_ok] at h
  obtain ⟨c, -, h⟩ := h
  split at h
  · rw [pure_ok.1 h]
    exact .refl
  simp only [bind_ok, balance_lockUserBalance] at h
  obtain ⟨_, -, hw⟩ := h
  obtain ⟨bal, -, hl, hm⟩ := writeBalance_moved hw
  rw [store_val, Except.ok.injEq] at hl
  exact Effect.effects (.credit (hm.mono fun _ => hF (not_le.1 ‹_›)) hl.symm)

/-! ## All operations of one transaction -/

/-- No irregular effect. -/
def Flaws.none : Flaws := ⟨False, False, False, False, False, False⟩

/-- The irregular effects an operation can have in a given state. -/
def Op.flaws (db : Db) : Op → Flaws
  | .createDeal b _ code amount _ _ => { Flaws.none with coarse := ¬FineAmount db b code amount }
  | .createDealWithTopup b _ code amount _ _ _ => { Flaws.none with coarse := ¬FineAmount db b code amount }
  | .forceArbitration i _ _ => { Flaws.none with seizes := SeizesDeal db i }
  | .deleteDeal i => { Flaws.none with silent := DeletesFunds db i }
  | .markPaid i _ => { Flaws.none with silent := PaysByHand db i }
  | .refundDeposit i => { Flaws.none with silent := RefundsFunds db i }
  | .pinResetPaid _ => { Flaws.none with silent := 0 < db.app_settings.pin_reset_price_usd.val }
  | _ => Flaws.none

/-- Every operation is a sequence of effects. -/
theorem effects_of {op : Op} (h : op.run db = .ok db') : Effects (op.flaws db) db db' := by
  cases op with
  | createDepositInvoice u code amount purpose provider min_check reply now =>
    obtain ⟨r, hr, rfl⟩ := map_ok.1 h
    obtain ⟨-, hs, hd⟩ := createDepositInvoice_idle hr
    exact Effect.effects (.idle hs hd)
  | createDeal b s code amount provider now => exact createDeal_effects (em _).symm h
  | createDealWithTopup b s code amount provider reply now => exact createDealWithTopup_effects (em _).symm h
  | completeDealTopupPayment i paid reply now => exact completeDealTopupPayment_effects h
  | sweepPendingTopup picked now => exact sweepPendingTopup_effects h
  | cancelPendingTopup i u now => exact cancelPendingTopup_effects h
  | acceptDeal i u now => exact acceptDeal_effects h
  | declineDeal i u now =>
    obtain ⟨d, hs⟩ := declineDeal_ok h
    exact hs.effects
  | finishDeal i u now =>
    obtain ⟨d, hs⟩ := finishDeal_ok h
    exact hs.effects
  | requestCancel i u reason now => exact requestCancel_effects h
  | revokeCancel i u => exact revokeCancel_effects h
  | acceptCancel i u now =>
    obtain ⟨d, hs⟩ := acceptCancel_ok h
    exact hs.effects
  | startArbitration i u reason => exact startArbitration_effects h
  | resolveArbitration i a winner note now =>
    obtain ⟨d, hs⟩ := resolveArbitration_ok h
    exact hs.effects
  | sweepInactivity picked now => exact sweepInactivity_effects h
  | approveDealApproval i a now => exact approveDealApproval_effects h
  | rejectDealApproval i now => exact rejectDealApproval_effects h
  | forceRelease i a reason approval now => exact held_or_settled (forceRelease_ok h)
  | forceRefund i a reason approval now => exact held_or_settled (forceRefund_ok h)
  | splitDeal i a p reason approval now =>
    rcases splitDeal_ok h with ht | ⟨d, amt, c, p, share, -, -, -, -, hs⟩
    · obtain ⟨t, rfl⟩ := ht
      exact Effect.effects (.idle (.of_eq rfl rfl rfl rfl) rfl)
    · exact hs.effects
  | forceArbitration i a reason => exact forceArbitration_effects id h
  | assignArbiter i a => exact assignArbiter_effects h
  | deleteDeal i => exact deleteDeal_effects id h
  | handleInvoicePaid p reply now =>
    obtain ⟨r, hr, rfl⟩ := map_ok.1 h
    exact handleInvoicePaid_effects hr
  | handleInvoiceExpired p =>
    obtain ⟨r, hr, rfl⟩ := map_ok.1 h
    exact handleInvoiceExpired_effects hr
  | handleCrystalpayInvoice p reply now =>
    obtain ⟨r, hr, rfl⟩ := map_ok.1 h
    exact handleCrystalpayInvoice_effects hr
  | pollDepositStatus i answer reply now => exact pollDepositStatus_effects h
  | sweepExpiredDeposits picked now =>
    rw [← pure_ok.1 h]
    exact sweepExpiredDeposits_effects db picked now
  | markPaid i now => exact markPaid_effects id h
  | refundDeposit i => exact refundDeposit_effects id h
  | adjustUserBalance u code x => exact adjustUserBalance_effects h
  | pinResetPaid u => exact pinResetPaid_effects id h

end

end Garant
