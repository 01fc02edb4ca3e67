import Garant.WalletOperations
/-!
# The transactions of a withdrawal

What each transaction of a withdrawal request does to its row and its owner's
funds. A session decides on what it loaded; `SessionsOk` ties that to the
committed row, all but the status.
-/
open Decimal Relation

namespace Garant

section
variable {db db' : Db} {i u c : ℕ} {x : ℚ} {ref : LedgerRef} {w w' seen : WalletWithdrawal} {now : Time}

/-! ## Transactions -/

/-- The locked funds are spent; where there is no balance row there is nothing to spend. -/
theorem spendLocked_ok (hev : ref.event_type ≠ trustEvent) (hx : 0 ≤ x) (h : spendLocked db u c x ref = .ok db') :
    ∃ bal : UserBalance, Moved False db db' u c bal ∧ bal.amount = (db.balance u c).amount ∧
      store (max 0 (minus (db.balance u c).locked.val x)) = .ok bal.locked := by
  unfold spendLocked at h
  split at h
  · rename_i hnone
    have hz : db.balance u c = UserBalance.zero := by rw [Db.balance, hnone, Option.getD_none]
    rw [← pure_ok.1 h]
    refine ⟨_, Moved.refl db u c, rfl, ?_⟩
    rw [hz, UserBalance.zero, Numeric.val_zero, unlock_zero hx, ← Numeric.val_zero (p := 28) (s := 8), store_val]
  · exact dropLocked_ok hev h

/-- The locked funds are returned; where there is no balance row they were not there. -/
theorem returnLocked_ok (hev : ref.event_type ≠ trustEvent) (hx : 0 ≤ x) (h : returnLocked db u c x ref = .ok db') :
    ∃ bal : UserBalance, Moved False db db' u c bal ∧
      (x = 0 ∨ x ≤ (db.balance u c).locked.val → store (plus (db.balance u c).amount.val x) = .ok bal.amount) ∧
      store (max 0 (minus (db.balance u c).locked.val x)) = .ok bal.locked := by
  unfold returnLocked at h
  split at h
  · rename_i hnone
    have hz : db.balance u c = UserBalance.zero := by rw [Db.balance, hnone, Option.getD_none]
    rw [← pure_ok.1 h]
    refine ⟨_, Moved.refl db u c, ?_, ?_⟩
    · intro hle
      have h0 : x = 0 := by
        rw [hz, UserBalance.zero, Numeric.val_zero] at hle
        exact hle.elim id fun hle => le_antisymm hle hx
      rw [h0, plus_zero_val, store_val]
    · rw [hz, UserBalance.zero, Numeric.val_zero, unlock_zero hx, ← Numeric.val_zero (p := 28) (s := 8), store_val]
  · obtain ⟨bal, hm, ha, hl⟩ := unlockAndCredit_ok hev h
    exact ⟨bal, hm, fun _ => ha, hl⟩

/-- A settled withdrawal: the row got its final status, `x` was released from
the owner's locked funds, and `y` was credited. -/
structure Settles (silent : Prop) (db : Db) (i : ℕ) (w : WalletWithdrawal) (x y : ℚ) (status : WalletWithdrawStatus)
    (bal : UserBalance) (db' : Db) : Prop where
  row : db.wallet_withdrawals.row i = some w
  locked : store (max 0 (minus (db.balance w.user_id w.currency_id).locked.val x)) = .ok bal.locked
  amount : y = 0 ∨ w.amount.val ≤ (db.balance w.user_id w.currency_id).locked.val →
    store (plus (db.balance w.user_id w.currency_id).amount.val y) = .ok bal.amount
  write : ∃ w' db₁, db' = db₁.setWithdrawal i w' ∧ Moved silent db db₁ w.user_id w.currency_id bal ∧
    SameRequest w w' ∧ w'.status = status

theorem Settles.mono {P Q : Prop} {db db' : Db} {i : ℕ} {w : WalletWithdrawal} {x y : ℚ} {st : WalletWithdrawStatus}
    {bal : UserBalance} (h : Settles P db i w x y st bal db') (hpq : P → Q) : Settles Q db i w x y st bal db' := by
  obtain ⟨w', db₁, hw, hm, hr⟩ := h.write
  exact ⟨h.row, h.locked, h.amount, w', db₁, hw, hm.mono hpq, hr⟩

/-- A request locks what it asks for. -/
structure Requests (db : Db) (x : ℚ) (w : WalletWithdrawal) (bal : UserBalance) (db' : Db) : Prop where
  positive : 0 < x
  stored : store x = .ok w.amount
  status : w.status = .pending
  amount : store (minus (db.balance w.user_id w.currency_id).amount.val x) = .ok bal.amount
  locked : store (plus (db.balance w.user_id w.currency_id).locked.val x) = .ok bal.locked
  write : ∃ db₁, Moved False db db₁ w.user_id w.currency_id bal ∧
    db' = { db₁ with wallet_withdrawals := db.wallet_withdrawals.insert w }

theorem createWithdrawal_ok {fullmatch : String → String → Bool} {code : String} {address : Option String}
    {r : ℕ × Db} (h : createWithdrawal db fullmatch u code x address now = .ok r) :
    r.1 = db.wallet_withdrawals.next ∧ ∃ w bal cur, getCurrencyByCode db code = .ok (w.currency_id, cur) ∧
      w.user_id = u ∧ Requests db x w bal r.2 := by
  simp only [createWithdrawal, bind_ok, raiseIf_ok, pure_ok] at h
  obtain ⟨_, hx, ⟨c, cur⟩, hc, _, -, a, -, _, -, _, -, stored, hst, db₁, hch, rfl⟩ := h
  obtain ⟨bal, ha, hl, hm⟩ := changeBalance_ok (withdrawalRef_ne (by decide) _) hch
  refine ⟨rfl, ⟨u, c, stored, a, .pending, "", now, none⟩, bal, cur, hc, rfl, ?_⟩
  exact ⟨not_le.1 hx, hst, rfl, ha, hl, db₁, hm, by rw [hm.withdrawals]⟩

theorem createWithdrawalSent_ok {tid : String} (hx : 0 ≤ x) (h : createWithdrawalSent db i x tid now = .ok db') :
    db' = db ∨ ∃ w bal, w.status = .pending ∧ Settles False db i w x 0 .sent bal db' := by
  unfold createWithdrawalSent at h
  split at h
  · exact .inl (pure_ok.1 h).symm
  · rename_i w hr
    split at h
    · rename_i hs
      simp only [bind_ok, pure_ok] at h
      obtain ⟨db₁, hsp, rfl⟩ := h
      have hev : (sentRef i (some tid)).event_type ≠ trustEvent := by
        simp [sentRef, trustEvent]
      obtain ⟨bal, hm, ha, hl⟩ := spendLocked_ok hev hx hsp
      refine .inr ⟨w, bal, hs, hr, hl, fun _ => ?_, _, db₁, rfl, hm, ⟨rfl, rfl, rfl⟩, rfl⟩
      rw [plus_zero_val, store_val, ha]
    · exact .inl (pure_ok.1 h).symm

/-- The refund after a failed transfer is made whatever the status is. -/
theorem createWithdrawalAutoFailed_ok (hw : ∀ w, db.wallet_withdrawals.row i = some w → w.user_id = u ∧ w.currency_id = c)
    (h : createWithdrawalAutoFailed db i u c x now = .ok db') :
    db' = db ∨ ∃ w bal, Settles False db i w x x .rejected bal db' := by
  unfold createWithdrawalAutoFailed at h
  split at h
  · rename_i w bal₀ hr hb
    obtain ⟨rfl, rfl⟩ := hw w hr
    simp only [bind_ok, pure_ok] at h
    obtain ⟨db₁, hun, rfl⟩ := h
    obtain ⟨bal, hm, ha, hl⟩ := unlockAndCredit_ok (withdrawalRef_ne (by decide) _) hun
    exact .inr ⟨w, bal, hr, hl, fun _ => ha, _, db₁, rfl, hm, ⟨rfl, rfl, rfl⟩, rfl⟩
  · exact .inl (pure_ok.1 h).symm

theorem getWithdrawal_ok (h : getWithdrawal db i = .ok w) : db.wallet_withdrawals.row i = some w := by
  simp only [getWithdrawal, bind_ok, orRaise_ok, pure_ok] at h
  obtain ⟨w', hr, _, -, _, -, rfl⟩ := h
  exact hr

theorem decideApprove_ok {note : Option String} (h : decideApprove db i note = .ok db') :
    ∃ w w', db' = db.setWithdrawal i w' ∧ db.wallet_withdrawals.row i = some w ∧ w.status = .pending ∧
      SameRequest w w' ∧ w'.status = .approved := by
  simp only [decideApprove, bind_ok, raiseIf_ok, pure_ok] at h
  obtain ⟨w, hw, _, hs, rfl⟩ := h
  exact ⟨w, _, rfl, getWithdrawal_ok hw, not_not.1 hs, ⟨rfl, rfl, rfl⟩, rfl⟩

theorem decideApproveFailed_ok {err : String} (h : decideApproveFailed db i err = .ok db') :
    db' = db ∨ ∃ w w', db' = db.setWithdrawal i w' ∧ db.wallet_withdrawals.row i = some w ∧ SameRequest w w' ∧
      w'.status = w.status := by
  unfold decideApproveFailed at h
  split at h
  · exact .inl (pure_ok.1 h).symm
  · rename_i w hr
    exact .inr ⟨w, _, (pure_ok.1 h).symm, hr, ⟨rfl, rfl, rfl⟩, rfl⟩

/-- Phase 3 of an approval settles the row whatever its committed status is. -/
theorem decideApproveSent_ok {tid : String} (hseen : seen.status = .approved)
    (hw : ∀ w, db.wallet_withdrawals.row i = some w → SameRequest w seen) (hx : 0 ≤ seen.amount.val)
    (h : decideApproveSent db i seen tid now = .ok db') :
    ∃ w bal, Settles False db i w w.amount.val 0 .sent bal db' := by
  simp only [decideApproveSent, bind_ok, orRaise_ok, raiseIf_ok] at h
  obtain ⟨w, hr, _, -, h⟩ := h
  obtain ⟨hu, hc, ha⟩ := hw w hr
  rw [if_neg (by rw [hseen]; decide), hu, hc, ha] at h
  rw [ha] at hx
  simp only [bind_ok, pure_ok] at h
  obtain ⟨db₁, hsp, rfl⟩ := h
  have hev : (sentRef i (some tid)).event_type ≠ trustEvent := by
    simp [sentRef, trustEvent]
  obtain ⟨bal, hm, ham, hl⟩ := spendLocked_ok hev hx hsp
  refine ⟨w, bal, hr, hl, fun _ => ?_, _, db₁, rfl, hm, ⟨rfl, rfl, rfl⟩, rfl⟩
  rw [plus_zero_val, store_val, ham]

theorem decideReject_ok {note : Option String} (hx : ∀ w, db.wallet_withdrawals.row i = some w → 0 ≤ w.amount.val)
    (h : decideReject db i note now = .ok db') :
    ∃ w bal, w.status.isOpen = true ∧ Settles False db i w w.amount.val w.amount.val .rejected bal db' := by
  simp only [decideReject, bind_ok, raiseIf_ok, pure_ok] at h
  obtain ⟨w, hw, _, hs, db₁, hret, rfl⟩ := h
  have hr := getWithdrawal_ok hw
  obtain ⟨bal, hm, ha, hl⟩ := returnLocked_ok (withdrawalRef_ne (by decide) _) (hx w hr) hret
  refine ⟨w, bal, ?_, hr, hl, ha, _, db₁, rfl, hm, ⟨rfl, rfl, rfl⟩, rfl⟩
  have hs' : w.status = .pending ∨ w.status = .approved := by tauto
  rcases hs' with hs' | hs' <;> rw [hs'] <;> rfl

theorem decideMarkSent_ok {note : Option String} (hx : ∀ w, db.wallet_withdrawals.row i = some w → 0 ≤ w.amount.val)
    (h : decideMarkSent db i note now = .ok db') :
    ∃ w bal, w.status.isOpen = true ∧ Settles False db i w w.amount.val 0 .sent bal db' := by
  simp only [decideMarkSent, bind_ok, raiseIf_ok, pure_ok] at h
  obtain ⟨w, hw, _, hs, db₁, hsp, rfl⟩ := h
  have hr := getWithdrawal_ok hw
  obtain ⟨bal, hm, ha, hl⟩ := spendLocked_ok (withdrawalRef_ne (by decide) _) (hx w hr) hsp
  refine ⟨w, bal, ?_, hr, hl, fun _ => ?_, _, db₁, rfl, hm, ⟨rfl, rfl, rfl⟩, rfl⟩
  · rw [not_not.1 hs]
    rfl
  · rw [plus_zero_val, store_val, ha]

/-- What the sweep credits: nothing when CryptoBot had the transfer, else the amount. -/
def sweepCredit (seen : WalletWithdrawal) (matched : Option String) : ℚ := if matched.isSome then 0 else seen.amount.val

/-- Phase C of the sweep settles the row whatever its committed status is. -/
theorem sweepStaleWithdrawal_ok {matched : Option String} (hseen : seen.status = .pending)
    (hw : ∀ w, db.wallet_withdrawals.row i = some w → SameRequest w seen)
    (h : sweepStaleWithdrawal db i seen matched now = .ok db') :
    db' = db ∨ ∃ w bal, Settles ((db.balance seen.user_id seen.currency_id).Moves seen.amount.val (sweepCredit seen matched))
      db i w w.amount.val (sweepCredit seen matched) (if matched.isSome then .sent else .rejected) bal db' := by
  unfold sweepStaleWithdrawal at h
  split at h
  · exact .inl (pure_ok.1 h).symm
  rename_i w hr
  obtain ⟨hu, hc, ha⟩ := hw w hr
  rw [if_neg (not_not.2 hseen)] at h
  simp only [balance_lockUserBalance] at h
  refine .inr ⟨w, ?_⟩
  split at h
  · -- CryptoBot had the transfer
    simp only [bind_ok, pure_ok] at h
    obtain ⟨db₁, hwr, rfl⟩ := h
    obtain ⟨bal, hba, hbl, hm⟩ := writeBalance_moved hwr
    rw [← plus_zero_val] at hba
    have hm' := hm.mono fun hne => by_contra fun hn => hne (eq_of_not_moves hn hba hbl)
    rw [hu, hc, ha] at hm' hbl
    rw [hu, hc] at hba
    simp only [sweepCredit, Option.isSome_some, if_true]
    rw [hu, hc, ha]
    exact ⟨bal, hr, hbl, fun _ => hba, _, db₁, rfl, hm', ⟨rfl, rfl, rfl⟩, rfl⟩
  · simp only [bind_ok, pure_ok] at h
    obtain ⟨db₁, hwr, rfl⟩ := h
    obtain ⟨bal, hba, hbl, hm⟩ := writeBalance_moved hwr
    have hm' := hm.mono fun hne => by_contra fun hn => hne (eq_of_not_moves hn hba hbl)
    rw [hu, hc, ha] at hm' hbl hba
    simp only [sweepCredit, Option.isSome_none, Bool.false_eq_true, if_false]
    rw [hu, hc, ha]
    exact ⟨bal, hr, hbl, fun _ => hba, _, db₁, rfl, hm', ⟨rfl, rfl, rfl⟩, rfl⟩

end

/-! ## What sessions hold -/

/-- A session's view of its withdrawal, which may be old in the status only. -/
def Session.Ok (db : Db) : Session → Prop
  | .creating i u c x _ => 0 ≤ x ∧ ∃ w, db.wallet_withdrawals.row i = some w ∧ w.user_id = u ∧ w.currency_id = c ∧
      store x = .ok w.amount
  | .approving i seen => seen.status = .approved ∧ ∃ w, db.wallet_withdrawals.row i = some w ∧ SameRequest w seen
  | .sweeping i seen => seen.status = .pending ∧ ∃ w, db.wallet_withdrawals.row i = some w ∧ SameRequest w seen
  | .reconciling i seen _ => seen.status = .pending ∧ ∃ w, db.wallet_withdrawals.row i = some w ∧ SameRequest w seen

/-- Every session fits its row, and no withdrawal is for a negative amount. -/
structure SessionsOk (s : Sys) : Prop where
  sessions : ∀ j x, s.sessions.row j = some x → x.Ok s.db
  amounts : ∀ i w, s.db.wallet_withdrawals.row i = some w → 0 ≤ w.amount.val

/-- The rows stay, with the request they hold. -/
def Persist (db db' : Db) : Prop :=
  ∀ i w, db.wallet_withdrawals.row i = some w → ∃ w', db'.wallet_withdrawals.row i = some w' ∧ SameRequest w w'

theorem SameRequest.refl (w : WalletWithdrawal) : SameRequest w w := ⟨rfl, rfl, rfl⟩

theorem SameRequest.trans {a b c : WalletWithdrawal} (h : SameRequest a b) (h' : SameRequest b c) : SameRequest a c :=
  ⟨h'.1.trans h.1, h'.2.1.trans h.2.1, h'.2.2.trans h.2.2⟩

theorem SameRequest.symm {a b : WalletWithdrawal} (h : SameRequest a b) : SameRequest b a :=
  ⟨h.1.symm, h.2.1.symm, h.2.2.symm⟩

theorem Persist.of_eq {db db' : Db} (h : db'.wallet_withdrawals = db.wallet_withdrawals) : Persist db db' := by
  intro i w hw
  exact ⟨w, by rw [h, hw], .refl w⟩

/-- A session that fits its row still does when the rows stayed. -/
theorem Session.Ok.persist {db db' : Db} {x : Session} (h : x.Ok db) (hp : Persist db db') : x.Ok db' := by
  cases x with
  | creating i u c x b =>
    obtain ⟨hx, w, hw, hu, hc, ha⟩ := h
    obtain ⟨w', hw', hu', hc', ha'⟩ := hp i w hw
    exact ⟨hx, w', hw', hu'.trans hu, hc'.trans hc, by rw [ha', ha]⟩
  | approving i seen =>
    obtain ⟨hs, w, hw, ht⟩ := h
    obtain ⟨w', hw', ht'⟩ := hp i w hw
    exact ⟨hs, w', hw', ht'.symm.trans ht⟩
  | sweeping i seen =>
    obtain ⟨hs, w, hw, ht⟩ := h
    obtain ⟨w', hw', ht'⟩ := hp i w hw
    exact ⟨hs, w', hw', ht'.symm.trans ht⟩
  | reconciling i seen m =>
    obtain ⟨hs, w, hw, ht⟩ := h
    obtain ⟨w', hw', ht'⟩ := hp i w hw
    exact ⟨hs, w', hw', ht'.symm.trans ht⟩

/-- A session's row matches what it has seen. -/
theorem Session.Ok.row {db : Db} {i : ℕ} {seen w : WalletWithdrawal} {st : WalletWithdrawStatus}
    (h : seen.status = st ∧ ∃ w, db.wallet_withdrawals.row i = some w ∧ SameRequest w seen)
    (hw : db.wallet_withdrawals.row i = some w) : SameRequest w seen := by
  obtain ⟨-, w', hw', ht⟩ := h
  rw [hw] at hw'
  cases hw'
  exact ht

end Garant
