import Garant.Escrow
/-!
# Runs of the withdrawal requests

Two facts about any interleaving of the withdrawal requests and the sweep: a
withdrawal is settled in the balances once (`Accounts`), and no withdrawal is
both paid out and refunded (`PaidOrReturned`). Both hold in the runs without
the irregular steps that break them.
-/
open Decimal Relation

namespace Garant

/-- A step of the withdrawal requests. -/
def WithdrawalStep (op : WithdrawalOp) (s t : Sys) : Prop := s.withdrawal op = .ok t

section
variable {F : Flaws} {db db' : Db} {s t : Sys} {i k : ℕ} {w w' : WalletWithdrawal} {bal : UserBalance} {x y : ℚ}

/-! ## What a transaction adds to the account of its withdrawal -/

theorem commit_moved (db' : Db) (hr : s.db.wallet_withdrawals.row i = some w) :
    (s.commit i db').amount_moved k = s.amount_moved k + (if k = i then
        (db'.balance w.user_id w.currency_id).amount.val - (s.db.balance w.user_id w.currency_id).amount.val else 0) ∧
      (s.commit i db').locked_moved k = s.locked_moved k + if k = i then
        (db'.balance w.user_id w.currency_id).locked.val - (s.db.balance w.user_id w.currency_id).locked.val else 0 := by
  simp only [Sys.commit, hr, and_self]

/-- A transaction that moves no funds adds nothing. -/
theorem commit_still (s : Sys) (i : ℕ) (hb : db'.user_balances = s.db.user_balances) :
    (s.commit i db').amount_moved = s.amount_moved ∧ (s.commit i db').locked_moved = s.locked_moved := by
  unfold Sys.commit
  split
  · exact ⟨rfl, rfl⟩
  · constructor
    · funext k
      simp [Db.balance, hb]
    · funext k
      simp [Db.balance, hb]

theorem Settles.balance {P : Prop} {st : WalletWithdrawStatus} (h : Settles P db i w x y st bal db') :
    db'.balance w.user_id w.currency_id = bal := by
  obtain ⟨w', db₁, rfl, hm, -⟩ := h.write
  show db₁.balance _ _ = bal
  rw [hm.balance, if_pos ⟨rfl, rfl⟩]

/-- The rows after a settlement. -/
theorem Settles.rows {P : Prop} {st : WalletWithdrawStatus} (h : Settles P db i w x y st bal db') :
    ∃ w', SameRequest w w' ∧ w'.status = st ∧ db'.wallet_withdrawals = db.wallet_withdrawals.set i w' := by
  obtain ⟨w', db₁, rfl, hm, ht, hst⟩ := h.write
  exact ⟨w', ht, hst, by rw [Db.setWithdrawal, hm.withdrawals]⟩

theorem Settles.lockedBy {P : Prop} {st : WalletWithdrawStatus} (h : Settles P db i w x y st bal db')
    (hx : store x = .ok w.amount) (hl : ReleasesAs (db.balance w.user_id w.currency_id).locked x)
    (hle : w.amount.val ≤ (db.balance w.user_id w.currency_id).locked.val) :
    LockedBy db db' w.user_id w.currency_id (-w.amount.val) := by
  obtain ⟨w', db₁, rfl, hm, -⟩ := h.write
  refine hm.lockedBy (unlock_exact hle ?_)
  rw [← hl _ hx]
  exact h.locked

/-! ## Settled once -/

/-- What settling a withdrawal should have done to its owner's spendable and locked amounts so far. -/
def WalletWithdrawal.settlement (w : WalletWithdrawal) : ℚ × ℚ :=
  match w.status with
  | .pending | .approved => (0, 0)
  | .sent => (0, -w.amount.val)
  | .rejected => (w.amount.val, -w.amount.val)

theorem settlement_open (h : w.status.isOpen = true) : w.settlement = (0, 0) := by
  unfold WalletWithdrawal.settlement
  cases hs : w.status with
  | pending | approved => rfl
  | sent | rejected =>
    rw [hs] at h
    cases h

theorem settlement_same (ht : SameRequest w w') (hs : w'.status = w.status) : w'.settlement = w.settlement := by
  unfold WalletWithdrawal.settlement
  rw [hs, ht.2.2]

/-- Every withdrawal moved what its status says, and the open ones are backed. -/
structure Accounts (s : Sys) : Prop where
  sessions : SessionsOk s
  backed : ∀ u c, s.db.wallet_withdrawals.sum (withdrawalHold u c) ≤ (s.db.balance u c).locked.val
  absent : ∀ i, s.db.wallet_withdrawals.row i = none → (s.amount_moved i, s.locked_moved i) = (0, 0)
  moved : ∀ i w, s.db.wallet_withdrawals.row i = some w → (s.amount_moved i, s.locked_moved i) = w.settlement

/-- No amount rounded, no closed withdrawal settled. -/
def Flaws.Settling (F : Flaws) : Prop := ¬F.coarse ∧ ¬F.blurred ∧ ¬F.stale

theorem Accounts.covers (h : Accounts s) (hr : s.db.wallet_withdrawals.row i = some w) (ho : w.status.isOpen = true) :
    w.amount.val ≤ (s.db.balance w.user_id w.currency_id).locked.val := by
  have hle := Table.le_sum (f := withdrawalHold w.user_id w.currency_id)
    (fun i w hw => withdrawalHold_nonneg (h.sessions.amounts i w hw) _ _) hr
  rw [withdrawalHold_open ho, if_pos ⟨rfl, rfl⟩] at hle
  exact hle.trans (h.backed _ _)

/-- The row of `i` was replaced; the accounts of the others are as they were. -/
theorem Accounts.replace {t : Sys} (h : Accounts s) (hs : SessionsOk t) (hr : s.db.wallet_withdrawals.row i = some w)
    (hw : t.db.wallet_withdrawals = s.db.wallet_withdrawals.set i w')
    (hb : ∀ u c, t.db.wallet_withdrawals.sum (withdrawalHold u c) ≤ (t.db.balance u c).locked.val)
    (hi : (t.amount_moved i, t.locked_moved i) = w'.settlement)
    (hk : ∀ k, k ≠ i → t.amount_moved k = s.amount_moved k ∧ t.locked_moved k = s.locked_moved k) : Accounts t := by
  refine ⟨hs, hb, ?_, ?_⟩
  · intro k hnone
    rw [hw, Table.set_row hr] at hnone
    split at hnone
    · cases hnone
    · rw [(hk k ‹_›).1, (hk k ‹_›).2]
      exact h.absent k hnone
  · intro k v hv
    rw [hw, Table.set_row hr] at hv
    split at hv
    · subst k
      cases hv
      exact hi
    · rw [(hk k ‹_›).1, (hk k ‹_›).2]
      exact h.moved k v hv

/-- A change of the row that keeps it open, or closed, and moves no funds. -/
theorem Accounts.relabel {ts : Table Session} (h : Accounts s) (hr : s.db.wallet_withdrawals.row i = some w)
    (ht : SameRequest w w') (hst : w'.settlement = w.settlement) (ho : w'.status.isOpen = w.status.isOpen)
    (hs : SessionsOk { s.commit i (s.db.setWithdrawal i w') with sessions := ts }) :
    Accounts { s.commit i (s.db.setWithdrawal i w') with sessions := ts } := by
  obtain ⟨ha, hl⟩ := commit_still s i (show (s.db.setWithdrawal i w').user_balances = s.db.user_balances from rfl)
  have hw : (s.commit i (s.db.setWithdrawal i w')).db.wallet_withdrawals = s.db.wallet_withdrawals.set i w' := by
    rw [commit_db]
    rfl
  refine h.replace hs hr hw ?_ ?_ ?_
  · intro u c
    simp only [commit_db, Db.setWithdrawal]
    rw [Table.sum_set hr, withdrawalHold_same ht ho, sub_add_cancel]
    exact h.backed u c
  · simp only [ha, hl, hst]
    exact h.moved i w hr
  · intro k _
    simp only [ha, hl, and_self]

/-- A settlement of an open withdrawal puts into its account what its new status says. -/
theorem Accounts.settle {P : Prop} {ts : Table Session} {st : WalletWithdrawStatus} (h : Accounts s)
    (hset : Settles P s.db i w x y st bal db') (hopen : w.status.isOpen = true) (hx : store x = .ok w.amount)
    (hl : ReleasesAs (s.db.balance w.user_id w.currency_id).locked x) (hclosed : st.isOpen = false)
    (hsettle : ∀ w', SameRequest w w' → w'.status = st →
      w'.settlement = (bal.amount.val - (s.db.balance w.user_id w.currency_id).amount.val, -w.amount.val))
    (hs : SessionsOk { s.commit i db' with sessions := ts }) : Accounts { s.commit i db' with sessions := ts } := by
  have hr := hset.row
  have hlock := hset.lockedBy hx hl (h.covers hr hopen)
  obtain ⟨w', ht, hst, hw⟩ := hset.rows
  have hmoved := fun k => commit_moved (k := k) db' hr
  have h0 := h.moved i w hr
  rw [settlement_open hopen, Prod.mk.injEq] at h0
  have hw' : (s.commit i db').db.wallet_withdrawals = s.db.wallet_withdrawals.set i w' := by rw [commit_db, hw]
  refine h.replace hs hr hw' ?_ ?_ ?_
  · intro u c
    simp only [commit_db]
    rw [hlock u c, hw, Table.sum_set hr, withdrawalHold_open hopen, withdrawalHold_closed (by rw [hst, hclosed])]
    have := h.backed u c
    split_ifs <;> linarith
  · simp only [(hmoved i).1, (hmoved i).2, if_true, h0.1, h0.2, zero_add]
    rw [hlock, if_pos ⟨rfl, rfl⟩, hset.balance, hsettle w' ht hst]
    simp
  · intro k hk
    simp only [(hmoved k).1, (hmoved k).2, if_neg hk, add_zero, and_self]

theorem Turn.accounts (hF : F.Settling) (h : Turn F s t) (hi : Accounts s) : Accounts t := by
  obtain ⟨hcoarse, hblurred, hstale⟩ := hF
  have hs := h.sessionsOk hi.sessions
  cases h with
  | @request w x bal db ts hreq hl hts =>
    obtain ⟨db₁, hm, rfl⟩ := hreq.write
    have hlock := hm.lockedBy (locked_backs (hl.resolve_left hcoarse) hreq.stored hreq.locked)
    refine ⟨hs, ?_, ?_, ?_⟩
    · intro u c
      show (s.db.wallet_withdrawals.insert w).sum _ ≤ (db₁.balance u c).locked.val
      rw [hlock u c, Table.sum_insert, withdrawalHold_open (by rw [hreq.status]; rfl)]
      exact add_le_add_left (hi.backed u c) _
    · intro k hk
      simp only [Table.insert_row] at hk
      split at hk
      · cases hk
      · exact hi.absent k hk
    · intro k v hv
      simp only [Table.insert_row] at hv
      split at hv
      · -- the new row: nothing has moved on its behalf
        subst k
        cases hv
        rw [settlement_open (by rw [hreq.status]; rfl)]
        exact hi.absent _ (s.db.wallet_withdrawals.fresh _ le_rfl)
      · exact hi.moved k v hv
  | @transaction i db ts hd hts =>
    cases hd with
    | nothing =>
      obtain ⟨ha, hl⟩ := commit_still s i (Eq.refl s.db.user_balances)
      refine ⟨hs, ?_, ?_, ?_⟩
      · simp only [commit_db]
        exact hi.backed
      · simp only [commit_db, ha, hl]
        exact hi.absent
      · simp only [commit_db, ha, hl]
        exact hi.moved
    | noted hr ht hst => exact hi.relabel hr ht (settlement_same ht hst) (by rw [hst]) hs
    | @approved w w' hr ht hp ha =>
      have ho : w.status.isOpen = true := by rw [hp]; rfl
      have ho' : w'.status.isOpen = true := by rw [ha]; rfl
      refine hi.relabel hr ht ?_ (by rw [ho, ho']) hs
      rw [settlement_open ho, settlement_open ho']
    | @sent w x bal _ hset ho hx hl =>
      refine hi.settle hset (ho.resolve_left hstale) hx (hl.resolve_left hcoarse) rfl ?_ hs
      intro w' ht hst
      have ha := hset.amount (.inl rfl)
      rw [plus_zero_val, store_val, Except.ok.injEq] at ha
      rw [WalletWithdrawal.settlement, hst, ← ha, sub_self, ht.2.2]
    | @refunded w x bal _ hset ho hx hl hb _ =>
      have hopen := ho.resolve_left hstale
      refine hi.settle hset hopen hx (hl.resolve_left hcoarse) rfl ?_ hs
      intro w' ht hst
      have ha := hset.amount (.inr (hi.covers hset.row hopen))
      rw [hb.resolve_left hblurred _ hx] at ha
      rw [WalletWithdrawal.settlement, hst, store_plus (Numeric.isGrid _) (Numeric.isGrid _) ha, ht.2.2]
      simp
  | watch => exact ⟨hs, hi.backed, hi.absent, hi.moved⟩
  | execute => exact ⟨hs, hi.backed, hi.absent, hi.moved⟩

/-- A settled withdrawal stays as it is: its status, and what was moved for it. -/
def Stays (i : ℕ) (s t : Sys) : Prop :=
  ∀ w, s.db.wallet_withdrawals.row i = some w → w.status.isOpen = false →
    (∃ w', t.db.wallet_withdrawals.row i = some w' ∧ SameRequest w w' ∧ w'.status = w.status) ∧
      t.amount_moved i = s.amount_moved i ∧ t.locked_moved i = s.locked_moved i

theorem Stays.of_eq (hw : t.db.wallet_withdrawals.row i = s.db.wallet_withdrawals.row i)
    (ha : t.amount_moved i = s.amount_moved i) (hl : t.locked_moved i = s.locked_moved i) : Stays i s t := by
  intro w hr _
  exact ⟨⟨w, by rw [hw, hr], .refl w, rfl⟩, ha, hl⟩

theorem Turn.stays (hF : F.Settling) (h : Turn F s t) (i : ℕ) : Stays i s t := by
  obtain ⟨-, -, hstale⟩ := hF
  cases h with
  | @request w x bal db ts hreq hl hts =>
    obtain ⟨db₁, hm, rfl⟩ := hreq.write
    intro v hv _
    exact ⟨⟨v, by simp [(Table.lt_next hv).ne, hv], .refl v, rfl⟩, rfl, rfl⟩
  | @transaction j db ts hd hts =>
    have other {v : WalletWithdrawal} {db' : Db} (hj : i ≠ j)
        (hw : db'.wallet_withdrawals = s.db.wallet_withdrawals.set j v)
        (hr : ∃ w, s.db.wallet_withdrawals.row j = some w) :
        Stays i s { s.commit j db' with sessions := ts } := by
      obtain ⟨w, hr⟩ := hr
      obtain ⟨ha, hl⟩ := commit_moved (k := i) db' hr
      rw [if_neg hj, add_zero] at ha hl
      refine .of_eq ?_ ha hl
      rw [commit_db, hw, Table.set_row_ne hj]
    cases hd with
    | nothing =>
      obtain ⟨ha, hl⟩ := commit_still s j (Eq.refl s.db.user_balances)
      exact .of_eq (by rw [commit_db]) (by rw [ha]) (by rw [hl])
    | @noted w w' hr ht hst =>
      by_cases hj : i = j
      · subst j
        obtain ⟨ha, hl⟩ := commit_still s i (show (s.db.setWithdrawal i w').user_balances = s.db.user_balances from rfl)
        intro v hv _
        cases hr.symm.trans hv
        refine ⟨⟨w', ?_, ht, hst⟩, by rw [ha], by rw [hl]⟩
        simp only [commit_db, Db.setWithdrawal]
        rw [Table.set_row hr, if_pos rfl]
      · exact other hj rfl ⟨w, hr⟩
    | @approved w w' hr ht hp ha =>
      by_cases hj : i = j
      · subst j
        intro v hv hc
        cases hr.symm.trans hv
        rw [hp] at hc
        cases hc
      · exact other hj rfl ⟨w, hr⟩
    | @sent w x bal _ hset ho =>
      obtain ⟨w', -, -, hw⟩ := hset.rows
      by_cases hj : i = j
      · subst j
        intro v hv hc
        cases hset.row.symm.trans hv
        rw [ho.resolve_left hstale] at hc
        cases hc
      · exact other hj hw ⟨w, hset.row⟩
    | @refunded w x bal _ hset ho =>
      obtain ⟨w', -, -, hw⟩ := hset.rows
      by_cases hj : i = j
      · subst j
        intro v hv hc
        cases hset.row.symm.trans hv
        rw [ho.resolve_left hstale] at hc
        cases hc
      · exact other hj hw ⟨w, hset.row⟩
  | watch => exact .of_eq rfl rfl rfl
  | execute => exact .of_eq rfl rfl rfl

theorem Stays.trans {r : Sys} (h : Stays i s t) (h' : Stays i t r) : Stays i s r := by
  intro w hw hc
  obtain ⟨⟨w₁, hw₁, ht₁, hs₁⟩, ha₁, hl₁⟩ := h w hw hc
  obtain ⟨⟨w₂, hw₂, ht₂, hs₂⟩, ha₂, hl₂⟩ := h' w₁ hw₁ (by rw [hs₁, hc])
  exact ⟨⟨w₂, hw₂, ht₁.trans ht₂, hs₂.trans hs₁⟩, ha₂.trans ha₁, hl₂.trans hl₁⟩

/-- No withdrawals yet, and nothing locked is negative. -/
structure NoWithdrawals (db : Db) : Prop where
  withdrawals : ∀ i, db.wallet_withdrawals.row i = none
  locked : ∀ u c, 0 ≤ (db.balance u c).locked.val

theorem NoWithdrawals.amountsOk (h : NoWithdrawals db) : AmountsOk db := by
  intro i w hw
  rw [h.withdrawals] at hw
  cases hw

theorem NoWithdrawals.accounts (h : NoWithdrawals db) : Accounts (Sys.start db) := by
  refine ⟨start_sessionsOk h.amountsOk, ?_, fun _ _ => rfl, ?_⟩
  · intro u c
    show db.wallet_withdrawals.sum _ ≤ (db.balance u c).locked.val
    rw [show db.wallet_withdrawals.sum (withdrawalHold u c) = 0 from
      Finset.sum_eq_zero fun i _ => by rw [h.withdrawals i]; rfl]
    exact h.locked u c
  · intro i w hw
    rw [Sys.start, h.withdrawals] at hw
    cases hw

/-- In every run without those irregular steps, each withdrawal has moved
exactly what its status says, and one that is settled is never moved again. -/
theorem withdrawal_settled_once (h0 : NoWithdrawals db)
    (h : Reach WithdrawalStep (fun op s => (op.flaws s).Settling) (Sys.start db) s)
    (h' : Reach WithdrawalStep (fun op s => (op.flaws s).Settling) s t) (i : ℕ) :
    (∀ w, t.db.wallet_withdrawals.row i = some w → (t.amount_moved i, t.locked_moved i) = w.settlement) ∧
      Stays i s t := by
  have step : ∀ op s t, Accounts s → (op.flaws s).Settling → WithdrawalStep op s t → Accounts t := by
    intro op s t hi hF hstep
    exact (turn_of hi.sessions hstep).accounts hF hi
  have hs : Accounts s := h.invariant h0.accounts step
  have ht : Accounts t ∧ Stays i s t := by
    refine h'.invariant (I := fun t => Accounts t ∧ Stays i s t) ⟨hs, .of_eq rfl rfl rfl⟩ ?_
    rintro op t r ⟨hi, hst⟩ hF hstep
    exact ⟨step op t r hi hF hstep, hst.trans ((turn_of hi.sessions hstep).stays hF i)⟩
  exact ⟨ht.1.moved i, ht.2⟩

theorem sample_noWithdrawals (decimals : ℕ) (amount : Money) : NoWithdrawals (sampleDb decimals amount) :=
  ⟨(sample_fresh decimals amount).withdrawals, fun u c => ((sample_fresh decimals amount).locked u c).ge⟩

/-- User 1 asks for 10. -/
def sampleCreate : WithdrawalOp := .create (fun _ _ => true) 1 "USDT" 10 none 0

theorem sampleCreate_settling (s : Sys) : (sampleCreate.flaws s).Settling := by
  refine ⟨?_, id, id⟩
  rintro ⟨c, cur, -, hl⟩
  exact hl (locksAs_of_grid ⟨1000000000, by norm_num⟩ _)

/-- Approved, not sent, and paid out by hand. -/
def sampleManual : List WithdrawalOp := [sampleCreate, .approve 1 none, .approve_failed 1 "timeout", .mark_sent 1 none 0]

theorem sampleManual_settled_once :
    ∃ t, Reach WithdrawalStep (fun op s => (op.flaws s).Settling) (Sys.start (sampleDb 2 ⟨5000000000, by decide⟩)) t ∧
      ∃ w, t.db.wallet_withdrawals.row 1 = some w ∧ (t.amount_moved 1, t.locked_moved 1) = w.settlement ∧
        Stays 1 t t := by
  have hrun : ∃ t, Reach WithdrawalStep (fun op s => (op.flaws s).Settling)
      (Sys.start (sampleDb 2 ⟨5000000000, by decide⟩)) t ∧ (t.db.wallet_withdrawals.row 1).isSome = true := by
    refine Reach.of_check Sys.withdrawal sampleManual (fun _ => True)
      (by decide +kernel) trivial (fun _ _ _ _ _ => trivial) ?_
    intro op hop s _
    simp only [sampleManual, List.mem_cons, List.not_mem_nil, or_false] at hop
    rcases hop with rfl | rfl | rfl | rfl
    · exact sampleCreate_settling s
    · exact ⟨id, id, id⟩
    · exact ⟨id, id, id⟩
    · exact ⟨id, id, id⟩
  obtain ⟨t, hreach, hsome⟩ := hrun
  obtain ⟨w, hw⟩ := Option.isSome_iff_exists.1 hsome
  obtain ⟨hm, hst⟩ := withdrawal_settled_once (sample_noWithdrawals _ _) hreach .refl 1
  exact ⟨t, hreach, w, hw, hm w hw, hst⟩

/-- While the transfer of an approval is under way, another admin marks the
withdrawal as sent; the approval then settles it again. -/
def sampleTwice : List WithdrawalOp :=
  [sampleCreate, sampleCreate, .approve 1 none, .execute 1, .mark_sent 1 none 0, .approve_sent 1 "TX1" 0]

/-- 20 are taken out of the locked funds for a withdrawal of 10. -/
theorem approve_settles_twice :
    NoWithdrawals (sampleDb 2 ⟨5000000000, by decide⟩) ∧
      ∃ t, Reach WithdrawalStep Free (Sys.start (sampleDb 2 ⟨5000000000, by decide⟩)) t ∧
        (t.db.wallet_withdrawals.row 1).map (·.settlement) = some (0, -10) ∧ t.locked_moved 1 = -20 := by
  refine ⟨sample_noWithdrawals _ _, Reach.free_of_check Sys.withdrawal sampleTwice ?_⟩
  decide +kernel

end

/-! ## Paid out or returned, never both -/

/-- A withdrawal whose amount was returned is closed, its transfer was not
executed, and no session can still have it executed. -/
structure Returned (s : Sys) (i : ℕ) : Prop where
  closed : Closed s.db i
  executed : s.executed i = false
  quiet : ∀ k x, s.sessions.row k = some x → x.subject = i → x.transferring = false

structure PaidOrReturned (s : Sys) : Prop where
  sessions : SessionsOk s
  returned : ∀ i, s.amount_moved i ≠ 0 → Returned s i

section
variable {F : Flaws} {db db' : Db} {s t : Sys} {i j k : ℕ} {ts : Table Session}

/-- A closed withdrawal stays closed, whatever settles it again. -/
theorem Did.closed (h : Did F s j ts db') (hc : Closed s.db i) : Closed db' i := by
  obtain ⟨w, hw, ho⟩ := hc
  have set {v v' : WalletWithdrawal} (hv : s.db.wallet_withdrawals.row j = some v)
      (hd : db'.wallet_withdrawals = s.db.wallet_withdrawals.set j v') (hov : i = j → v'.status.isOpen = false) :
      Closed db' i := by
    by_cases hj : i = j
    · refine ⟨v', ?_, hov hj⟩
      rw [hd, Table.set_row hv, if_pos hj]
    · exact ⟨w, by rw [hd, Table.set_row_ne hj, hw], ho⟩
  cases h with
  | nothing => exact ⟨w, hw, ho⟩
  | noted hr ht hs =>
    refine set hr rfl fun hj => ?_
    subst hj
    cases hr.symm.trans hw
    rw [hs, ho]
  | approved hr ht hs =>
    refine set hr rfl fun hj => ?_
    subst hj
    cases hr.symm.trans hw
    rw [hs] at ho
    cases ho
  | sent h =>
    obtain ⟨w', -, hst, hd⟩ := h.rows
    exact set h.row hd fun _ => by rw [hst]; rfl
  | refunded h =>
    obtain ⟨w', -, hst, hd⟩ := h.rows
    exact set h.row hd fun _ => by rw [hst]; rfl

/-- Only a refund adds to what was returned. -/
theorem Did.amount_moved (hF : ¬F.overpaid) (h : Did F s j ts db') (k : ℕ) :
    (s.commit j db').amount_moved k = s.amount_moved k ∨
      (k = j ∧ Closed db' j ∧ s.executed j = false ∧
        ∀ k x, ts.row k = some x → x.subject = j → x.transferring = false) := by
  have still {db₁ : Db} (hb : db₁.user_balances = s.db.user_balances) :
      (s.commit j db₁).amount_moved k = s.amount_moved k := by rw [(commit_still s j hb).1]
  cases h with
  | nothing => exact .inl (still rfl)
  | noted => exact .inl (still rfl)
  | approved => exact .inl (still rfl)
  | sent h =>
    refine .inl ?_
    have ha := h.amount (.inl rfl)
    rw [plus_zero_val, store_val, Except.ok.injEq] at ha
    rw [(commit_moved _ h.row).1, h.balance, ← ha, sub_self, ite_self, add_zero]
  | refunded h _ _ _ _ hf =>
    by_cases hk : k = j
    · obtain ⟨w', -, hst, hd⟩ := h.rows
      refine .inr ⟨hk, ⟨w', ?_, by rw [hst]; rfl⟩, hf.resolve_left hF⟩
      rw [hd, Table.set_row h.row, if_pos rfl]
    · exact .inl (by rw [(commit_moved _ h.row).1, if_neg hk, add_zero])

/-- A turn keeps a returned withdrawal as it is. -/
theorem Turn.returned (h : Turn F s t) (hi : Returned s i) : Returned t i := by
  obtain ⟨hclosed, hexec, hquiet⟩ := hi
  have hlt : i ≠ s.db.wallet_withdrawals.next := by
    obtain ⟨w, hw, -⟩ := hclosed
    exact (Table.lt_next hw).ne
  cases h with
  | @request w x bal db ts hreq hl hts =>
    obtain ⟨db₁, hm, rfl⟩ := hreq.write
    obtain ⟨w', hw', ho⟩ := hclosed
    refine ⟨⟨w', by simp [hlt, hw'], ho⟩, hexec, ?_⟩
    rcases hts with rfl | ⟨b, rfl⟩
    · exact hquiet
    · intro k x hk hx
      rw [Table.insert_row] at hk
      split at hk
      · cases hk
        exact absurd hx.symm hlt
      · exact hquiet k x hk hx
  | @transaction j db ts hd hts =>
    refine ⟨by rw [commit_db]; exact hd.closed hclosed, by rw [commit_executed]; exact hexec, ?_⟩
    intro k x hk hx
    rcases hts k x hk with hk | ⟨j', w, w', rfl, hr, hp, -, -⟩
    · exact hquiet k x hk hx
    · -- a new approval is for a pending withdrawal
      obtain ⟨v, hv, ho⟩ := hclosed
      obtain rfl : j' = i := hx
      cases hr.symm.trans hv
      rw [hp] at ho
      cases ho
  | watch hts =>
    refine ⟨hclosed, hexec, ?_⟩
    intro k x hk hx
    rcases hts k x hk with hk | ⟨hq, -⟩
    · exact hquiet k x hk hx
    · exact hq
  | execute hj ht =>
    refine ⟨hclosed, ?_, hquiet⟩
    simp only [hexec, Bool.or_false, decide_eq_false_iff_not]
    rintro rfl
    rw [hquiet _ _ hj rfl] at ht
    cases ht

theorem Turn.paidOrReturned (hF : ¬F.overpaid) (h : Turn F s t) (hi : PaidOrReturned s) : PaidOrReturned t := by
  refine ⟨h.sessionsOk hi.sessions, ?_⟩
  intro i hm
  by_cases hs : s.amount_moved i = 0
  · -- what was returned, this turn returned
    cases h with
    | request => exact absurd hs hm
    | transaction hd =>
      rcases hd.amount_moved hF i with he | ⟨rfl, hc, he, hq⟩
      · exact absurd (he.trans hs) hm
      · exact ⟨by rw [commit_db]; exact hc, by rw [commit_executed]; exact he, hq⟩
    | watch => exact absurd hs hm
    | execute => exact absurd hs hm
  · exact h.returned (hi.returned i hs)

theorem NoWithdrawals.paidOrReturned (h : NoWithdrawals db) : PaidOrReturned (Sys.start db) :=
  ⟨start_sessionsOk h.amountsOk, fun _ hm => absurd rfl hm⟩

/-- In every run that refunds no withdrawal while its transfer may go through,
nothing is returned of a withdrawal whose transfer was executed. -/
theorem executed_not_returned (h0 : NoWithdrawals db)
    (h : Reach WithdrawalStep (fun op s => ¬(op.flaws s).overpaid) (Sys.start db) t) (i : ℕ)
    (he : t.executed i = true) : t.amount_moved i = 0 := by
  have hinv : PaidOrReturned t := by
    refine h.invariant h0.paidOrReturned ?_
    intro op s t hi hF hstep
    exact (turn_of hi.sessions hstep).paidOrReturned hF hi
  by_contra hm
  have := (hinv.returned i hm).executed
  rw [he] at this
  cases this

/-- Approved, transferred and sent. -/
def sampleSent : List WithdrawalOp := [sampleCreate, .approve 1 none, .execute 1, .approve_sent 1 "TX1" 0]

theorem sampleSent_not_returned :
    ∃ t, Reach WithdrawalStep (fun op s => ¬(op.flaws s).overpaid) (Sys.start (sampleDb 2 ⟨5000000000, by decide⟩)) t ∧
      t.executed 1 = true ∧ t.amount_moved 1 = 0 := by
  have hrun : ∃ t, Reach WithdrawalStep (fun op s => ¬(op.flaws s).overpaid)
      (Sys.start (sampleDb 2 ⟨5000000000, by decide⟩)) t ∧ t.executed 1 = true := by
    refine Reach.of_check Sys.withdrawal sampleSent (fun _ => True)
      (by decide +kernel) trivial (fun _ _ _ _ _ => trivial) ?_
    intro op hop s _
    simp only [sampleSent, List.mem_cons, List.not_mem_nil, or_false] at hop
    rcases hop with rfl | rfl | rfl | rfl <;> exact id
  obtain ⟨t, hreach, he⟩ := hrun
  exact ⟨t, hreach, he, executed_not_returned (sample_noWithdrawals _ _) hreach 1 he⟩

/-- While the transfer of an approval is under way, another admin rejects the withdrawal; the transfer goes through. -/
def sampleOverpaid : List WithdrawalOp := [sampleCreate, .approve 1 none, .reject 1 none 0, .execute 1]

theorem reject_pays_twice :
    NoWithdrawals (sampleDb 2 ⟨5000000000, by decide⟩) ∧
      ∃ t, Reach WithdrawalStep Free (Sys.start (sampleDb 2 ⟨5000000000, by decide⟩)) t ∧
        t.executed 1 = true ∧ t.amount_moved 1 = 10 := by
  refine ⟨sample_noWithdrawals _ _, Reach.free_of_check Sys.withdrawal sampleOverpaid ?_⟩
  decide +kernel

end

end Garant
