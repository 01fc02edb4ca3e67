import Garant.Lib.Transactions
import Garant.Crediting
/-!
# The order of the money locks

Which rows of `wallet_deposits`, `deals` and `user_balances` each operation
locks, one after the other, until it commits. The documented order is deposit,
deal, balance, and balances by user. `lock_order_no_deadlock`: as long as the
operations that can break it do not, no set of them ever waits in a circle.
Cancelling a deal that waits for its payment does break it
(`cancel_meets_webhook`).

What the operations write does not matter here, so the database may change in
any way at any moment. A refusal ends a session, and so may anything else at
any moment.
-/
open Transactions

namespace Garant

/-- A row the operations lock. -/
inductive RowLock
  | deposit (i : ℕ)
  | deal (i : ℕ)
  | balance (user_id currency_id : ℕ)
deriving DecidableEq

/-- Deposits, then deals, then balances by user. -/
def RowLock.rank : RowLock → ℕ ×ₗ ℕ ×ₗ ℕ
  | .deposit i => toLex (0, toLex (i, 0))
  | .deal i => toLex (1, toLex (i, 0))
  | .balance u c => toLex (2, toLex (u, c))

theorem RowLock.rank_injective : Function.Injective RowLock.rank := by
  rintro (i | i | ⟨u, c⟩) (j | j | ⟨u', c'⟩) h <;> simp_all [RowLock.rank]

instance : LinearOrder RowLock := LinearOrder.lift' RowLock.rank RowLock.rank_injective

theorem RowLock.lt_iff {a b : RowLock} : a < b ↔ a.rank < b.rank := Iff.rfl

theorem RowLock.deposit_lt_deal (i j : ℕ) : RowLock.deposit i < .deal j := by
  simp [RowLock.lt_iff, RowLock.rank, Prod.Lex.toLex_lt_toLex]

theorem RowLock.deposit_lt_balance (i u c : ℕ) : RowLock.deposit i < .balance u c := by
  simp [RowLock.lt_iff, RowLock.rank, Prod.Lex.toLex_lt_toLex]

theorem RowLock.deal_lt_balance (i u c : ℕ) : RowLock.deal i < .balance u c := by
  simp [RowLock.lt_iff, RowLock.rank, Prod.Lex.toLex_lt_toLex]

theorem RowLock.balance_le {u u' : ℕ} (c : ℕ) (h : u ≤ u') : RowLock.balance u c ≤ .balance u' c := by
  rcases h.eq_or_lt with rfl | hlt
  · exact le_rfl
  · refine le_of_lt (RowLock.lt_iff.2 ?_)
    simp [RowLock.rank, Prod.Lex.toLex_lt_toLex, hlt]

/-! ## The programs -/

/-- The statements of an operation, as far as they lock rows. -/
abbrev LockProg := Prog Db RowLock

/-- Locks the rows and commits. -/
def locking (rows : List RowLock) : LockProg := .lockAll rows (.commit id .done)

/-- The balance `lock_user_balance` locks. A missing row is inserted first, and
that waits for the same holder. -/
def buyerBalance (d : Deal) : List RowLock := [.balance d.buyer_id d.currency_id]

/-- The two balances of `_release_to` and `_lock_buyer_seller_balances`, by user id. -/
def bothBalances (d : Deal) : List RowLock :=
  [.balance (min d.buyer_id d.seller_id) d.currency_id, .balance (max d.buyer_id d.seller_id) d.currency_id]

/-- An operation that locks its deal, checks it, and then locks more rows. -/
def onDeal (deal_id : ℕ) (check : Db → Deal → Bool) (rows : Deal → List RowLock) : LockProg :=
  .lock (.deal deal_id) <| .read fun db => match db.deals.row deal_id with
    | none => .done
    | some d => if check db d then locking (rows d) else .done

/-- `complete_deal_topup_payment` under the lock on its deposit. -/
def creditTopupLocks (d : WalletDeposit) : LockProg :=
  match d.linked_deal_id with
  | none => locking []
  | some deal_id => .lock (.deal deal_id) <| .read fun db => match db.deals.row deal_id with
    | none => locking []
    | some deal => locking (buyerBalance deal)

/-- `credit_deposit`, from a webhook or a status query. -/
def creditLocks (deposit_id : ℕ) : LockProg :=
  .lock (.deposit deposit_id) <| .read fun db => match db.wallet_deposits.row deposit_id with
    | none => .done
    | some d =>
      if d.status = .paid then .done
      else match d.purpose with
        | .wallet => locking [.balance d.user_id d.currency_id]
        | .trust => locking []
        | .deal_topup => creditTopupLocks d

/-- The deposit that a deal points at. -/
def topupDeposit (d : Deal) : List RowLock := d.topup_deposit_id.toList.map .deposit

/-- The deals of `rows` that meet `p`, with their rows. -/
def chosenDeals (db : Db) (p : Deal → Bool) (rows : List ℕ) : List (ℕ × Deal) :=
  rows.filterMap fun i => ((db.deals.row i).filter p).map fun d => (i, d)

/-- A sweep over deals: those of `rows` that it finds and nobody has locked, and
then the rows it needs for each, until one commit at the end. -/
def dealSweep (rows : List ℕ) (p : Db → Deal → Bool) (more : Db → Deal → List RowLock) : LockProg :=
  .read fun db => .lockFree .deal ((chosenDeals db (p db) rows).map Prod.fst) fun got =>
    .read fun db => locking ((chosenDeals db (p db) got).flatMap fun x => more db x.2)

/-- Whether `sweep_pending_topup` picks the deal. -/
def topupOverdue (now : Time) (db : Db) (d : Deal) : Bool :=
  let hrs := if db.app_settings.pending_topup_expiry_hours = 0 then 24 else db.app_settings.pending_topup_expiry_hours
  0 < hrs ∧ d.status = .pending_topup ∧ d.created_at ≤ now - hours hrs

/-- The balance `sweep_inactivity` locks for a deal; none if its currency is gone. -/
def inactivityBalance (db : Db) (d : Deal) : List RowLock :=
  if (db.currencies.row d.currency_id).isSome then buyerBalance d else []

/-- `delete_deal` with the rows that the foreign key `linked_deal_id` makes the
deletion update (`ON DELETE SET NULL`). -/
def deleteDealLocks (deal_id : ℕ) : LockProg :=
  .lock (.deal deal_id) <| .read fun db => match db.deals.row deal_id with
    | none => .done
    | some d => .lockAll
      (if (db.currencies.row d.currency_id).isSome ∧ isActiveForMoneyMovement d.status then buyerBalance d else []) <|
      .read fun db => locking ((db.wallet_deposits.ids fun p => p.linked_deal_id = some deal_id).map .deposit)

/-- The balances of the withdrawals, in the order given. -/
def withdrawalBalances (db : Db) (rows : List ℕ) : List RowLock :=
  rows.filterMap fun i => (db.wallet_withdrawals.row i).map fun w => .balance w.user_id w.currency_id

/-- The operations and what their locks depend on. `rows` of a sweep are in the
order in which its query returns them, or its loop comes to lock them. -/
inductive MoneyOp
  | creditDeposit (deposit_id : ℕ)
  | cancelPendingTopup (deal_id user_id : ℕ)
  | sweepPendingTopup (rows : List ℕ) (now : Time)
  | sweepInactivity (rows : List ℕ) (now : Time)
  | finishDeal (deal_id user_id : ℕ)
  | declineDeal (deal_id user_id : ℕ)
  | acceptCancel (deal_id user_id : ℕ)
  | resolveArbitration (deal_id admin_id : ℕ) (winner : String)
  | forceRelease (deal_id : ℕ)
  | forceRefund (deal_id : ℕ)
  | splitDeal (deal_id : ℕ)
  | deleteDeal (deal_id : ℕ)
  | createWithdrawal (user_id currency_id : ℕ)
  | decideApprove (withdrawal_id : ℕ)
  | decideOther (withdrawal_id : ℕ)
  | sweepStaleWithdrawals (rows : List ℕ) (now : Time)

/-- The checks that a deal's currency exists and that the deal is active. -/
def activeWithCurrency (db : Db) (d : Deal) : Bool :=
  (db.currencies.row d.currency_id).isSome ∧ isActiveForMoneyMovement d.status

/-- The statements of each operation. -/
def MoneyOp.prog : MoneyOp → LockProg
  | .creditDeposit i => creditLocks i
  | .cancelPendingTopup k u => onDeal k (fun _ d => u = d.buyer_id ∧ d.status = .pending_topup) topupDeposit
  | .sweepPendingTopup rows now => dealSweep rows (topupOverdue now) fun _ d => topupDeposit d
  | .sweepInactivity rows now => dealSweep rows (fun db => inactive db.app_settings now) inactivityBalance
  | .finishDeal k u => onDeal k (fun db d => u = d.buyer_id ∧ d.status = .in_progress ∧
      (db.currencies.row d.currency_id).isSome) bothBalances
  | .declineDeal k u => onDeal k (fun db d => u = d.seller_id ∧ d.status = .pending_confirmation ∧
      (db.currencies.row d.currency_id).isSome) buyerBalance
  | .acceptCancel k u => onDeal k (fun db d => d.status = .pending_cancellation ∧ (u = d.buyer_id ∨ u = d.seller_id) ∧
      some u ≠ d.cancellation_initiator_id ∧ (db.currencies.row d.currency_id).isSome) buyerBalance
  | .resolveArbitration k a winner => onDeal k (fun db d =>
      (db.users.row a).any (fun admin => admin.is_admin ∨ admin.is_arbiter) ∧ d.status = .arbitration ∧
      (winner = "buyer" ∨ winner = "seller") ∧ (db.currencies.row d.currency_id).isSome)
      fun d => if winner = "buyer" then buyerBalance d else bothBalances d
  | .forceRelease k => onDeal k activeWithCurrency bothBalances
  | .forceRefund k => onDeal k activeWithCurrency buyerBalance
  | .splitDeal k => onDeal k activeWithCurrency bothBalances
  | .deleteDeal k => deleteDealLocks k
  | .createWithdrawal u c => .lock (.balance u c) <| .commit id <| locking [.balance u c]
  | .decideApprove i => .commit id <| .read fun db => locking (withdrawalBalances db [i])
  | .decideOther i => .read fun db => locking (withdrawalBalances db [i])
  | .sweepStaleWithdrawals rows now => .read fun db =>
      locking (withdrawalBalances db (rows.filter fun i => i ∈ staleWithdrawals db now))

/-! ## When they keep the order -/

/-- The operation takes no deposit lock after a deal lock, and its balances by
user. This can fail for five of them only. -/
def MoneyOp.Orderly : MoneyOp → Db → Prop
  | .cancelPendingTopup k u, db => ∀ d, db.deals.row k = some d → u = d.buyer_id → d.status = .pending_topup →
      d.topup_deposit_id = none
  | .sweepPendingTopup rows now, db => ∀ k ∈ rows, ∀ d, db.deals.row k = some d → topupOverdue now db d →
      d.topup_deposit_id = none
  | .deleteDeal k, db => ∀ j p, db.wallet_deposits.row j = some p → p.linked_deal_id ≠ some k
  | .sweepInactivity rows now, db => ((chosenDeals db (inactive db.app_settings now) rows).flatMap
      fun x => inactivityBalance db x.2).Pairwise (· ≤ ·)
  | .sweepStaleWithdrawals rows now, db =>
      (withdrawalBalances db (rows.filter fun i => i ∈ staleWithdrawals db now)).Pairwise (· ≤ ·)
  | _, _ => True

section
variable {P : Db → Prop} {held : List RowLock}

theorem ordered_locking {rows : List RowLock} (hup : rows.Pairwise (· ≤ ·))
    (habove : ∀ h ∈ held, ∀ r ∈ rows, h ≤ r) : (locking rows).Ordered P held :=
  Prog.ordered_lockAll (hup.imp fun h => h.eq_or_lt) (fun h hh r hr => (habove h hh r hr).eq_or_lt) trivial

theorem ordered_locking_nil : (locking []).Ordered P held := ordered_locking .nil (by simp)

theorem buyerBalance_up (d : Deal) : (buyerBalance d).Pairwise (· ≤ ·) := List.pairwise_singleton ..

theorem bothBalances_up (d : Deal) : (bothBalances d).Pairwise (· ≤ ·) := by
  simpa [bothBalances] using RowLock.balance_le d.currency_id (min_le_max (a := d.buyer_id) (b := d.seller_id))

/-- Rows that are all balances. -/
def Balances (rows : List RowLock) : Prop := ∀ r ∈ rows, ∃ u c, r = .balance u c

theorem buyerBalance_balances (d : Deal) : Balances (buyerBalance d) := by
  simp [Balances, buyerBalance]

theorem bothBalances_balances (d : Deal) : Balances (bothBalances d) := by
  simp [Balances, bothBalances]

theorem deal_le_balances {rows : List RowLock} {deals : List ℕ} (hb : Balances rows) :
    ∀ h ∈ deals.map RowLock.deal, ∀ r ∈ rows, h ≤ r := by
  intro h hh r hr
  obtain ⟨i, -, rfl⟩ := List.mem_map.1 hh
  obtain ⟨u, c, rfl⟩ := hb r hr
  exact (RowLock.deal_lt_balance i u c).le

/-- A deal first, and then rows in ascending order above it. -/
theorem ordered_onDeal {k : ℕ} {check : Db → Deal → Bool} {rows : Deal → List RowLock}
    (h : ∀ db d, P db → db.deals.row k = some d → check db d = true →
      (rows d).Pairwise (· ≤ ·) ∧ ∀ r ∈ rows d, RowLock.deal k ≤ r) :
    (onDeal k check rows).Ordered P [] := by
  refine ⟨.inr (by simp), fun db hdb => ?_⟩
  beta_reduce
  cases hr : db.deals.row k with
  | none => trivial
  | some d =>
    simp only
    split
    · rename_i hc
      obtain ⟨hup, habove⟩ := h db d hdb hr hc
      exact ordered_locking hup (by simpa using habove)
    · trivial

theorem ordered_onDeal_balances {k : ℕ} {check : Db → Deal → Bool} {rows : Deal → List RowLock}
    (hup : ∀ d, (rows d).Pairwise (· ≤ ·)) (hb : ∀ d, Balances (rows d)) : (onDeal k check rows).Ordered P [] :=
  ordered_onDeal fun _ d _ _ _ => ⟨hup d, deal_le_balances (hb d) _ (List.mem_map_of_mem (List.mem_singleton_self k))⟩

theorem ordered_creditLocks (i : ℕ) : (creditLocks i).Ordered P [] := by
  refine ⟨.inr (by simp), fun db _ => ?_⟩
  beta_reduce
  cases hr : db.wallet_deposits.row i with
  | none => trivial
  | some d =>
    simp only
    split
    · trivial
    · cases d.purpose with
      | wallet => exact ordered_locking (List.pairwise_singleton ..) (by simpa using (RowLock.deposit_lt_balance ..).le)
      | trust => exact ordered_locking_nil
      | deal_topup =>
        simp only [creditTopupLocks]
        cases d.linked_deal_id with
        | none => exact ordered_locking_nil
        | some k =>
          refine ⟨.inr (by simpa using RowLock.deposit_lt_deal i k), fun db _ => ?_⟩
          beta_reduce
          cases hk : db.deals.row k with
          | none => exact ordered_locking_nil
          | some deal =>
            refine ordered_locking (buyerBalance_up deal) ?_
            simpa [buyerBalance] using ⟨(RowLock.deal_lt_balance ..).le, (RowLock.deposit_lt_balance ..).le⟩

theorem chosenDeals_sublist {db : Db} {p : Deal → Bool} {got rows : List ℕ} (h : got.Sublist rows) :
    (chosenDeals db p got).Sublist (chosenDeals db p rows) := h.filterMap _

theorem chosenDeals_ids_sublist {db : Db} {p : Deal → Bool} (rows : List ℕ) :
    ((chosenDeals db p rows).map Prod.fst).Sublist rows := by
  induction rows with
  | nil => exact .slnil
  | cons i rows ih =>
    rw [chosenDeals, List.filterMap_cons]
    cases (db.deals.row i).filter p with
    | none => exact ih.cons i
    | some d => exact ih.cons_cons i

theorem mem_chosenDeals {db : Db} {p : Deal → Bool} {rows : List ℕ} {x : ℕ × Deal} (h : x ∈ chosenDeals db p rows) :
    x.1 ∈ rows ∧ db.deals.row x.1 = some x.2 ∧ p x.2 = true := by
  obtain ⟨i, hi, hx⟩ := List.mem_filterMap.1 h
  obtain ⟨d, hd, rfl⟩ := Option.map_eq_some_iff.1 hx
  obtain ⟨hr, hp⟩ := Option.filter_eq_some_iff.1 hd
  exact ⟨hi, hr, hp⟩

/-- A sweep takes its deals as they come, so only the rows after them have to be in order. -/
theorem ordered_dealSweep {rows : List ℕ} {p : Db → Deal → Bool} {more : Db → Deal → List RowLock}
    (hup : ∀ db, P db → ((chosenDeals db (p db) rows).flatMap fun x => more db x.2).Pairwise (· ≤ ·))
    (hb : ∀ db, P db → ∀ x ∈ chosenDeals db (p db) rows, Balances (more db x.2)) :
    (dealSweep rows p more).Ordered P [] := by
  refine fun db _ => Prog.ordered_lockFree fun got hgot db' hdb' => ?_
  have hsub : (chosenDeals db' (p db') got).Sublist (chosenDeals db' (p db') rows) :=
    chosenDeals_sublist (hgot.trans (chosenDeals_ids_sublist rows))
  refine ordered_locking ((hup db' hdb').sublist ?_) ?_
  · exact hsub.flatMap _
  · intro h hh r hr
    obtain ⟨x, hx, hrx⟩ := List.mem_flatMap.1 hr
    rw [List.append_nil, List.mem_reverse] at hh
    exact deal_le_balances (hb db' hdb' x (hsub.subset hx)) h hh r hrx

theorem ordered_withdrawals {db : Db} {rows : List ℕ} (hup : (withdrawalBalances db rows).Pairwise (· ≤ ·)) :
    (locking (withdrawalBalances db rows)).Ordered P [] := ordered_locking hup (by simp)

theorem withdrawalBalances_one (db : Db) (i : ℕ) : (withdrawalBalances db [i]).Pairwise (· ≤ ·) := by
  rw [withdrawalBalances, List.filterMap_cons]
  cases db.wallet_withdrawals.row i with
  | none => exact .nil
  | some w => exact List.pairwise_singleton ..

theorem ordered_deleteDealLocks {k : ℕ}
    (hnone : ∀ db, P db → ∀ j p, db.wallet_deposits.row j = some p → p.linked_deal_id ≠ some k) :
    (deleteDealLocks k).Ordered P [] := by
  refine ⟨.inr (by simp), fun db _ => ?_⟩
  beta_reduce
  cases hr : db.deals.row k with
  | none => trivial
  | some d =>
    have hrest : ∀ held, Prog.Ordered P (.read fun db =>
        locking ((db.wallet_deposits.ids fun p => p.linked_deal_id = some k).map .deposit)) held := by
      intro held db' hdb'
      have hids : (db'.wallet_deposits.ids fun p => p.linked_deal_id = some k) = [] := by
        rw [List.eq_nil_iff_forall_not_mem]
        intro j hj
        obtain ⟨p, hp, hl⟩ := Table.mem_ids.1 hj
        exact hnone db' hdb' j p hp (of_decide_eq_true hl)
      beta_reduce
      rw [hids]
      exact ordered_locking_nil
    refine Prog.ordered_lockAll ?_ ?_ (hrest _)
    · split
      · exact (buyerBalance_up d).imp fun h => h.eq_or_lt
      · exact .nil
    · intro h hh r hr
      rw [List.mem_singleton.1 hh]
      split at hr
      · exact (deal_le_balances (buyerBalance_balances d) _ (List.mem_map_of_mem (List.mem_singleton_self k)) r hr).eq_or_lt
      · cases hr

theorem inactivityBalance_balances (db : Db) (d : Deal) : Balances (inactivityBalance db d) := by
  unfold inactivityBalance
  split
  · exact buyerBalance_balances d
  · simp [Balances]
end

/-- Each operation takes its locks in order while it reads databases that meet its condition. -/
theorem MoneyOp.ordered (op : MoneyOp) : op.prog.Ordered op.Orderly [] := by
  cases op with
  | creditDeposit i => exact ordered_creditLocks i
  | cancelPendingTopup k u =>
    refine ordered_onDeal fun db d hdb hr hc => ?_
    obtain ⟨hu, hs⟩ := of_decide_eq_true hc
    have hnil : topupDeposit d = [] := by rw [topupDeposit, hdb d hr hu hs]; rfl
    rw [hnil]
    exact ⟨.nil, by simp⟩
  | sweepPendingTopup rows now =>
    have hnil : ∀ db, MoneyOp.Orderly (.sweepPendingTopup rows now) db →
        ∀ x ∈ chosenDeals db (topupOverdue now db) rows, topupDeposit x.2 = [] := by
      intro db hdb x hx
      obtain ⟨hi, hr, hp⟩ := mem_chosenDeals hx
      rw [topupDeposit, hdb x.1 hi x.2 hr hp]
      rfl
    refine ordered_dealSweep (fun db hdb => ?_) fun db hdb x hx => ?_
    · rw [List.flatMap_eq_nil_iff.2 (hnil db hdb)]
      exact .nil
    · rw [hnil db hdb x hx]
      simp [Balances]
  | sweepInactivity rows now =>
    exact ordered_dealSweep (fun db hdb => hdb) fun db _ x _ => inactivityBalance_balances db x.2
  | finishDeal k u => exact ordered_onDeal_balances bothBalances_up bothBalances_balances
  | declineDeal k u => exact ordered_onDeal_balances buyerBalance_up buyerBalance_balances
  | acceptCancel k u => exact ordered_onDeal_balances buyerBalance_up buyerBalance_balances
  | resolveArbitration k a winner =>
    refine ordered_onDeal_balances (fun d => ?_) fun d => ?_
    · split
      · exact buyerBalance_up d
      · exact bothBalances_up d
    · split
      · exact buyerBalance_balances d
      · exact bothBalances_balances d
  | forceRelease k => exact ordered_onDeal_balances bothBalances_up bothBalances_balances
  | forceRefund k => exact ordered_onDeal_balances buyerBalance_up buyerBalance_balances
  | splitDeal k => exact ordered_onDeal_balances bothBalances_up bothBalances_balances
  | deleteDeal k => exact ordered_deleteDealLocks fun db hdb => hdb
  | createWithdrawal u c => exact ⟨.inr (by simp), ordered_locking (List.pairwise_singleton ..) (by simp)⟩
  | decideApprove i => exact fun db _ => ordered_withdrawals (withdrawalBalances_one db i)
  | decideOther i => exact fun db _ => ordered_withdrawals (withdrawalBalances_one db i)
  | sweepStaleWithdrawals rows now => exact fun db hdb => ordered_withdrawals hdb

/-! ## Runs -/

/-- Sessions that run the operations. Nothing is assumed of the database between their statements. -/
abbrev LockSys := Transactions.Sys Db RowLock (Task Db RowLock MoneyOp)

def LockStep : Event MoneyOp → LockSys → LockSys → Prop :=
  Transactions.Step Task.code (fun op => ⟨op, op.prog⟩) fun _ _ => True

/-- Every lock is asked for in the documented order and no sessions wait for
each other in a circle, in every run in which each operation reads databases
that meet its condition. -/
theorem lock_order_no_deadlock {db : Db} {s : LockSys}
    (h : Reach LockStep (ReadsSound MoneyOp.Orderly) (.idle db) s) :
    s.InOrder Task.code ∧ ¬ s.Deadlocked Task.code :=
  ⟨inOrder MoneyOp.ordered h, not_deadlocked MoneyOp.ordered h⟩

/-- A webhook that has locked the deposit and waits for the deal, which a finishing buyer has locked. -/
theorem sampleWait_no_deadlock : ∃ s, Reach LockStep (ReadsSound MoneyOp.Orderly) (.idle sampleWaitingDb) s ∧
    s.WaitsFor Task.code 2 1 ∧ s.InOrder Task.code ∧ ¬ s.Deadlocked Task.code := by
  have h₀ : Reach LockStep (ReadsSound MoneyOp.Orderly) (.idle sampleWaitingDb) (.idle sampleWaitingDb) := .refl
  have h₁ := run_start h₀ (.finishDeal 1 1) trivial
  have h₂ := run_lock h₁ 1 rfl rfl (Sys.freeFor_of_check (by decide)) (by rintro x next hx hp; cases hx; cases hp)
  have h₃ := run_start h₂ (.creditDeposit 1) trivial
  have h₄ := run_lock h₃ 2 rfl rfl (Sys.freeFor_of_check (by decide)) (by rintro x next hx hp; cases hx; cases hp)
  have h₅ := run_read (p := ⟨.creditDeposit 1, creditTopupLocks sampleWaitingDeposit⟩) h₄ 2 rfl rfl
    (by simp only [Sys.idle, sampleWaitingDeposit_row]; rfl) (by rintro x next hx hp; cases hx; trivial)
  refine ⟨_, h₅, ⟨by decide, .deal 1, ⟨_, _, rfl, rfl⟩, ⟨_, rfl, by simp⟩⟩, lock_order_no_deadlock h₅⟩

/-- The buyer cancels the deal and has locked it while the webhook of its
payment has locked the deposit; now each waits for the other. -/
theorem cancel_meets_webhook :
    ¬ ∀ (db : Db) (s : LockSys), Reach LockStep Free (.idle db) s → ¬ s.Deadlocked Task.code := by
  intro hall
  have h₀ : Reach LockStep Free (.idle sampleWaitingDb) (.idle sampleWaitingDb) := .refl
  have h₁ := run_start h₀ (.cancelPendingTopup 1 1) trivial
  have h₂ := run_lock h₁ 1 rfl rfl (Sys.freeFor_of_check (by decide)) trivial
  have h₃ := run_start h₂ (.creditDeposit 1) trivial
  have h₄ := run_lock h₃ 2 rfl rfl (Sys.freeFor_of_check (by decide)) trivial
  have h₅ := run_read (p := ⟨.cancelPendingTopup 1 1, locking [.deposit 1]⟩) h₄ 1 rfl rfl
    (by simp only [Sys.idle, sampleWaitingDb_row]; rfl) trivial
  have h₆ := run_read (p := ⟨.creditDeposit 1, creditTopupLocks sampleWaitingDeposit⟩) h₅ 2 rfl rfl
    (by simp only [Sys.idle, sampleWaitingDeposit_row]; rfl) trivial
  refine hall _ _ h₆ ⟨1, .tail (b := 2) (.single ?_) ?_⟩
  · exact ⟨by decide, .deposit 1, ⟨_, _, rfl, rfl⟩, ⟨_, rfl, by simp⟩⟩
  · exact ⟨by decide, .deal 1, ⟨_, _, rfl, rfl⟩, ⟨_, rfl, by simp⟩⟩

end Garant
