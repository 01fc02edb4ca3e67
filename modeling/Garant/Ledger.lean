import Garant.Turns
/-!
# The ledger replays to the balances

For every user and currency the balance entries of the ledger form a chain
that starts at nothing and ends at the balance (`Replays`). Every effect but a
silent one keeps this. The entries of the trust balance are left out.
-/
open Decimal Relation Journal

namespace Garant

def WalletLedgerEntry.before (e : WalletLedgerEntry) : UserBalance := ⟨e.amount_before, e.locked_before⟩

def WalletLedgerEntry.after (e : WalletLedgerEntry) : UserBalance := ⟨e.amount_after, e.locked_after⟩

/-- The entries about the balance of `u` in `c`, in insertion order. -/
def balanceEntries (es : List WalletLedgerEntry) (u c : ℕ) : List WalletLedgerEntry :=
  es.filter fun e => e.user_id = u ∧ e.currency_id = c ∧ e.event_type ≠ trustEvent

/-- The entries lead from nothing to the balance. -/
def Replays (db : Db) : Prop :=
  ∀ u c, Chain WalletLedgerEntry.before WalletLedgerEntry.after UserBalance.zero
    (balanceEntries db.wallet_ledger_entries u c) (db.balance u c)

section
variable {F : Flaws} {db db₁ db' : Db} {u c : ℕ} {bal : UserBalance} {es fs : List WalletLedgerEntry}

theorem balanceEntries_append (es fs : List WalletLedgerEntry) (u c : ℕ) :
    balanceEntries (es ++ fs) u c = balanceEntries es u c ++ balanceEntries fs u c := List.filter_append ..

/-- Trust entries are no balance entries. -/
theorem balanceEntries_trust (h : ∀ e ∈ es, e.event_type = trustEvent) (u c : ℕ) : balanceEntries es u c = [] := by
  refine List.filter_eq_nil_iff.2 fun e he => ?_
  simp [h e he]

/-- What a recorded move adds to the entries of its own balance. -/
theorem Records.chain {old new : UserBalance} (h : Records es u c old new) :
    Chain WalletLedgerEntry.before WalletLedgerEntry.after old (balanceEntries es u c) new := by
  rcases h with ⟨rfl, rfl⟩ | ⟨e, rfl, rfl, rfl, hev, hb, ha⟩
  · rfl
  · rw [balanceEntries, List.filter_cons_of_pos (by simpa using hev)]
    exact ⟨hb, ha⟩

/-- It adds nothing to the others. -/
theorem Records.other {old new : UserBalance} (h : Records es u c old new) {v d : ℕ} (hv : ¬(v = u ∧ d = c)) :
    balanceEntries es v d = [] := by
  rcases h with ⟨rfl, -⟩ | ⟨e, rfl, rfl, rfl, -, -, -⟩
  · rfl
  · refine List.filter_eq_nil_iff.2 fun e' he => ?_
    rw [List.mem_singleton.1 he]
    simp only [decide_eq_true_eq, not_and]
    rintro rfl rfl
    exact absurd ⟨rfl, rfl⟩ hv

theorem Moved.replays {P : Prop} (h : Moved P db db' u c bal) (hP : ¬P) (hr : Replays db) : Replays db' := by
  obtain ⟨es, hrec, hled⟩ := h.ledger.resolve_left hP
  intro v d
  rw [hled, balanceEntries_append, h.balance]
  split
  · rename_i hv
    obtain ⟨rfl, rfl⟩ := hv
    exact chain_append.2 ⟨_, hr v d, hrec.chain⟩
  · rename_i hv
    rw [hrec.other hv, List.append_nil]
    exact hr v d

theorem SameMoney.replays (h : SameMoney db db') (hr : Replays db) : Replays db' := by
  obtain ⟨es, hled, htrust⟩ := h.ledger
  intro v d
  rw [hled, balanceEntries_append, balanceEntries_trust htrust, List.append_nil, h.balance]
  exact hr v d

theorem Payout.replays {d : Deal} {amt : ℚ} {flow : Flow} (h : Payout db d amt flow db') (hr : Replays db) :
    Replays db' := by
  cases h with
  | refund hev h =>
    obtain ⟨_, hm, -, -⟩ := unlockAndCredit_ok hev h
    exact hm.replays id hr
  | release hev₁ hev₂ h₁ h₂ =>
    obtain ⟨_, hm₁, -, -⟩ := dropLocked_ok hev₁ h₁
    obtain ⟨_, hm₂, -, -⟩ := creditAmount_ok hev₂ h₂
    exact hm₂.replays id (hm₁.replays id hr)
  | split hev₁ hev₂ h₁ h₂ =>
    obtain ⟨_, hm₁, -, -⟩ := unlockAndCredit_ok hev₁ h₁
    obtain ⟨_, hm₂, -, -⟩ := creditAmount_ok hev₂ h₂
    exact hm₂.replays id (hm₁.replays id hr)

theorem Replays.of_eq (h : Replays db) (hb : db'.user_balances = db.user_balances)
    (hl : db'.wallet_ledger_entries = db.wallet_ledger_entries) : Replays db' := by
  intro v d
  rw [hl, Db.balance, hb]
  exact h v d

theorem Effect.replays (hF : ¬F.silent) (h : Effect F db db') (hr : Replays db) : Replays db' := by
  cases h with
  | idle h => exact h.replays hr
  | credit h => exact h.replays hF hr
  | opened h h' => exact h'.replays (h.replays id hr)
  | waiting h => exact h.replays hr
  | relabel h => exact h.replays hr
  | activated h h' => exact h'.replays (h.replays id hr)
  | settled h =>
    obtain ⟨amt, db₁, -, hp, hs⟩ := h.paid
    exact hs.replays (hp.replays hr)
  | removed h => exact h.replays hr
  | removedActive h h' => exact h'.replays (h.replays hF hr)
  | requested h hb hl => exact (h.replays id hr).of_eq hb hl
  | annotated _ h =>
    subst h
    exact hr.of_eq rfl rfl
  | paidOut h h' =>
    subst h'
    exact (h.replays hF hr).of_eq rfl rfl

theorem Effects.replays (hF : ¬F.silent) (h : Effects F db db') (hr : Replays db) : Replays db' := by
  induction h with
  | refl => exact hr
  | tail _ h ih => exact h.replays hF ih

end

/-! ## Runs -/

/-- No balances, no ledger, and no withdrawal for a negative amount. -/
structure EmptyWallets (db : Db) : Prop where
  balances : ∀ u c, db.balance u c = UserBalance.zero
  ledger : db.wallet_ledger_entries = []
  amounts : AmountsOk db

theorem EmptyWallets.replays {db : Db} (h : EmptyWallets db) : Replays db := by
  intro u c
  rw [h.ledger, h.balances]
  rfl

/-- In every run whose steps all record what they move, the entries chain up
from nothing to the balance, and the last of them is the balance. -/
theorem ledger_replays {db : Db} {t : Sys} (h0 : EmptyWallets db)
    (h : Reach Step (fun a s => ¬(a.flaws s).silent) (Sys.start db) t) (u c : ℕ) :
    Chain WalletLedgerEntry.before WalletLedgerEntry.after UserBalance.zero
        (balanceEntries t.db.wallet_ledger_entries u c) (t.db.balance u c) ∧
      t.db.balance u c =
        ((balanceEntries t.db.wallet_ledger_entries u c).getLast?.map WalletLedgerEntry.after).getD UserBalance.zero := by
  have hinv : SessionsOk t ∧ Replays t.db := by
    refine h.invariant (I := fun s => SessionsOk s ∧ Replays s.db) ⟨start_sessionsOk h0.amounts, h0.replays⟩ ?_
    rintro a s t ⟨hs, hr⟩ hF hstep
    exact ⟨exec_sessionsOk hs hstep, (exec_effects hs hstep).replays hF hr⟩
  exact ⟨hinv.2 u c, (hinv.2 u c).end_eq⟩

theorem sample_empty (decimals : ℕ) : EmptyWallets (sampleDb decimals ⟨0, by decide⟩) where
  balances u c := by
    simp only [Db.balance, sampleDb]
    split <;> rfl
  ledger := rfl
  amounts _ _ hw := by cases hw

/-- An invoice for 10, paid through the webhook. -/
def samplePayment : List Action :=
  [.op (.createDepositInvoice 1 "USDT" 10 .wallet "cryptobot" true (.invoice "IV1" "https://pay") 0),
    .op (.handleInvoicePaid ⟨some "IV1", "paid", .number (.finite 10)⟩ (.error "") 0),
    .op (.createDeal 1 2 "USDT" (some 10) "cryptobot" 0)]

theorem samplePayment_replays :
    ∃ t, Reach Step (fun a s => ¬(a.flaws s).silent) (Sys.start (sampleDb 2 ⟨0, by decide⟩)) t ∧
      (balanceEntries t.db.wallet_ledger_entries 1 1).length = 2 ∧
      Chain WalletLedgerEntry.before WalletLedgerEntry.after UserBalance.zero
        (balanceEntries t.db.wallet_ledger_entries 1 1) (t.db.balance 1 1) := by
  have hrun : ∃ t, Reach Step (fun a s => ¬(a.flaws s).silent) (Sys.start (sampleDb 2 ⟨0, by decide⟩)) t ∧
      (balanceEntries t.db.wallet_ledger_entries 1 1).length = 2 := by
    refine Reach.of_check Sys.exec samplePayment (fun _ => True)
      (by decide +kernel) trivial (fun _ _ _ _ _ => trivial) ?_
    intro a ha s _
    simp only [samplePayment, List.mem_cons, List.not_mem_nil, or_false] at ha
    rcases ha with rfl | rfl | rfl <;> exact id
  obtain ⟨t, hreach, hlen⟩ := hrun
  exact ⟨t, hreach, hlen, (ledger_replays (sample_empty 2) hreach 1 1).1⟩

/-- The same invoice, marked paid by an admin. -/
def sampleMarkPaid : List Action :=
  [.op (.createDepositInvoice 1 "USDT" 10 .wallet "cryptobot" true (.invoice "IV1" "https://pay") 0),
    .op (.markPaid 1 0)]

/-- The balance is then 10, and no entry says why. -/
theorem markPaid_not_recorded :
    EmptyWallets (sampleDb 2 ⟨0, by decide⟩) ∧ ∃ t, Reach Step Free (Sys.start (sampleDb 2 ⟨0, by decide⟩)) t ∧
      (balanceEntries t.db.wallet_ledger_entries 1 1).length = 0 ∧ (t.db.balance 1 1).amount.val = 10 := by
  refine ⟨sample_empty 2, Reach.free_of_check Sys.exec sampleMarkPaid ?_⟩
  decide +kernel

end Garant
