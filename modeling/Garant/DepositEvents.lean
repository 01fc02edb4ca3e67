import Garant.Crediting
/-!
# The events of one deposit

Deliveries of the provider, polls, the expiry sweep and the admin's refund of
one deposit, in any order. `happened` says what an event can do to its row.
-/
open Decimal

namespace Garant

/-! ## Expiries -/

def Db.withDeposits (db : Db) (t : Table WalletDeposit) : Db := { db with wallet_deposits := t }

/-- Some pending rows expired, and nothing else. -/
structure Expires (t t' : Table WalletDeposit) : Prop where
  next : t'.next = t.next
  row : ∀ i, t'.row i = t.row i ∨ ∃ d, t.row i = some d ∧ d.status = .pending ∧ t'.row i = some { d with status := .expired }

section
variable {db : Db} {j : ℕ} {dep : WalletDeposit}

theorem Expires.refl (t : Table WalletDeposit) : Expires t t := ⟨rfl, fun _ => .inl rfl⟩

theorem Expires.set {t : Table WalletDeposit} (hj : t.row j = some dep) (hp : dep.status = .pending) :
    Expires t (t.set j { dep with status := .expired }) := by
  refine ⟨rfl, fun i => ?_⟩
  rw [Table.set_row hj]
  split
  · subst i
    exact .inr ⟨dep, hj, hp, rfl⟩
  · exact .inl rfl

/-- A pending row that has not expired yet may expire too. -/
theorem Expires.trans {t t' t'' : Table WalletDeposit} (h : Expires t t') (h' : Expires t' t'') : Expires t t'' := by
  refine ⟨h'.next.trans h.next, fun i => ?_⟩
  rcases h'.row i with hr' | ⟨d, hd, hp, hr'⟩
  · rw [hr']
    exact h.row i
  · rcases h.row i with hr | ⟨d₀, -, -, hr⟩
    · exact .inr ⟨d, hr.symm.trans hd, hp, hr'⟩
    · cases hr.symm.trans hd
      cases hp

theorem expireReported_expires (hj : db.wallet_deposits.row j = some dep) :
    ∃ t, Expires db.wallet_deposits t ∧ (expireReported db j dep).1 = db.withDeposits t := by
  unfold expireReported
  split
  · exact ⟨_, Expires.set hj ‹_›, rfl⟩
  · exact ⟨_, Expires.refl _, rfl⟩

theorem sweepExpiredDeposits_expires (db : Db) (picked : List ℕ) (now : Time) :
    ∃ t, Expires db.wallet_deposits t ∧ sweepExpiredDeposits db picked now = db.withDeposits t := by
  have key {f : Db → ℕ → Db}
      (hf : ∀ t i d, t.row i = some d → f (db.withDeposits t) i = db.withDeposits (t.set i { d with status := .expired }))
      (rows : List ℕ) (t : Table WalletDeposit) (ht : Expires db.wallet_deposits t)
      (hp : ∀ i ∈ rows, ∃ d, db.wallet_deposits.row i = some d ∧ d.status = .pending) :
      ∃ t', Expires db.wallet_deposits t' ∧ rows.foldl f (db.withDeposits t) = db.withDeposits t' := by
    induction rows generalizing t with
    | nil => exact ⟨t, ht, rfl⟩
    | cons i rows ih =>
      have hp' : ∀ l ∈ rows, ∃ d, db.wallet_deposits.row l = some d ∧ d.status = .pending :=
        fun l hl => hp l (List.mem_cons_of_mem _ hl)
      obtain ⟨d, hd, hpend⟩ := hp i List.mem_cons_self
      rw [List.foldl_cons]
      rcases ht.row i with hr | ⟨d₀, hd₀, -, hr⟩
      · have hi : t.row i = some d := hr.trans hd
        rw [hf t i d hi]
        exact ih _ (ht.trans (Expires.set hi hpend)) hp'
      · -- picked twice
        rw [hf t i _ hr]
        refine ih _ ⟨ht.next, fun l => ?_⟩ hp'
        rw [Table.set_row hr]
        split
        · subst l
          exact .inr ⟨d₀, hd₀, by cases hd.symm.trans hd₀; exact hpend, rfl⟩
        · exact ht.row l
  unfold sweepExpiredDeposits
  split
  · exact ⟨_, Expires.refl _, rfl⟩
  · refine key (fun t i d hd => ?_) _ _ (Expires.refl _) ?_
    · have hrow : (db.withDeposits t).wallet_deposits.row i = some d := hd
      simp only [hrow]
      rfl
    intro i hi
    obtain ⟨d, hd, hp⟩ := picked_rows i hi
    simp only [decide_eq_true_eq] at hp
    exact ⟨d, hd, hp.1⟩

end

/-! ## Events -/

inductive DepositEvent
  | invoicePaid (status : String) (amount : Reported) (reply : InvoiceReply) (now : Time)
  | invoiceExpired (status : String) (amount : Reported)
  | crystalpay (state : String) (amount : Reported) (reply : InvoiceReply) (now : Time)
  | poll (answer : PollReply) (reply : InvoiceReply) (now : Time)
  | sweep (picked : List ℕ) (now : Time)
  | refund

namespace DepositEvent

/-- Deliveries carry the deposit's invoice id and come from its provider. -/
def run (j : ℕ) (provider : WalletDepositProvider) (id : String) (db : Db) : DepositEvent → Result Db
  | .invoicePaid status amount reply now => do
    raiseIf (provider ≠ .cryptobot) .no_result
    let (db, _) ← handleInvoicePaid db ⟨some id, status, amount⟩ reply now
    pure db
  | .invoiceExpired status amount => do
    raiseIf (provider ≠ .cryptobot) .no_result
    let (db, _) ← handleInvoiceExpired db ⟨some id, status, amount⟩
    pure db
  | .crystalpay state amount reply now => do
    raiseIf (provider ≠ .crystalpay) .no_result
    let (db, _) ← handleCrystalpayInvoice db ⟨some id, state, amount⟩ reply now
    pure db
  | .poll answer reply now => pollDepositStatus db j answer reply now
  | .sweep picked now => pure (sweepExpiredDeposits db picked now)
  | .refund => refundDeposit db j

/-- Webhooks and polls. -/
def fromProvider : DepositEvent → Prop
  | .sweep _ _ | .refund => False
  | _ => True

/-- A valid paid delivery of CryptoBot. -/
def Redelivers (dep : WalletDeposit) : DepositEvent → Prop
  | .invoicePaid status amount _ _ => status = "paid" ∧ amountAccepted dep amount = .ok true
  | _ => False

/-- A provider event that moves funds, or turns the deposit paid. -/
def Credits (j : ℕ) (e : DepositEvent) (s t : Db) : Prop :=
  e.fromProvider ∧ (t.books ≠ s.books ∨
    ((s.deposit j).map (·.1) ≠ some .paid ∧ (t.deposit j).map (·.1) = some .paid))

end DepositEvent

/-- What an event does, by the row it finds. -/
inductive Happened (db : Db) (j : ℕ) (dep : WalletDeposit) (e : DepositEvent) : Db → Prop
  | credited {paid : Option Number} {reply : InvoiceReply} {now : Time} {db' : Db} (hu : dep.status ≠ .paid)
      (hr : dep.status = .refunded → e.Redelivers dep) (hc : creditDeposit db j paid reply now = .ok db') :
      Happened db j dep e db'
  | closed {t : Table WalletDeposit} (ht : t.row j = some dep ∨
      (dep.status = .pending ∧ t.row j = some { dep with status := .expired })) :
      Happened db j dep e { db with wallet_deposits := t }
  | refunded {db' : Db} (he : e = .refund) (hp : dep.status = .paid)
      (hj : db'.wallet_deposits.row j = some { dep with status := .refunded, paid_at := none }) : Happened db j dep e db'

section
variable {db db' : Db} {j : ℕ} {dep : WalletDeposit} {e : DepositEvent} {now : Time}

theorem Happened.idle (hj : db.wallet_deposits.row j = some dep) : Happened db j dep e db := .closed (.inl hj)

theorem expireDeposit_happened (hj : db.wallet_deposits.row j = some dep) (hp : dep.status = .pending) :
    Happened db j dep e (expireDeposit db j dep) := .closed (.inr ⟨hp, setDeposit_row hj⟩)

theorem sweepExpiredDeposits_row (hj : db.wallet_deposits.row j = some dep) (picked : List ℕ) (now : Time) :
    ∃ t, sweepExpiredDeposits db picked now = db.withDeposits t ∧ (t.row j = some dep ∨
      (dep.status = .pending ∧ t.row j = some { dep with status := .expired })) := by
  obtain ⟨t, ht, hrun⟩ := sweepExpiredDeposits_expires db picked now
  refine ⟨t, hrun, ?_⟩
  rcases ht.row j with hr | ⟨d, hd, hp, hr⟩
  · exact .inl (hr.trans hj)
  · cases hj.symm.trans hd
    exact .inr ⟨hp, hr⟩

/-! ## The events, one by one -/

theorem creditReported_happened {amount : Reported} {reply : InvoiceReply} {r : Handled}
    (hj : db.wallet_deposits.row j = some dep) (hu : dep.status ≠ .paid)
    (hr : amountAccepted dep amount = .ok true → dep.status = .refunded → e.Redelivers dep)
    (h : creditReported db j dep amount reply now = .ok (db', r)) : Happened db j dep e db' := by
  obtain ⟨accepted, ha, h⟩ := bind_ok.1 h
  cases accepted with
  | false =>
    rw [if_pos rfl] at h
    cases pure_ok.1 h
    exact .idle hj
  | true =>
    rw [if_neg (by decide)] at h
    obtain ⟨db₁, hc, h⟩ := bind_ok.1 h
    cases pure_ok.1 h
    exact .credited hu (hr ha) hc

theorem expireReported_happened (hj : db.wallet_deposits.row j = some dep) :
    Happened db j dep e (expireReported db j dep).1 := by
  unfold expireReported
  split
  · exact expireDeposit_happened hj ‹_›
  · exact .idle hj

theorem handleInvoicePaid_happened {status : String} {amount : Reported} {reply : InvoiceReply} {r : Handled}
    (hj : db.wallet_deposits.row j = some dep) (hprov : dep.provider = .cryptobot)
    (h : handleInvoicePaid db ⟨some dep.provider_invoice_id, status, amount⟩ reply now = .ok (db', r)) :
    Happened db j dep (.invoicePaid status amount reply now) db' := by
  unfold handleInvoicePaid at h
  by_cases hs : status = "paid"
  · rw [if_neg (by simpa using hs)] at h
    obtain ⟨o, ho, h⟩ := bind_ok.1 h
    rw [← hprov] at ho
    rw [findWalletDeposit_row hj ho] at h
    obtain ⟨dep', hj', h⟩ := bind_ok.1 h
    cases hj.symm.trans (orRaise_ok.1 hj')
    by_cases hpaid : dep.status = .paid
    · rw [if_pos hpaid] at h
      cases pure_ok.1 h
      exact .idle hj
    · rw [if_neg hpaid] at h
      exact creditReported_happened hj hpaid (fun ha _ => ⟨hs, ha⟩) h
  · rw [if_pos hs] at h
    cases pure_ok.1 h
    exact .idle hj

theorem handleInvoiceExpired_happened {status : String} {amount : Reported} {r : Handled}
    (hj : db.wallet_deposits.row j = some dep) (hprov : dep.provider = .cryptobot)
    (h : handleInvoiceExpired db ⟨some dep.provider_invoice_id, status, amount⟩ = .ok (db', r)) :
    Happened db j dep e db' := by
  obtain ⟨o, ho, h⟩ := bind_ok.1 h
  rw [← hprov] at ho
  rw [findWalletDeposit_row hj ho] at h
  obtain ⟨dep', hj', h⟩ := bind_ok.1 h
  cases hj.symm.trans (orRaise_ok.1 hj')
  obtain rfl : (expireReported db j dep).1 = db' := congrArg Prod.fst (pure_ok.1 h)
  exact expireReported_happened hj

theorem handleCrystalpayInvoice_happened {state : String} {amount : Reported} {reply : InvoiceReply} {r : Handled}
    (hj : db.wallet_deposits.row j = some dep) (hprov : dep.provider = .crystalpay)
    (h : handleCrystalpayInvoice db ⟨some dep.provider_invoice_id, state, amount⟩ reply now = .ok (db', r)) :
    Happened db j dep e db' := by
  obtain ⟨o, ho, h⟩ := bind_ok.1 h
  rw [← hprov] at ho
  rw [findWalletDeposit_row hj ho] at h
  obtain ⟨dep', hj', h⟩ := bind_ok.1 h
  cases hj.symm.trans (orRaise_ok.1 hj')
  split at h
  · split at h
    · cases pure_ok.1 h
      exact .idle hj
    rename_i hpaid
    split at h
    · cases pure_ok.1 h
      exact .idle hj
    rename_i hopen
    exact creditReported_happened hj hpaid (fun _ hs => absurd (.inr hs) hopen) h
  split at h
  · obtain rfl : (expireReported db j dep).1 = db' := congrArg Prod.fst (pure_ok.1 h)
    exact expireReported_happened hj
  · cases pure_ok.1 h
    exact .idle hj

theorem pollDepositStatus_happened {answer : PollReply} {reply : InvoiceReply} (hj : db.wallet_deposits.row j = some dep)
    (h : pollDepositStatus db j answer reply now = .ok db') : Happened db j dep e db' := by
  obtain ⟨dep', hj', h⟩ := bind_ok.1 h
  cases hj.symm.trans (orRaise_ok.1 hj')
  split at h
  · cases pure_ok.1 h
    exact .idle hj
  rename_i hnot
  have hpending : dep.status = .pending := by
    by_contra hp
    exact hnot (.inl hp)
  split at h
  · cases pure_ok.1 h
    exact .idle hj
  · cases pure_ok.1 h
    exact .idle hj
  split at h
  · obtain ⟨dep', hj', h⟩ := bind_ok.1 h
    cases hj.symm.trans (orRaise_ok.1 hj')
    rw [if_neg (by simp [hpending])] at h
    exact .credited (by simp [hpending]) (by simp [hpending]) h
  split at h
  · obtain ⟨dep', hj', h⟩ := bind_ok.1 h
    cases hj.symm.trans (orRaise_ok.1 hj')
    rw [if_neg (by simp [hpending])] at h
    cases pure_ok.1 h
    exact expireDeposit_happened hj hpending
  · cases pure_ok.1 h
    exact .idle hj

theorem happened (hj : db.wallet_deposits.row j = some dep)
    (h : e.run j dep.provider dep.provider_invoice_id db = .ok db') : Happened db j dep e db' := by
  cases e with
  | invoicePaid status amount reply now =>
    obtain ⟨_, hprov, h⟩ := bind_ok.1 h
    obtain ⟨⟨db₁, r⟩, h, hdb⟩ := bind_ok.1 h
    cases pure_ok.1 hdb
    exact handleInvoicePaid_happened hj (not_not.1 (raiseIf_ok.1 hprov)) h
  | invoiceExpired status amount =>
    obtain ⟨_, hprov, h⟩ := bind_ok.1 h
    obtain ⟨⟨db₁, r⟩, h, hdb⟩ := bind_ok.1 h
    cases pure_ok.1 hdb
    exact handleInvoiceExpired_happened hj (not_not.1 (raiseIf_ok.1 hprov)) h
  | crystalpay state amount reply now =>
    obtain ⟨_, hprov, h⟩ := bind_ok.1 h
    obtain ⟨⟨db₁, r⟩, h, hdb⟩ := bind_ok.1 h
    cases pure_ok.1 hdb
    exact handleCrystalpayInvoice_happened hj (not_not.1 (raiseIf_ok.1 hprov)) h
  | poll answer reply now => exact pollDepositStatus_happened hj h
  | sweep picked now =>
    obtain ⟨t, ht, hrow⟩ := sweepExpiredDeposits_row hj picked now
    have hdb : sweepExpiredDeposits db picked now = db' := pure_ok.1 h
    rw [← hdb, ht]
    exact .closed hrow
  | refund =>
    obtain ⟨dep', hj', h⟩ := bind_ok.1 h
    cases hj.symm.trans (orRaise_ok.1 hj')
    simp only [bind_ok, raiseIf_ok, orRaise_ok, pure_ok, not_not] at h
    obtain ⟨_, hpaid, _, -, bal, -, _, -, db₁, hw, rfl⟩ := h
    obtain ⟨new, -, -, rfl⟩ := writeBalance_ok hw
    have hj₁ : (db.setBalance dep.user_id dep.currency_id new).wallet_deposits.row j = some dep := hj
    exact .refunded rfl hpaid (setDeposit_row hj₁)

/-! ## Credits over a run -/

/-- One event. -/
def DepositStep (j : ℕ) (provider : WalletDepositProvider) (id : String) (e : DepositEvent) (s t : Db) : Prop :=
  e.run j provider id s = .ok t

/-- CryptoBot does not deliver a payment again once the deposit was refunded. -/
def NoRedelivery (j : ℕ) (e : DepositEvent) (s : Db) : Prop :=
  ∀ dep, s.wallet_deposits.row j = some dep → dep.status = .refunded → ¬e.Redelivers dep

/-- The row of `dep`, whatever its state. -/
def SameInvoice (db : Db) (j : ℕ) (dep : WalletDeposit) (P : WalletDepositStatus → Prop) : Prop :=
  ∃ row, db.wallet_deposits.row j = some row ∧ row.provider = dep.provider ∧
    row.provider_invoice_id = dep.provider_invoice_id ∧ P row.status

theorem SameInvoice.happened {s t : Db} {P : WalletDepositStatus → Prop} (h : SameInvoice s j dep P)
    (hstep : DepositStep j dep.provider dep.provider_invoice_id e s t) :
    ∃ row, s.wallet_deposits.row j = some row ∧ row.provider = dep.provider ∧
      row.provider_invoice_id = dep.provider_invoice_id ∧ P row.status ∧ Happened s j row e t := by
  obtain ⟨row, hrow, hprov, hid, hP⟩ := h
  refine ⟨row, hrow, hprov, hid, hP, ?_⟩
  rw [DepositStep, ← hprov, ← hid] at hstep
  exact Garant.happened hrow hstep

/-- An event leaves the invoice in place, and a settled deposit settled. -/
theorem SameInvoice.step {s t : Db} (hstep : DepositStep j dep.provider dep.provider_invoice_id e s t) :
    (SameInvoice s j dep (fun _ => True) → SameInvoice t j dep fun _ => True) ∧
      (SameInvoice s j dep (fun st => st = .paid ∨ st = .refunded) →
        SameInvoice t j dep fun st => st = .paid ∨ st = .refunded) := by
  constructor
  · intro h
    obtain ⟨row, hrow, hprov, hid, -, hh⟩ := h.happened hstep
    cases hh with
    | credited hu _ hc =>
      obtain ⟨_, _, _, -, -, _, hrow'⟩ := creditDeposit_outcome hrow hu hc
      exact ⟨_, hrow', hprov, hid, trivial⟩
    | closed ht =>
      rcases ht with ht | ⟨-, ht⟩
      · exact ⟨_, ht, hprov, hid, trivial⟩
      · exact ⟨_, ht, hprov, hid, trivial⟩
    | refunded _ _ hj => exact ⟨_, hj, hprov, hid, trivial⟩
  · intro h
    obtain ⟨row, hrow, hprov, hid, hst, hh⟩ := h.happened hstep
    cases hh with
    | credited hu _ hc =>
      obtain ⟨_, _, _, -, -, _, hrow'⟩ := creditDeposit_outcome hrow hu hc
      exact ⟨_, hrow', hprov, hid, .inl rfl⟩
    | closed ht =>
      rcases ht with ht | ⟨hp, -⟩
      · exact ⟨_, ht, hprov, hid, hst⟩
      · rw [hp] at hst
        rcases hst with hst | hst <;> cases hst
    | refunded _ _ hj => exact ⟨_, hj, hprov, hid, .inr rfl⟩

/-- A provider event finds a settled deposit settled, and leaves the books and the deposit alone. -/
theorem SameInvoice.settled_still {s t : Db} (h : SameInvoice s j dep fun st => st = .paid ∨ st = .refunded)
    (hstep : DepositStep j dep.provider dep.provider_invoice_id e s t) (hok : NoRedelivery j e s) (hp : e.fromProvider) :
    t.books = s.books ∧ t.deposit j = s.deposit j := by
  obtain ⟨row, hrow, -, -, hst, hh⟩ := h.happened hstep
  cases hh with
  | credited hu hr _ =>
    rcases hst with hst | hst
    · exact absurd hst hu
    · exact absurd (hr hst) (hok row hrow hst)
  | closed ht =>
    rcases ht with ht | ⟨hpend, -⟩
    · refine ⟨rfl, ?_⟩
      rw [Db.deposit, Db.deposit, ht, hrow]
    · rw [hpend] at hst
      rcases hst with hst | hst <;> cases hst
  | refunded he _ _ =>
    rw [he] at hp
    exact absurd hp id

/-- A crediting event leaves the deposit paid. -/
theorem DepositEvent.Credits.paid {s t : Db} (h : SameInvoice s j dep fun _ => True)
    (hstep : DepositStep j dep.provider dep.provider_invoice_id e s t) (hc : e.Credits j s t) :
    SameInvoice t j dep fun st => st = .paid ∨ st = .refunded := by
  obtain ⟨hp, hc⟩ := hc
  obtain ⟨row, hrow, hprov, hid, -, hh⟩ := h.happened hstep
  cases hh with
  | credited hu _ hcr =>
    obtain ⟨_, _, _, -, -, _, hrow'⟩ := creditDeposit_outcome hrow hu hcr
    exact ⟨_, hrow', hprov, hid, .inl rfl⟩
  | closed ht =>
    exfalso
    rcases hc with hc | ⟨hs, hc⟩
    · exact hc rfl
    · simp only [Db.deposit, hrow, Option.map_some, WalletDeposit.view, ne_eq, Option.some.injEq] at hs
      rcases ht with ht | ⟨-, ht⟩
      · simp only [Db.deposit, ht, Option.map_some, WalletDeposit.view, Option.some.injEq] at hc
        exact hs hc
      · simp only [Db.deposit, ht, Option.map_some, WalletDeposit.view, Option.some.injEq] at hc
        cases hc
  | refunded he _ _ =>
    rw [he] at hp
    exact absurd hp id

/-- In a run without a redelivery after a refund, once a provider event credited
the deposit, or it was refunded, no provider event credits it or changes it. -/
theorem credited_once {s t : Db} (hj : db.wallet_deposits.row j = some dep)
    (hrun : Reach (DepositStep j dep.provider dep.provider_invoice_id) (NoRedelivery j) db s)
    (hsettled : (s.deposit j).map (·.1) = some .refunded ∨ ∃ a b e₁,
      Reach (DepositStep j dep.provider dep.provider_invoice_id) (NoRedelivery j) db a ∧
        DepositStep j dep.provider dep.provider_invoice_id e₁ a b ∧ e₁.Credits j a b ∧
          Reach (DepositStep j dep.provider dep.provider_invoice_id) (NoRedelivery j) b s)
    (hstep : DepositStep j dep.provider dep.provider_invoice_id e s t) (hok : NoRedelivery j e s) (hp : e.fromProvider) :
    t.books = s.books ∧ t.deposit j = s.deposit j := by
  have hinvoice {x : Db} (hx : Reach (DepositStep j dep.provider dep.provider_invoice_id) (NoRedelivery j) db x) :
      SameInvoice x j dep fun _ => True := by
    refine hx.invariant (I := fun x => SameInvoice x j dep fun _ => True) ⟨dep, hj, rfl, rfl, trivial⟩ ?_
    intro a x y hi _ hs
    exact (SameInvoice.step hs).1 hi
  have hclosed : SameInvoice s j dep fun st => st = .paid ∨ st = .refunded := by
    rcases hsettled with href | ⟨a, b, e₁, ha, hab, hc, hb⟩
    · obtain ⟨row, hrow, hprov, hid, -⟩ := hinvoice hrun
      refine ⟨row, hrow, hprov, hid, .inr ?_⟩
      simpa [Db.deposit, hrow, WalletDeposit.view] using href
    · refine hb.invariant (I := fun x => SameInvoice x j dep fun st => st = .paid ∨ st = .refunded)
        (hc.paid (hinvoice ha) hab) ?_
      intro a x y hi _ hs
      exact (SameInvoice.step hs).2 hi
  exact hclosed.settled_still hstep hok hp

end

/-- CryptoBot delivers that deposit 1 was paid with 10. -/
def samplePaid : DepositEvent := .invoicePaid "paid" (.number (.finite 10)) (.error "") 0

/-- A redelivery right after the payment. -/
theorem sampleRedelivery_still : ∃ s t, samplePaid.run 1 .cryptobot "IV1" (sampleDepositDb .wallet) = .ok s ∧
    samplePaid.run 1 .cryptobot "IV1" s = .ok t ∧ t.books = s.books ∧ t.deposit 1 = s.deposit 1 := by
  have hruns : ∃ x : Db × Db, (do
      let s ← samplePaid.run 1 .cryptobot "IV1" (sampleDepositDb .wallet)
      let t ← samplePaid.run 1 .cryptobot "IV1" s
      pure (s, t) : Result (Db × Db)) = .ok x ∧ (x.1.deposit 1).map (·.1) = some .paid := exists_ok (by decide +kernel)
  obtain ⟨⟨s, t⟩, hruns, hpaid⟩ := hruns
  obtain ⟨s', hs, hruns⟩ := bind_ok.1 hruns
  obtain ⟨t', ht, hst⟩ := bind_ok.1 hruns
  obtain ⟨rfl, rfl⟩ : s' = s ∧ t' = t := Prod.mk.inj (pure_ok.1 hst)
  have hrow : (sampleDepositDb .wallet).wallet_deposits.row 1 = some (sampleDeposit .wallet) := rfl
  have hfirst : samplePaid.Credits 1 (sampleDepositDb .wallet) s' := ⟨trivial, .inr ⟨by decide +kernel, hpaid⟩⟩
  have hok : NoRedelivery 1 samplePaid s' := by
    intro dep hj href
    simp [Db.deposit, hj, WalletDeposit.view, href] at hpaid
  have hnone : NoRedelivery 1 samplePaid (sampleDepositDb .wallet) := by
    intro dep hj hst
    cases hrow.symm.trans hj
    cases hst
  refine ⟨s', t', hs, ht, ?_⟩
  exact credited_once hrow (.step .refl hnone hs) (.inr ⟨_, s', samplePaid, .refl, hs, hfirst, .refl⟩) ht hok trivial

/-- The payment is credited, refunded by an admin, delivered again, and credited again. -/
theorem refunded_deposit_credited_again : ∃ s t u, samplePaid.run 1 .cryptobot "IV1" (sampleDepositDb .wallet) = .ok s ∧
    DepositEvent.refund.run 1 .cryptobot "IV1" s = .ok t ∧ samplePaid.run 1 .cryptobot "IV1" t = .ok u ∧
      (s.balance 1 1).amount.val = 10 ∧ (t.balance 1 1).amount.val = 0 ∧ (t.deposit 1).map (·.1) = some .refunded ∧
        (u.balance 1 1).amount.val = 10 ∧ (u.deposit 1).map (·.1) = some .paid := by
  have hruns : ∃ x : Db × Db × Db, (do
      let s ← samplePaid.run 1 .cryptobot "IV1" (sampleDepositDb .wallet)
      let t ← DepositEvent.refund.run 1 .cryptobot "IV1" s
      let u ← samplePaid.run 1 .cryptobot "IV1" t
      pure (s, t, u) : Result (Db × Db × Db)) = .ok x ∧ (x.1.balance 1 1).amount.val = 10 ∧
        (x.2.1.balance 1 1).amount.val = 0 ∧ (x.2.1.deposit 1).map (·.1) = some .refunded ∧
          (x.2.2.balance 1 1).amount.val = 10 ∧ (x.2.2.deposit 1).map (·.1) = some .paid := exists_ok (by decide +kernel)
  obtain ⟨⟨s, t, u⟩, hruns, hprops⟩ := hruns
  obtain ⟨s', hs, hruns⟩ := bind_ok.1 hruns
  obtain ⟨t', ht, hruns⟩ := bind_ok.1 hruns
  obtain ⟨u', hu, hstu⟩ := bind_ok.1 hruns
  cases pure_ok.1 hstu
  exact ⟨_, _, _, hs, ht, hu, hprops⟩

end Garant
