import Garant.Interests
import Garant.Crediting
/-!
# Changing a currency's decimals

`upsert_currency` may change the decimals of a currency that open deals use.
Money is locked with the decimals of that moment and released with those of
another: `precision_kept` says exactly when both are the same amount.
-/
open Decimal

namespace Garant

/-! ## Editing a currency -/

/-- `AdminCurrencyUpsertIn`, with the fields a currency row keeps here. -/
structure CurrencyUpsert where
  code : String
  decimals : Option ℕ
  min_deposit : Option Money
  min_withdraw : Option Money
  is_active : Option Bool
  address_regex : Option String

/-- `Decimal("1")`, the column default of the two minima. -/
def moneyOne : Money := ⟨100000000, by decide⟩

/-- `upsert_currency`: the fields given replace those of the row with the code, or a new row is made. -/
def upsertCurrency (db : Db) (body : CurrencyUpsert) : Db :=
  match db.currencies.ids fun c => c.code == body.code with
  | [] =>
    { db with
      currencies := db.currencies.insert
        { code := body.code, decimals := body.decimals.getD 2, min_deposit := body.min_deposit.getD moneyOne,
          min_withdraw := body.min_withdraw.getD moneyOne, is_active := body.is_active.getD true,
          address_regex := body.address_regex.getD "" } }
  | i :: _ => match db.currencies.row i with
    | none => db
    | some existing =>
      { db with
        currencies := db.currencies.set i
          { existing with
            decimals := body.decimals.getD existing.decimals, min_deposit := body.min_deposit.getD existing.min_deposit,
            min_withdraw := body.min_withdraw.getD existing.min_withdraw,
            is_active := body.is_active.getD existing.is_active,
            address_regex := body.address_regex.getD existing.address_regex } }

/-! ## What is locked for a deal -/

/-- An operation, an edit of a currency, or any transaction that leaves deals and currencies alone. -/
inductive VaultAct
  | op (op : Op)
  | currency (body : CurrencyUpsert)
  | elsewhere (after : Db)

def VaultAct.run (db : Db) : VaultAct → Result Db
  | .op o => o.run db
  | .currency body => pure (upsertCurrency db body)
  | .elsewhere after => pure { after with deals := db.deals, currencies := db.currencies }

/-- What was added to the buyer's locked funds when the deal came to wait for
the seller, and the decimals its currency had then. -/
structure Lock where
  amount : ℚ
  decimals : ℕ
deriving DecidableEq

structure Vault where
  db : Db
  lock : ℕ → Option Lock

def Db.locked (db : Db) (d : Deal) : ℚ := (db.balance d.buyer_id d.currency_id).locked.val

namespace Vault

def start (db : Db) : Vault := ⟨db, fun _ => none⟩

def observe (s : Vault) (db : Db) : Vault where
  db := db
  lock k := match db.deals.row k with
    | none => none
    | some d =>
      if d.status = .pending_confirmation ∧ s.db.status k ≠ some .pending_confirmation then
        (db.currencies.row d.currency_id).map fun cur => ⟨db.locked d - s.db.locked d, cur.decimals⟩
      else s.lock k

def exec (s : Vault) (a : VaultAct) : Result Vault := do
  let db ← a.run s.db
  pure (s.observe db)

/-- A deal is created for an amount that is locked with the digits it is stored with. -/
def Ok (a : VaultAct) (s : Vault) : Prop :=
  match a with
  | .op (.createDeal b _ code amount _ _) => FineAmount s.db b code amount
  | .op (.createDealWithTopup b _ code amount _ _ _) => FineAmount s.db b code amount
  | _ => True

/-- The amount locked for a deal is its amount rounded to the decimals of that time. -/
structure Inv (s : Vault) : Prop where
  nonneg : ∀ k d, s.db.deals.row k = some d → 0 ≤ d.amount.val
  currency : ∀ k d, s.db.deals.row k = some d → (s.db.currencies.row d.currency_id).isSome = true
  lock : ∀ k d l, s.db.deals.row k = some d → s.lock k = some l → l.amount = roundTo l.decimals d.amount.val
  absent : ∀ k, s.db.deals.row k = none → s.lock k = none

end Vault

def VaultStep (a : VaultAct) (s t : Vault) : Prop := s.exec a = .ok t

section
variable {s t : Vault} {a : VaultAct} {db db₁ db' : Db} {op : Op} {k : ℕ} {d d' : Deal} {cur : Currency} {now : Time}
  {q : ℚ} {flow : Flow}

theorem vaultStep_iff : VaultStep a s t ↔ ∃ db, a.run s.db = .ok db ∧ t = s.observe db := by
  simp only [VaultStep, Vault.exec, bind_ok, pure_ok]
  constructor
  · rintro ⟨db, hrun, rfl⟩
    exact ⟨db, hrun, rfl⟩
  · rintro ⟨db, hrun, rfl⟩
    exact ⟨db, hrun, rfl⟩

/-! ## Rounding a stored amount -/

theorem quantised_roundTo (hc : db.currencies.row d.currency_id = some cur) (h : Quantised db d q) :
    q = roundTo cur.decimals d.amount.val := by
  obtain ⟨c, hc', hq⟩ := h
  cases hc.symm.trans hc'
  exact quantize_roundTo (quantizeMoney_ok.1 hq)

/-- What comes out of locked funds: no more than is there. -/
theorem released_eq {x v : Money} (hq : IsGrid 8 q) (h : store (max 0 (minus x.val q)) = .ok v) :
    x.val - v.val = min x.val q := by
  rcases le_or_gt q x.val with hle | hlt
  · rw [store_unlock x.isGrid hq hle h, min_eq_right hle]
    ring
  · have hneg : minus x.val q ≤ 0 := by
      rw [minus, Decimal.sub, ← neg_sub, ctx_neg]
      exact neg_nonpos.2 (ctx_nonneg _ (sub_nonneg.2 hlt.le))
    rw [max_eq_left hneg] at h
    have hv : v.val = 0 := store_grid ⟨0, by simp⟩ h
    rw [hv, sub_zero, min_eq_left hlt.le]

/-! ## Locking -/

/-- A new deal has a currency and an amount of at least zero; if it waits for the
seller at once, its amount was locked. -/
structure Entered (db db' : Db) (d : Deal) : Prop where
  nonneg : 0 ≤ d.amount.val
  currency : ∃ cur, db.currencies.row d.currency_id = some cur ∧
    (d.status = .pending_confirmation → db'.locked d - db.locked d = roundTo cur.decimals d.amount.val)

theorem createDeal_entered {b e : ℕ} {code provider : String} {amount : Option ℚ} (hf : FineAmount db b code amount)
    (h : createDeal db b e code amount provider now = .ok db') : ∃ d, db'.deals = db.deals.insert d ∧ Entered db db' d := by
  simp only [createDeal, bind_ok, pure_ok] at h
  obtain ⟨⟨c, cur, amt, com⟩, ht, db₁, hdeb, a, ha, com', -, rfl⟩ := h
  obtain ⟨-, hc, hpos, hg, -, hfine⟩ := dealTerms_ok ht
  obtain ⟨bal, hm, -, -, hl⟩ := debit_ok hdeb
  refine ⟨newDeal b e c a com' .pending_confirmation provider true now, by rw [← hm.deals]; rfl,
    store_nonneg hpos.le ha, cur, hc, ?_⟩
  intro _
  have hnew : (insertDeal db₁ (newDeal b e c a com' .pending_confirmation provider true now)).balance b c = bal := by
    rw [show (insertDeal db₁ _).balance b c = db₁.balance b c from rfl, hm.balance, if_pos ⟨rfl, rfl⟩]
  have hbacks := locked_backs (hfine hf) ha hl
  show ((insertDeal db₁ _).balance b c).locked.val - (db.balance b c).locked.val = roundTo cur.decimals a.val
  rw [hnew, hbacks, roundTo_of_grid (store_keeps_grid hg ha)]
  ring

theorem createDealWithTopup_entered {b e : ℕ} {code provider : String} {amount : Option ℚ} {reply : InvoiceReply}
    (hf : FineAmount db b code amount) (h : createDealWithTopup db b e code amount provider reply now = .ok db') :
    ∃ d, db'.deals = db.deals.insert d ∧ Entered db db' d := by
  simp only [createDealWithTopup, bind_ok] at h
  obtain ⟨⟨c, cur, amt, com⟩, ht, needed, -, gap, -, total, -, a, ha, com', -, h⟩ := h
  obtain ⟨-, hc, hpos, hg, -, hfine⟩ := dealTerms_ok ht
  have hld : (lockUserBalance db b c).deals = db.deals := by
    obtain ⟨f, hf⟩ := lockUserBalance_eq db b c
    rw [hf]
  split at h
  · -- paid from the balance
    obtain ⟨bal, -, hl, hm⟩ := changeBalance_ok (dealRef_ne (by decide) _) h
    refine ⟨newDeal b e c a com' .pending_confirmation provider true now, ?_, store_nonneg hpos.le ha, cur, hc, ?_⟩
    · rw [hm.deals, insertDeal, hld]
    intro _
    rw [balance_lockUserBalance] at hl
    have hbacks := locked_backs (hfine hf) ha hl
    show (db'.balance b c).locked.val - (db.balance b c).locked.val = roundTo cur.decimals a.val
    rw [hm.balance, if_pos ⟨rfl, rfl⟩, hbacks, roundTo_of_grid (store_keeps_grid hg ha)]
    ring
  · -- waiting for the invoice
    simp only [bind_ok, raiseIf_ok, pure_ok] at h
    obtain ⟨_, -, ⟨j, db₂⟩, hi, rfl⟩ := h
    obtain ⟨-, -, hd⟩ := createDepositInvoice_idle hi
    rcases linkDeposit_deals db₂ (lockUserBalance db b c).deals.next j with ⟨d, hr, hlink⟩ | hlink
    · have hrow : d = newDeal b e c a com' .pending_topup provider false now := by
        rw [hd, hld] at hr
        simp only [insertDeal, Table.insert_row, hld, if_true] at hr
        exact (Option.some.inj hr).symm
      subst hrow
      refine ⟨{ newDeal b e c a com' .pending_topup provider false now with topup_deposit_id := some j }, ?_,
        store_nonneg hpos.le ha, cur, hc, by rintro ⟨⟩⟩
      rw [hlink, hd, insertDeal, hld]
      exact Table.set_insert
    · refine ⟨newDeal b e c a com' .pending_topup provider false now, ?_, store_nonneg hpos.le ha, cur, hc, by rintro ⟨⟩⟩
      rw [hlink, hd, insertDeal, hld]

theorem status_eq_books (db : Db) (k : ℕ) : db.status k = (db.books.deals k).map (·.1) := by
  simp only [Db.status, Db.books, Option.map_map]
  rfl

/-- A payment that gives a deal another status activates it, and locks its amount. -/
theorem topupOutcome_activates {bal bal' : UserBalance} {paid : ℚ} {st : DealStatus} {cp : Bool}
    (h : topupOutcome bal d cur paid = .ok (bal', st, cp)) (hst : st ≠ d.status) :
    ∃ amt, quantizeMoney d.amount.val cur.decimals = .ok amt ∧ store (plus bal.locked.val amt) = .ok bal'.locked := by
  simp only [topupOutcome, bind_ok] at h
  obtain ⟨⟨amt, due⟩, hdue, h⟩ := h
  split at h
  · obtain ⟨x, -, h⟩ := bind_ok.1 h
    cases h
    exact absurd rfl hst
  · obtain ⟨credit, -, h⟩ := bind_ok.1 h
    split at h
    · obtain ⟨x, -, h⟩ := bind_ok.1 h
      cases h
      exact absurd rfl hst
    · obtain ⟨x, -, h⟩ := bind_ok.1 h
      obtain ⟨l, hl, h⟩ := bind_ok.1 h
      cases h
      exact ⟨amt, topupDue_amt hdue, hl⟩

theorem completeDealTopupPayment_locks {j : ℕ} {paid : Option ℚ} {reply : InvoiceReply}
    (hr : db.deals.row k = some d) (hne : db'.status k ≠ db.status k)
    (h : completeDealTopupPayment db j paid reply now = .ok db') :
    ∃ cur, db.currencies.row d.currency_id = some cur ∧
      db'.locked d - db.locked d = roundTo cur.decimals d.amount.val := by
  have hrow := h
  simp only [completeDealTopupPayment, bind_ok, orRaise_ok] at hrow
  obtain ⟨dep, hj, hrow⟩ := hrow
  by_cases hpaid : dep.status = .paid
  · rw [if_pos hpaid, pure_ok] at hrow
    rw [hrow] at hne
    exact absurd rfl hne
  clear hrow
  obtain ⟨b, rep, hb, rfl, -⟩ := completeDealTopupPayment_outcome hj hpaid h
  rw [status_eq_books, status_eq_books] at hne
  unfold topupBooks at hb
  split at hb
  · obtain ⟨_, -, hb⟩ := bind_ok.1 hb
    have hsame := congrArg Prod.fst (pure_ok.1 hb)
    simp only at hsame
    rw [← hsame] at hne
    exact absurd rfl hne
  · rename_i i e hlink
    obtain ⟨hl, hie⟩ : dep.linked_deal_id = some i ∧ db.deals.row i = some e := by
      obtain ⟨i', hi', he'⟩ := Option.bind_eq_some_iff.1 hlink
      obtain ⟨e', he', heq⟩ := Option.map_eq_some_iff.1 he'
      cases heq
      exact ⟨hi', he'⟩
    simp only [bind_ok, orRaise_ok] at hb
    obtain ⟨cur, hc, p, -, rep', -, hb⟩ := hb
    split at hb
    · simp only [bind_ok, pure_ok, Prod.mk.injEq] at hb
      obtain ⟨⟨bal, st, cp⟩, hout, hb, -⟩ := hb
      rw [← hb] at hne
      simp only [Books.setDeal, Books.setBalance] at hne
      have hki : k = i := by
        by_contra hki
        rw [if_neg hki] at hne
        exact hne rfl
      subst hki
      cases hr.symm.trans hie
      rw [if_pos rfl] at hne
      have hst : st ≠ d.status := by
        rintro rfl
        simp [Db.books, hr] at hne
      obtain ⟨amt, hq, hlocked⟩ := topupOutcome_activates hout hst
      have hround : amt = roundTo cur.decimals d.amount.val := quantize_roundTo (quantizeMoney_ok.1 hq)
      have hgrid : IsGrid 8 amt := by
        rw [hround]
        exact roundTo_money_grid _ _
      have hbal : db'.balance d.buyer_id d.currency_id = bal := by
        have hat := congrArg (fun b => Books.balances b d.buyer_id d.currency_id) hb
        simp only [Books.setDeal, Books.setBalance, if_true, and_self] at hat
        exact hat.symm
      refine ⟨cur, hc, ?_⟩
      rw [Db.locked, Db.locked, hbal, store_plus (Numeric.isGrid _) hgrid hlocked, hround]
      ring
    · simp only [bind_ok, pure_ok, Prod.mk.injEq] at hb
      obtain ⟨x, -, hb, -⟩ := hb
      rw [← hb] at hne
      exact absurd rfl hne

/-! ## The invariant -/

theorem observe_lock {l : Lock} (hd : db.deals.row k = some d) (hl : (s.observe db).lock k = some l) :
    (∃ cur, d.status = .pending_confirmation ∧ s.db.status k ≠ some .pending_confirmation ∧
      db.currencies.row d.currency_id = some cur ∧ l = ⟨db.locked d - s.db.locked d, cur.decimals⟩) ∨
      s.lock k = some l := by
  simp only [Vault.observe, hd] at hl
  split at hl
  · rename_i hst
    obtain ⟨cur, hcur, rfl⟩ := Option.map_eq_some_iff.1 hl
    exact .inl ⟨cur, hst.1, hst.2, hcur, rfl⟩
  · exact .inr hl

theorem observe_absent (hn : db.deals.row k = none) : (s.observe db).lock k = none := by
  simp only [Vault.observe, hn]

theorem run_currencies (h : op.run db = .ok db') : db'.currencies = db.currencies := (effects_of h).currencies

/-- A deal that comes to wait for the seller through an operation has its amount locked. -/
theorem locks_of (hok : Vault.Ok (.op op) s) (hinv : s.Inv) (h : op.run s.db = .ok db')
    (hd' : db'.deals.row k = some d') : 0 ≤ d'.amount.val ∧ (s.db.currencies.row d'.currency_id).isSome = true ∧
      ∀ cur, s.db.currencies.row d'.currency_id = some cur → d'.status = .pending_confirmation →
        s.db.status k ≠ some .pending_confirmation → db'.locked d' - s.db.locked d' = roundTo cur.decimals d'.amount.val := by
  rcases entered_of h hd' with ⟨d, hd, hstep, -⟩ | ⟨hn, -, hcreates, -⟩
  · have hold : s.db.status k = some d.status := status_of_row hd
    obtain ⟨hb, -, hc, ha⟩ := hstep.terms
    refine ⟨by rw [ha]; exact hinv.nonneg k d hd, by rw [hc]; exact hinv.currency k d hd, ?_⟩
    intro cur hcur hst hne
    have hmoved : db'.status k ≠ s.db.status k := by
      rw [status_of_row hd', hst]
      exact hne.symm
    cases hstep with
    | kept hs => exact absurd (by rw [status_of_row hd', hs, hold]) hmoved
    | moved hg =>
      have hpays : op.PaysFor s.db k := by
        generalize d'.status = st at hg hst
        cases hg with
        | pay hp => exact hp
        | resolveArbitration | sweepInactivity | splitDeal => split at hst <;> cases hst
        | _ => cases hst
      obtain ⟨i, dep, hp, -⟩ := hpays
      rcases topupPaid_of hp h with ⟨hdeals, -⟩ | ⟨j, paid, reply, now, -, hpaid⟩
      · rw [Db.status, Db.status, hdeals] at hmoved
        exact absurd rfl hmoved
      · obtain ⟨cur', hcur', hlocks⟩ := completeDealTopupPayment_locks hd hmoved hpaid
        rw [hc] at hcur
        cases hcur.symm.trans hcur'
        rw [Db.locked, Db.locked] at hlocks ⊢
        rw [hb, hc, ha, hlocks]
  · -- the new row
    have hentered : ∃ d, db'.deals = s.db.deals.insert d ∧ Entered s.db db' d := by
      cases op with
      | createDeal b e code amount provider now => exact createDeal_entered hok h
      | createDealWithTopup b e code amount provider reply now => exact createDealWithTopup_entered hok h
      | _ => exact absurd hcreates id
    obtain ⟨d, hdeals, hnn, cur, hcur, hlocks⟩ := hentered
    have hdd : d = d' := by
      rw [hdeals, Table.insert_row] at hd'
      split at hd'
      · exact Option.some.inj hd'
      · rw [hn] at hd'
        cases hd'
    subst hdd
    refine ⟨hnn, by rw [hcur]; rfl, ?_⟩
    intro cur' hcur' hst _
    cases hcur.symm.trans hcur'
    exact hlocks hst

theorem upsertCurrency_deals (db : Db) (body : CurrencyUpsert) : (upsertCurrency db body).deals = db.deals := by
  unfold upsertCurrency
  split
  · rfl
  · split <;> rfl

/-- An edit removes no currency. -/
theorem upsertCurrency_isSome (db : Db) (body : CurrencyUpsert) {c : ℕ} (h : (db.currencies.row c).isSome = true) :
    ((upsertCurrency db body).currencies.row c).isSome = true := by
  unfold upsertCurrency
  split
  · rw [Table.insert_row]
    split
    · rfl
    · exact h
  · split
    · exact h
    · rename_i existing he
      show ((db.currencies.set _ _).row c).isSome = true
      rw [Table.set_row he]
      split
      · rfl
      · exact h

/-- What leaves the deals alone locks nothing for one of them. -/
theorem Vault.Inv.still (hs : s.Inv) (hd : db.deals = s.db.deals)
    (hc : ∀ c, (s.db.currencies.row c).isSome = true → (db.currencies.row c).isSome = true) : (s.observe db).Inv where
  nonneg := by
    intro k d hr
    have hr : s.db.deals.row k = some d := by rw [← hd]; exact hr
    exact hs.nonneg k d hr
  currency := by
    intro k d hr
    have hr : s.db.deals.row k = some d := by rw [← hd]; exact hr
    exact hc _ (hs.currency k d hr)
  lock := by
    intro k d l hr hl
    have hr' : s.db.deals.row k = some d := by rw [← hd]; exact hr
    rcases observe_lock hr hl with ⟨cur, hst, hne, -⟩ | hl
    · rw [status_of_row hr', hst] at hne
      exact absurd rfl hne
    · exact hs.lock k d l hr' hl
  absent k hn := observe_absent hn

theorem Vault.Inv.step (hs : s.Inv) (hok : Vault.Ok a s) (h : VaultStep a s t) : t.Inv := by
  obtain ⟨db, hrun, rfl⟩ := vaultStep_iff.1 h
  cases a with
  | op op =>
    have hcur := run_currencies hrun
    refine ⟨?_, ?_, ?_, fun k hn => observe_absent hn⟩
    · intro k d hd
      exact (locks_of hok hs hrun hd).1
    · intro k d hd
      rw [show (s.observe db).db.currencies = s.db.currencies from hcur]
      exact (locks_of hok hs hrun hd).2.1
    · intro k d l hd hl
      have hd : db.deals.row k = some d := hd
      rcases observe_lock hd hl with ⟨cur, hst, hne, hc, rfl⟩ | hl
      · rw [hcur] at hc
        exact (locks_of hok hs hrun hd).2.2 cur hc hst hne
      · rcases entered_of hrun hd with ⟨d₀, hd₀, hstep, -⟩ | ⟨hn, -⟩
        · obtain ⟨-, -, -, ha⟩ := hstep.terms
          rw [ha]
          exact hs.lock k d₀ l hd₀ hl
        · rw [hs.absent k hn] at hl
          cases hl
  | currency body =>
    cases hrun
    exact hs.still (upsertCurrency_deals _ _) fun c => upsertCurrency_isSome _ _
  | elsewhere after =>
    cases hrun
    exact hs.still rfl fun c => id

theorem vault_inv (h0 : ∀ k, db.deals.row k = none) (h : Reach VaultStep Vault.Ok (.start db) s) : s.Inv := by
  refine h.invariant ?_ fun _ _ _ ht hok hstep => ht.step hok hstep
  have hnone (k : ℕ) (d : Deal) : (Vault.start db).db.deals.row k ≠ some d := by
    intro hd
    rw [show (Vault.start db).db = db from rfl, h0] at hd
    cases hd
  exact ⟨fun k d hd => absurd hd (hnone k d), fun k d hd => absurd hd (hnone k d),
    fun k d _ hd => absurd hd (hnone k d), fun _ _ => rfl⟩

/-! ## Releasing -/

/-- Every way of settling a deal takes its amount, as it is rounded now, out of the buyer's locked funds. -/
structure Released (db db' : Db) (d : Deal) : Prop where
  taken : ∃ q, Quantised db d q ∧
    store (max 0 (minus (db.balance d.buyer_id d.currency_id).locked.val q)) =
      .ok (db'.balance d.buyer_id d.currency_id).locked

theorem Settled.released (h : Settled db db' k d flow) : Released db db' d := by
  obtain ⟨q, db₁, hq, hpay, hsame⟩ := h.paid
  refine ⟨q, hq, ?_⟩
  rw [hsame.balance]
  cases hpay with
  | refund hr h =>
    obtain ⟨bal, hm, -, hl⟩ := unlockAndCredit_ok hr h
    rw [hm.balance, if_pos ⟨rfl, rfl⟩, hl]
  | release hr₁ hr₂ h₁ h₂ =>
    obtain ⟨bal, hm, -, hl⟩ := dropLocked_ok hr₁ h₁
    obtain ⟨bal', hm', hl', -⟩ := creditAmount_ok hr₂ h₂
    rw [hl, hm'.balance]
    split
    · -- the payee is the payer
      rename_i hv
      rw [hl', ← hv.1, hm.balance, if_pos ⟨rfl, rfl⟩]
    · rw [hm.balance, if_pos ⟨rfl, rfl⟩]
  | split hr₁ hr₂ h₁ h₂ =>
    obtain ⟨bal, hm, -, hl⟩ := unlockAndCredit_ok hr₁ h₁
    obtain ⟨bal', hm', hl', -⟩ := creditAmount_ok hr₂ h₂
    rw [hl, hm'.balance]
    split
    · rename_i hv
      rw [hl', ← hv.1, hm.balance, if_pos ⟨rfl, rfl⟩]
    · rw [hm.balance, if_pos ⟨rfl, rfl⟩]

/-- An operation on an open deal after which the deal is no longer open has released its funds. -/
theorem whole_released (hr : db.deals.row k = some d) (ha : isActiveForMoneyMovement d.status = true)
    (hc : (db.currencies.row d.currency_id).isSome = true) (hs : op.subject = some k) (h : op.run db = .ok db')
    (hgone : ¬ActiveDeal db' k) : Released db db' d := by
  have hsettled {flow : Flow} (hset : ∃ d', Settled db db' k d' flow) : Released db db' d := by
    obtain ⟨d', hset⟩ := hset
    cases hr.symm.trans hset.row
    exact hset.released
  have hforced {t : Table AdminApprovalRequest} (he : db' = { db with admin_approval_requests := t }) :
      Released db db' d := by
    rw [he] at hgone
    exact absurd ⟨d, hr, ha⟩ hgone
  have hidle (hk : op.Keeps) (hg : ∀ st, Allows db k d op st → isActiveForMoneyMovement st = true) : Released db db' d := by
    obtain ⟨d', hd', hstep⟩ := (deals_of hk h k).1 d hr
    refine absurd ⟨d', hd', ?_⟩ hgone
    cases hstep with
    | kept hst => rw [hst, ha]
    | moved hallow => exact hg _ hallow
  cases op with
  | cancelPendingTopup i u now =>
    refine hidle trivial ?_
    intro st hg
    cases hg with
    | pay hp =>
      obtain ⟨i, dep, hp, -⟩ := hp
      exact absurd hp id
    | cancelPendingTopup _ hst =>
      rw [hst] at ha
      cases ha
  | declineDeal i u now =>
    cases hs
    exact hsettled (declineDeal_ok h)
  | finishDeal i u now =>
    cases hs
    exact hsettled (finishDeal_ok h)
  | acceptCancel i u now =>
    cases hs
    exact hsettled (acceptCancel_ok h)
  | resolveArbitration i u winner note now =>
    cases hs
    exact hsettled (resolveArbitration_ok h)
  | forceRelease i a reason approval now =>
    cases hs
    rcases forceRelease_ok h with ⟨t, ht⟩ | hset
    · exact hforced ht
    · exact hsettled hset
  | forceRefund i a reason approval now =>
    cases hs
    rcases forceRefund_ok h with ⟨t, ht⟩ | hset
    · exact hforced ht
    · exact hsettled hset
  | splitDeal i a p reason approval now =>
    cases hs
    rcases splitDeal_ok h with ⟨t, ht⟩ | ⟨d', amt, c, p', share, -, -, -, -, hset⟩
    · exact hforced ht
    · exact hsettled ⟨d', hset⟩
  | deleteDeal i =>
    cases hs
    obtain ⟨d', hr', ⟨hdrop, -⟩ | ⟨-, q, bal, db₁, hq, -, hl, hm, rfl⟩⟩ := deleteDeal_ok h
    · cases hr.symm.trans hr'
      rcases hdrop with hdrop | hdrop
      · rw [ha] at hdrop
        cases hdrop
      · rw [hdrop] at hc
        cases hc
    · cases hr.symm.trans hr'
      refine ⟨q, hq, ?_⟩
      rw [show (removeDeal db₁ k).balance d.buyer_id d.currency_id = db₁.balance d.buyer_id d.currency_id from rfl,
        hm.balance, if_pos ⟨rfl, rfl⟩, hl]
  | acceptDeal | requestCancel | revokeCancel | startArbitration | forceArbitration | assignArbiter =>
    refine hidle trivial ?_
    intro st hg
    cases hg with
    | pay hp =>
      obtain ⟨i, dep, hp, -⟩ := hp
      exact absurd hp id
    | _ => rfl
  | _ => cases hs

theorem swept_currencies {rows : List ℕ} (h : rows.foldlM (sweepInactivityDeal now) db = .ok db') :
    db'.currencies = db.currencies := by
  induction rows generalizing db with
  | nil =>
    rw [List.foldlM_nil] at h
    rw [pure_ok.1 h]
  | cons i rows ih =>
    rw [List.foldlM_cons] at h
    obtain ⟨db₁, h₁, hrest⟩ := bind_ok.1 h
    rw [ih hrest]
    simp only [sweepInactivityDeal, bind_ok] at h₁
    obtain ⟨d, -, h₁⟩ := h₁
    split at h₁
    · rw [pure_ok.1 h₁]
    · simp only [bind_ok, pure_ok] at h₁
      obtain ⟨amt, -, db₂, hp, rfl⟩ := h₁
      exact (refundPrincipal_ok hp).frame.2.2.2.1

/-- The same for the part of an operation that is about the deal. -/
theorem part_released {b : Db} (hr : db.deals.row k = some d) (hact : isActiveForMoneyMovement d.status = true)
    (hc : (db.currencies.row d.currency_id).isSome = true) (h : op.Part db k db₁ b) (hgone : ¬ActiveDeal b k) :
    Released db₁ b d ∧ db₁.currencies = db.currencies := by
  cases h with
  | whole hs h => exact ⟨whole_released hr hact hc hs h hgone, rfl⟩
  | @swept picked front rest now _ _ hrows hbefore hturn =>
    have hnodup : (front ++ k :: rest).Nodup := by
      rw [← hrows]
      exact (List.nodup_dedup _).filter _
    have hfirst : k ∉ front := fun hmem => (List.nodup_append.1 hnodup).2.2 k hmem k List.mem_cons_self rfl
    have hrow : db₁.deals.row k = some d := by rw [swept_row hfirst hbefore, hr]
    refine ⟨?_, swept_currencies hbefore⟩
    rcases sweepInactivityDeal_ok hrow hact hturn with hset | ⟨-, rfl⟩
    · exact hset.released
    · exact absurd ⟨d, hrow, hact⟩ hgone

/-- In every run with edits of currencies at any point: a settlement releases exactly what was locked
for the deal if and only if the deal's amount rounds to the same with the decimals the currency has
now and with those it had then, and the locked funds cover it. (Or the locked funds are down to just
that amount, and the amount does not round to less.) -/
theorem precision_kept {l : Lock} {before after : Db} (h0 : ∀ k, db.deals.row k = none)
    (h : Reach VaultStep Vault.Ok (.start db) s) (hd : s.db.deals.row k = some d) (hl : s.lock k = some l)
    (hact : isActiveForMoneyMovement d.status = true) (hpart : op.Part s.db k before after)
    (hgone : ¬ActiveDeal after k) :
    ∃ cur, s.db.currencies.row d.currency_id = some cur ∧
      (before.locked d - after.locked d = l.amount ↔
        (roundTo cur.decimals d.amount.val = roundTo l.decimals d.amount.val ∧ l.amount ≤ before.locked d) ∨
          (before.locked d = l.amount ∧ l.amount ≤ roundTo cur.decimals d.amount.val)) := by
  have hinv := vault_inv h0 h
  obtain ⟨⟨q, hq, hstore⟩, hcur⟩ := part_released hd hact (hinv.currency k d hd) hpart hgone
  obtain ⟨cur, hc⟩ := Option.isSome_iff_exists.1 (hinv.currency k d hd)
  refine ⟨cur, hc, ?_⟩
  rw [← hcur] at hc
  obtain rfl := quantised_roundTo hc hq
  rw [Db.locked, Db.locked, released_eq (roundTo_money_grid _ _) hstore, min_comm, min_eq_iff, hinv.lock k d l hd hl]
  constructor
  · rintro (⟨hround, hle⟩ | ⟨hlocked, hle⟩)
    · exact .inl ⟨hround, hround ▸ hle⟩
    · exact .inr ⟨hlocked, hlocked ▸ hle⟩
  · rintro (⟨hround, hle⟩ | ⟨hlocked, hle⟩)
    · exact .inl ⟨hround, hround ▸ hle⟩
    · exact .inr ⟨hlocked, hlocked ▸ hle⟩

end

/-- The seller accepts the deal, and an admin sets the decimals of its currency to `n`. -/
def sampleEdit (n : ℕ) : List VaultAct :=
  [.op (.acceptDeal 1 2 0), .currency ⟨"USDT", some n, none, none, none, none⟩]

/-- A deal of user 1 for `x` is open, `l` was locked for it, and finishing it leaves `y` in the locked funds. -/
def Vault.Finishes (s : Vault) (x : ℚ) (l : Lock) (y : ℚ) : Prop :=
  s.lock 1 = some l ∧ ((s.db.deals.row 1).any fun d => d.amount.val = x ∧ d.buyer_id = 1 ∧ d.currency_id = 1 ∧
    isActiveForMoneyMovement d.status = true) = true ∧ (s.db.balance 1 1).locked.val = x ∧
      ((finishDeal s.db 1 1 0).toOption.any fun after => (after.balance 1 1).locked.val = y ∧
        ((after.deals.row 1).all fun d => !isActiveForMoneyMovement d.status) = true) = true

instance (s : Vault) (x y : ℚ) (l : Lock) : Decidable (s.Finishes x l y) := inferInstanceAs (Decidable (_ ∧ _))

theorem Vault.Finishes.ends {s : Vault} {x y : ℚ} {l : Lock} (h : s.Finishes x l y) :
    ∃ d after, s.db.deals.row 1 = some d ∧ s.lock 1 = some l ∧ d.amount.val = x ∧ d.currency_id = 1 ∧
      isActiveForMoneyMovement d.status = true ∧ finishDeal s.db 1 1 0 = .ok after ∧ ¬ActiveDeal after 1 ∧
        s.db.locked d = x ∧ after.locked d = y := by
  obtain ⟨hl, hrow, hlocked, hfinish⟩ := h
  obtain ⟨d, hd, hp⟩ := (Option.any_eq_true _ _).1 hrow
  obtain ⟨hx, hb, hc, hact⟩ := of_decide_eq_true hp
  obtain ⟨after, hok, hy, hgone⟩ := exists_ok hfinish
  exact ⟨d, after, hd, hl, hx, hc, hact, hok, not_active_of_row hgone, by rw [Db.locked, hb, hc, hlocked],
    by rw [Db.locked, hb, hc, hy]⟩

/-- Locked with two decimals and released with eight: 10.00 is the same with both. -/
theorem samplePrecision_kept : ∃ s after d l, Reach VaultStep Vault.Ok (.start (sampleDb 2 ⟨1000000000, by decide⟩)) s ∧
    s.db.deals.row 1 = some d ∧ s.lock 1 = some l ∧ l = ⟨10, 2⟩ ∧ (s.db.currencies.row 1).map (·.decimals) = some 8 ∧
      finishDeal s.db 1 1 0 = .ok after ∧ s.db.locked d - after.locked d = l.amount := by
  have hcreate := exists_ok (x := (Vault.start (sampleDb 2 ⟨1000000000, by decide⟩)).exec
    (.op (.createDeal 1 2 "USDT" (some 10) "cryptobot" 0))) (p := fun t => ((sampleEdit 8).foldlM Vault.exec t).toOption.any
      (fun s => s.Finishes 10 ⟨10, 2⟩ 0 ∧ (s.db.currencies.row 1).map (·.decimals) = some 8) = true) (by decide +kernel)
  obtain ⟨t, ht, hrest⟩ := hcreate
  have hfine : FineAmount (sampleDb 2 ⟨1000000000, by decide⟩) 1 "USDT" (some 10) :=
    fineAmount_of_decimals (sample_decimals rfl (by decide)) _ _ _
  have hfirst : Reach VaultStep Vault.Ok (.start (sampleDb 2 ⟨1000000000, by decide⟩)) t :=
    .step (a := .op (.createDeal 1 2 "USDT" (some 10) "cryptobot" 0)) .refl hfine ht
  have hlater : ∃ s, Reach VaultStep Vault.Ok t s ∧ s.Finishes 10 ⟨10, 2⟩ 0 ∧
      (s.db.currencies.row 1).map (·.decimals) = some 8 := by
    refine Reach.of_check Vault.exec (sampleEdit 8) (fun _ => True) hrest trivial (fun _ _ _ _ _ => trivial) ?_
    intro a ha s _
    simp only [sampleEdit, List.mem_cons, List.not_mem_nil, or_false] at ha
    rcases ha with rfl | rfl
    · trivial
    · trivial
  obtain ⟨s, hs, hfinish, hdec⟩ := hlater
  obtain ⟨d, after, hd, hl, hx, hc, hact, hok, hgone, hlocked, -⟩ := hfinish.ends
  refine ⟨s, after, d, _, hfirst.trans hs, hd, hl, rfl, hdec, hok, ?_⟩
  obtain ⟨cur, hcur, hiff⟩ := precision_kept (fun _ => rfl) (hfirst.trans hs) hd hl hact
    (show Op.Part s.db 1 (.finishDeal 1 1 0) s.db after from .whole rfl hok) hgone
  refine hiff.2 (.inl ⟨?_, by rw [hlocked]⟩)
  rw [hc] at hcur
  rw [hcur, Option.map_some, Option.some.injEq] at hdec
  rw [hdec, hx]
  decide +kernel

/-- Locked with eight decimals and released with two: of the 1.005 locked, 1.00 are released. -/
theorem lowered_decimals_strand_funds : ∃ s after d l, Reach VaultStep Free (.start (sampleDb 8 ⟨1000000000, by decide⟩)) s ∧
    s.db.deals.row 1 = some d ∧ isActiveForMoneyMovement d.status = true ∧ s.lock 1 = some l ∧ l.amount = 201 / 200 ∧
      finishDeal s.db 1 1 0 = .ok after ∧ ¬ActiveDeal after 1 ∧ s.db.locked d - after.locked d = 1 ∧
        after.locked d = 1 / 200 := by
  obtain ⟨s, hs, hfinish⟩ := Reach.free_of_check (s := Vault.start (sampleDb 8 ⟨1000000000, by decide⟩))
    (p := fun s => s.Finishes (201 / 200) ⟨201 / 200, 8⟩ (1 / 200)) Vault.exec
    (.op (.createDeal 1 2 "USDT" (some (201 / 200)) "cryptobot" 0) :: sampleEdit 2) (by decide +kernel)
  obtain ⟨d, after, hd, hl, -, -, hact, hok, hgone, hlocked, hleft⟩ := hfinish.ends
  refine ⟨s, after, d, _, hs, hd, hact, hl, rfl, hok, hgone, ?_, hleft⟩
  rw [hlocked, hleft]
  norm_num

end Garant
