import Garant.Replacement
import Garant.DepositEvents
/-!
# Expiry and payment of one deposit

A deposit expires, and a valid payment for it arrives, in either order. For
CryptoBot the two orders end alike; Crystalpay refuses a payment for a deposit
that has expired. `Db.withDeposits` swaps the deposits table, the only thing an
expiry changes; the credit goes through the same with the other table.
-/
open Decimal

namespace Garant

section
variable {db db' : Db} {t : Table WalletDeposit} {i j k u c : ℕ} {d : Deal} {dep dep' : WalletDeposit} {cur : Currency}
  {now : Time} {reply : InvoiceReply} {x y : ℚ} {e : DepositEvent}

/-! ## Another deposits table -/

theorem lockUserBalance_withDeposits (db : Db) (t : Table WalletDeposit) (u c : ℕ) :
    lockUserBalance (db.withDeposits t) u c = (lockUserBalance db u c).withDeposits t := by
  unfold lockUserBalance
  simp only [Db.withDeposits]
  split <;> rfl

theorem changeBalance_withDeposits {ref : LedgerRef} (t : Table WalletDeposit) (h : changeBalance db u c x y ref = .ok db') :
    changeBalance (db.withDeposits t) u c x y ref = .ok (db'.withDeposits t) := by
  unfold changeBalance at h ⊢
  rw [lockUserBalance_withDeposits]
  obtain ⟨db₁, hw, h⟩ := bind_ok.1 h
  obtain ⟨bal, ha, hl, rfl⟩ := writeBalance_ok hw
  refine bind_ok.2 ⟨((lockUserBalance db u c).setBalance u c bal).withDeposits t, ?_, ?_⟩
  · unfold writeBalance
    rw [ha, hl]
    rfl
  · unfold recordBalanceLedger at h ⊢
    have hbal : (db.withDeposits t).balance u c = db.balance u c := rfl
    rw [hbal]
    split at h
    · rename_i h0
      rw [if_pos h0, ← pure_ok.1 h]
      rfl
    · rename_i h0
      rw [if_neg h0]
      simp only [bind_ok, pure_ok] at h ⊢
      obtain ⟨ab, hab, ad, had, aa, haa, lb, hlb, ld, hld, la, hla, rfl⟩ := h
      exact ⟨ab, hab, ad, had, aa, haa, lb, hlb, ld, hld, la, hla, rfl⟩

theorem creditTrust_withDeposits (t : Table WalletDeposit) (h : creditTrust db j dep x = .ok db') :
    creditTrust (db.withDeposits t) j { dep with status := .expired } x = .ok (db'.withDeposits t) := by
  simp only [creditTrust, recordSyntheticLedger, bind_ok, orRaise_ok] at h ⊢
  obtain ⟨user, hu, trust, ht, h⟩ := h
  refine ⟨user, hu, trust, ht, ?_⟩
  split at h
  · rename_i h0
    rw [if_pos h0, ← pure_ok.1 h]
    rfl
  · rename_i h0
    rw [if_neg h0]
    simp only [bind_ok, pure_ok] at h ⊢
    obtain ⟨ab, hab, ad, had, aa, haa, rfl⟩ := h
    exact ⟨ab, hab, ad, had, aa, haa, rfl⟩

theorem creditBalance_withDeposits (t : Table WalletDeposit) (h : creditBalance db j dep x = .ok db') :
    creditBalance (db.withDeposits t) j { dep with status := .expired } x = .ok (db'.withDeposits t) := by
  unfold creditBalance at h ⊢
  by_cases htrust : dep.purpose = .trust
  · rw [if_pos htrust] at h ⊢
    exact creditTrust_withDeposits t h
  · rw [if_neg htrust] at h ⊢
    exact changeBalance_withDeposits t h

/-- Every row of `t'` has the invoice of a row of `t`. -/
def KeysOf (t' t : Table WalletDeposit) : Prop :=
  ∀ i e, t'.row i = some e → ∃ e₀, t.row i = some e₀ ∧ e₀.provider = e.provider ∧
    e₀.provider_invoice_id = e.provider_invoice_id

theorem Expires.keysOf {t' : Table WalletDeposit} (h : Expires t t') : KeysOf t' t := by
  intro i e hi
  rcases h.row i with hr | ⟨d, hd, -, hr⟩
  · exact ⟨e, hr.symm.trans hi, rfl, rfl⟩
  · cases hr.symm.trans hi
    exact ⟨d, hd, rfl, rfl⟩

theorem KeysOf.set {t' : Table WalletDeposit} (h : KeysOf t' t) (j : ℕ) (v : WalletDeposit) :
    KeysOf (t'.set j v) (t.set j v) := by
  intro i e hi
  by_cases hij : i = j
  · subst hij
    have hmap : (t'.row i).map (fun _ => v) = some e := (if_pos rfl).symm.trans hi
    obtain ⟨e', he', rfl⟩ := Option.map_eq_some_iff.1 hmap
    obtain ⟨e₀, he₀, -, -⟩ := h i e' he'
    exact ⟨v, by rw [Table.set_row he₀, if_pos rfl], rfl, rfl⟩
  · rw [Table.set_row_ne hij] at hi
    obtain ⟨e₀, he₀, hp, hid⟩ := h i e hi
    exact ⟨e₀, by rw [Table.set_row_ne hij, he₀], hp, hid⟩

/-- The next invoice can be issued with either table. -/
theorem issueRemainingTopupInvoice_withDeposits (h : issueRemainingTopupInvoice db k d cur x reply now = .ok db')
    (ht : KeysOf t db.wallet_deposits) :
    ∃ db'', issueRemainingTopupInvoice (db.withDeposits t) k d cur x reply now = .ok db'' := by
  obtain ⟨buyer, hb, -⟩ := bind_ok.1 h
  obtain ⟨amt, due, total, hdue, htotal, hissue⟩ :=
    (issueRemainingTopupInvoice_isOk_iff d k now reply (orRaise_ok.1 hb)).1 ⟨db', h⟩
  have hb' : (db.withDeposits t).users.row d.buyer_id = some buyer := orRaise_ok.1 hb
  refine (issueRemainingTopupInvoice_isOk_iff d k now reply hb').2 ⟨amt, due, total, hdue, htotal, fun hpos => ?_⟩
  exact (hissue hpos).congr rfl rfl rfl ht

theorem settleTopup_withDeposits (ht : KeysOf t db.wallet_deposits)
    (h : settleTopup db j dep k d cur x reply now = .ok db') :
    ∃ db'', settleTopup (db.withDeposits t) j { dep with status := .expired } k d cur x reply now = .ok db'' := by
  simp only [settleTopup, bind_ok] at h ⊢
  obtain ⟨⟨amt, due⟩, hdue, rep, hrep, h⟩ := h
  have hset {db₁ : Db} {u c : ℕ} {bal : UserBalance} (hm : Moved False db db₁ u c bal) :
      KeysOf (t.set j (dep.settle now (some rep))) (db₁.wallet_deposits.set j (dep.settle now (some rep))) := by
    rw [hm.deposits]
    exact ht.set j _
  by_cases hlt : x < due
  · rw [if_pos hlt] at h
    obtain ⟨db₁, hch, h⟩ := bind_ok.1 h
    obtain ⟨bal, -, -, hm⟩ := changeBalance_ok (depositRef_ne (by decide) _ _) hch
    have hkeys := hset hm
    obtain ⟨db'', h''⟩ := issueRemainingTopupInvoice_withDeposits h hkeys
    refine ⟨db'', (amt, due), hdue, rep, hrep, ?_⟩
    rw [if_pos hlt, bind_ok]
    exact ⟨db₁.withDeposits t, changeBalance_withDeposits t hch, h''⟩
  rw [if_neg hlt, bind_ok] at h
  obtain ⟨credit, hq, h⟩ := h
  by_cases hshort : plus (db.balance d.buyer_id d.currency_id).amount.val credit < amt
  · rw [if_pos hshort] at h
    obtain ⟨db₁, hch, h⟩ := bind_ok.1 h
    obtain ⟨bal, -, -, hm⟩ := changeBalance_ok (depositRef_ne (by decide) _ _) hch
    have hkeys := hset hm
    obtain ⟨db'', h''⟩ := issueRemainingTopupInvoice_withDeposits h hkeys
    refine ⟨db'', (amt, due), hdue, rep, hrep, ?_⟩
    rw [if_neg hlt, bind_ok]
    refine ⟨credit, hq, ?_⟩
    have hshort' : plus ((db.withDeposits t).balance d.buyer_id d.currency_id).amount.val credit < amt := hshort
    rw [if_pos hshort', bind_ok]
    exact ⟨db₁.withDeposits t, changeBalance_withDeposits t hch, h''⟩
  · rw [if_neg hshort] at h
    obtain ⟨db₁, hch, -⟩ := bind_ok.1 h
    have hshort' : ¬plus ((db.withDeposits t).balance d.buyer_id d.currency_id).amount.val credit < amt := hshort
    refine ⟨((db₁.withDeposits t).setDeal k { d with status := .pending_confirmation, commission_paid := true }).setDeposit j
      (dep.settle now (some rep)), (amt, due), hdue, rep, hrep, ?_⟩
    rw [if_neg hlt, bind_ok]
    refine ⟨credit, hq, ?_⟩
    rw [if_neg hshort', bind_ok]
    exact ⟨db₁.withDeposits t, changeBalance_withDeposits t hch, rfl⟩

theorem completeDealTopupPayment_alone {paid : Option ℚ} (hj : db.wallet_deposits.row j = some dep)
    (hunpaid : dep.status ≠ .paid) (hl : dep.linked_deal_id.bind db.deals.row = none) :
    completeDealTopupPayment db j paid reply now = settleUnattached db j dep paid now := by
  have hrow : orRaise (db.wallet_deposits.row j) .no_result = pure dep := by rw [hj]; rfl
  simp only [completeDealTopupPayment, hrow, pure_bind, if_neg hunpaid]
  cases hk : dep.linked_deal_id with
  | none => rfl
  | some k =>
    rw [hk, Option.bind_some] at hl
    simp only [hl]

theorem completeDealTopupPayment_deal {paid : Option ℚ} (hj : db.wallet_deposits.row j = some dep)
    (hunpaid : dep.status ≠ .paid) (hl : dep.linked_deal_id = some k) (hr : db.deals.row k = some d) :
    completeDealTopupPayment db j paid reply now = (do
      let currency ← orRaise (db.currencies.row d.currency_id) currencyVanished
      let p ← quantizeMoney (paid.getD dep.amount.val) currency.decimals
      if d.status = .pending_topup then settleTopup db j dep k d currency p reply now
      else lateCredit db j dep d p now) := by
  have hrow : orRaise (db.wallet_deposits.row j) .no_result = pure dep := by rw [hj]; rfl
  simp only [completeDealTopupPayment, hrow, pure_bind, if_neg hunpaid, hl, hr]

theorem completeDealTopupPayment_withDeposits {paid : Option ℚ} (hj : db.wallet_deposits.row j = some dep)
    (hunpaid : dep.status ≠ .paid) (ht : KeysOf t db.wallet_deposits) (hd : dep' = { dep with status := .expired })
    (hjt : t.row j = some dep') (h : completeDealTopupPayment db j paid reply now = .ok db') :
    ∃ db'', completeDealTopupPayment (db.withDeposits t) j paid reply now = .ok db'' := by
  have hexp : dep'.status ≠ .paid := by simp [hd]
  have hlink : dep'.linked_deal_id = dep.linked_deal_id := by rw [hd]
  have hjt' : (db.withDeposits t).wallet_deposits.row j = some dep' := hjt
  cases hl : dep.linked_deal_id.bind db.deals.row with
  | none =>
    rw [completeDealTopupPayment_alone hj hunpaid hl] at h
    rw [completeDealTopupPayment_alone hjt' hexp (by rw [hlink]; exact hl)]
    obtain ⟨rep, hr, -⟩ := bind_ok.1 h
    exact ⟨_, bind_ok.2 ⟨rep, hr, rfl⟩⟩
  | some d =>
    obtain ⟨k, hk, hr⟩ := Option.bind_eq_some_iff.1 hl
    have hr' : (db.withDeposits t).deals.row k = some d := hr
    rw [completeDealTopupPayment_deal hj hunpaid hk hr] at h
    rw [completeDealTopupPayment_deal hjt' hexp (hlink.trans hk) hr']
    obtain ⟨cur, hc, h⟩ := bind_ok.1 h
    obtain ⟨p, hp, h⟩ := bind_ok.1 h
    have hp' : quantizeMoney (paid.getD dep'.amount.val) cur.decimals = .ok p := by rw [hd]; exact hp
    by_cases hw : d.status = .pending_topup
    · rw [if_pos hw] at h
      obtain ⟨db'', h''⟩ := settleTopup_withDeposits ht h
      refine ⟨db'', bind_ok.2 ⟨cur, hc, bind_ok.2 ⟨p, hp', ?_⟩⟩⟩
      rw [if_pos hw, hd]
      exact h''
    · rw [if_neg hw] at h
      obtain ⟨db₁, hch, h⟩ := bind_ok.1 h
      obtain ⟨rep, hrep, h⟩ := bind_ok.1 h
      have hch' : creditAmount (db.withDeposits t) d.buyer_id d.currency_id p (depositRef "deal_topup.late_credit" j dep') =
          .ok (db₁.withDeposits t) := by
        rw [hd]
        exact changeBalance_withDeposits t hch
      refine ⟨(db₁.withDeposits t).setDeposit j (dep'.settle now (some rep)), bind_ok.2 ⟨cur, hc, bind_ok.2 ⟨p, hp', ?_⟩⟩⟩
      rw [if_neg hw]
      exact bind_ok.2 ⟨_, hch', bind_ok.2 ⟨rep, hrep, rfl⟩⟩

/-- A credit of an expired deposit goes through where that of the pending one does. -/
theorem creditDeposit_withDeposits {paid : Option Number} (hj : db.wallet_deposits.row j = some dep)
    (hunpaid : dep.status ≠ .paid) (ht : KeysOf t db.wallet_deposits) (hd : dep' = { dep with status := .expired })
    (hjt : t.row j = some dep') (h : creditDeposit db j paid reply now = .ok db') :
    ∃ db'', creditDeposit (db.withDeposits t) j paid reply now = .ok db'' := by
  have hexp : dep'.status ≠ .paid := by simp [hd]
  simp only [creditDeposit, bind_ok, orRaise_ok] at h
  obtain ⟨_, hj', h⟩ := h
  cases hj.symm.trans hj'
  rw [if_neg hunpaid, bind_ok] at h
  obtain ⟨nominal, hn, h⟩ := h
  obtain ⟨reported, hrep, h⟩ := bind_ok.1 h
  have hcur : dep'.currency_id = dep.currency_id := by rw [hd]
  have hamount : dep'.amount = dep.amount := by rw [hd]
  have hpurpose : dep'.purpose = dep.purpose := by rw [hd]
  have key (x : Result Db) : (∃ db'', x = .ok db'') → x = (if dep.purpose = .deal_topup then
      completeDealTopupPayment (db.withDeposits t) j (paid.bind (·.toRat?)) reply now else do
        let db ← creditBalance (db.withDeposits t) j dep' (max nominal (reported.getD nominal))
        let amount ← store (max nominal (reported.getD nominal))
        let rep ← storeOpt reported
        pure (db.setDeposit j { dep'.settle now (rep <|> dep'.paid_amount) with amount })) →
      ∃ db'', creditDeposit (db.withDeposits t) j paid reply now = .ok db'' := by
    rintro ⟨db'', hx⟩ rfl
    refine ⟨db'', bind_ok.2 ⟨dep', orRaise_ok.2 hjt, ?_⟩⟩
    rw [if_neg hexp, bind_ok]
    refine ⟨nominal, by rw [hcur, hamount]; exact hn, ?_⟩
    rw [bind_ok]
    refine ⟨reported, by rw [hcur]; exact hrep, ?_⟩
    rw [hpurpose]
    exact hx
  refine key _ ?_ rfl
  by_cases htop : dep.purpose = .deal_topup
  · rw [if_pos htop] at h ⊢
    exact completeDealTopupPayment_withDeposits hj hunpaid ht hd hjt h
  · rw [if_neg htop] at h ⊢
    obtain ⟨db₁, hcr, h⟩ := bind_ok.1 h
    obtain ⟨amount, ha, h⟩ := bind_ok.1 h
    obtain ⟨rep, hr, h⟩ := bind_ok.1 h
    have hcr' : creditBalance (db.withDeposits t) j dep' (max nominal (reported.getD nominal)) =
        .ok (db₁.withDeposits t) := by
      rw [hd]
      exact creditBalance_withDeposits t hcr
    exact ⟨_, bind_ok.2 ⟨_, hcr', bind_ok.2 ⟨amount, ha, bind_ok.2 ⟨rep, hr, rfl⟩⟩⟩⟩

/-! ## The invoice is the only one with its number -/

/-- No other row has the invoice of `dep`. -/
def SoleInvoice (db : Db) (j : ℕ) (dep : WalletDeposit) : Prop :=
  ∀ i e, db.wallet_deposits.row i = some e → e.provider = dep.provider →
    e.provider_invoice_id = dep.provider_invoice_id → i = j

theorem SoleInvoice.congr (h : SoleInvoice db j dep) (hk : KeysOf db'.wallet_deposits db.wallet_deposits) :
    SoleInvoice db' j dep := by
  intro i e hi hp hid
  obtain ⟨e₀, he₀, hp₀, hid₀⟩ := hk i e hi
  exact h i e₀ he₀ (hp₀.trans hp) (hid₀.trans hid)

theorem findWalletDeposit_isOk_iff (hj : db.wallet_deposits.row j = some dep) :
    (∃ o, findWalletDeposit db dep.provider_invoice_id dep.provider = .ok o) ↔ SoleInvoice db j dep := by
  have hmem (i : ℕ) : i ∈ (db.wallet_deposits.ids fun d =>
      d.provider = dep.provider ∧ d.provider_invoice_id = dep.provider_invoice_id) ↔
      ∃ e, db.wallet_deposits.row i = some e ∧ e.provider = dep.provider ∧
        e.provider_invoice_id = dep.provider_invoice_id := by
    rw [Table.mem_ids]
    simp
  constructor
  · rintro ⟨o, h⟩ i e hi hp hid
    have hi' := (hmem i).2 ⟨e, hi, hp, hid⟩
    have hj' := (hmem j).2 ⟨dep, hj, rfl, rfl⟩
    unfold findWalletDeposit at h
    split at h
    · rename_i hnil
      rw [hnil] at hi'
      cases hi'
    · rename_i hone
      rw [hone, List.mem_singleton] at hi' hj'
      rw [hi', hj']
    · cases h
  · intro h
    have hnodup := db.wallet_deposits.nodup_ids fun d =>
      d.provider = dep.provider ∧ d.provider_invoice_id = dep.provider_invoice_id
    unfold findWalletDeposit
    split
    · exact ⟨_, rfl⟩
    · exact ⟨_, rfl⟩
    · rename_i a b rest htwo
      -- both would be the row of the invoice
      have ha := (hmem a).1 (by rw [htwo]; simp)
      have hb := (hmem b).1 (by rw [htwo]; simp)
      obtain ⟨ea, hra, hpa, hida⟩ := ha
      obtain ⟨eb, hrb, hpb, hidb⟩ := hb
      rw [htwo, h a ea hra hpa hida, h b eb hrb hpb hidb] at hnodup
      simp at hnodup

theorem linkDeposit_keysOf (db : Db) (k i : ℕ) : KeysOf (linkDeposit db k i).wallet_deposits db.wallet_deposits := by
  intro l e hl
  simp only [linkDeposit] at hl
  cases hi : db.wallet_deposits.row i with
  | none =>
    rw [hi] at hl
    exact ⟨e, hl, rfl, rfl⟩
  | some d₀ =>
    simp only [hi] at hl
    rw [Table.set_row hi] at hl
    split at hl
    · subst l
      cases hl
      exact ⟨d₀, hi, rfl, rfl⟩
    · exact ⟨e, hl, rfl, rfl⟩

/-- The next invoice has a number of its own. -/
theorem issueRemainingTopupInvoice_sole (hj : db.wallet_deposits.row j = some dep) (h : SoleInvoice db j dep)
    (hi : issueRemainingTopupInvoice db k d cur x reply now = .ok db') : SoleInvoice db' j dep := by
  obtain ⟨_, -, hi⟩ := bind_ok.1 hi
  obtain ⟨⟨_, _⟩, -, hi⟩ := bind_ok.1 hi
  obtain ⟨total, -, hi⟩ := bind_ok.1 hi
  split at hi
  · rwa [← pure_ok.1 hi]
  obtain ⟨r, hr, hi⟩ := bind_ok.1 hi
  rw [← pure_ok.1 hi]
  refine SoleInvoice.congr ?_ (linkDeposit_keysOf r.2 k r.1)
  simp only [createDepositInvoice, bind_ok] at hr
  obtain ⟨_, -, _, -, _, -, ⟨p, id⟩, -, a, -, hr⟩ := hr
  have hnew := (insertDeposit_isOk_iff _ _).1 ⟨r, hr⟩
  simp only [insertDeposit, bind_ok, pure_ok] at hr
  obtain ⟨_, -, rfl⟩ := hr
  intro l e hl hp hid
  rw [Table.insert_row] at hl
  split at hl
  · cases hl
    exact absurd ⟨hp.symm, hid.symm⟩ (hnew j dep hj)
  · exact h l e hl hp hid

theorem setDeposit_sole {e : WalletDeposit} (h : SoleInvoice db j dep) : SoleInvoice (db.setDeposit j e) j dep := by
  intro i e' hi hp hid
  by_cases hij : i = j
  · exact hij
  · have hi' : db.wallet_deposits.row i = some e' := by rw [← hi]; exact (Table.set_row_ne hij).symm
    exact h i e' hi' hp hid

theorem settleTopup_sole (hj : db.wallet_deposits.row j = some dep)
    (hs : SoleInvoice db j dep) (h : settleTopup db j dep k d cur x reply now = .ok db') : SoleInvoice db' j dep := by
  obtain ⟨amt, due, rep, bal, db₁, -, -, hm, h⟩ := settleTopup_ok h
  have hj₁ : db₁.wallet_deposits.row j = some dep := by rw [hm.deposits, hj]
  have hs₁ : SoleInvoice db₁ j dep := by
    intro i e hi
    rw [hm.deposits] at hi
    exact hs i e hi
  cases h with
  | short _ _ _ hi =>
    have hrow : (db₁.setDeposit j (dep.settle now (some rep))).wallet_deposits.row j = some (dep.settle now (some rep)) :=
      setDeposit_row hj₁
    have hsole : SoleInvoice (db₁.setDeposit j (dep.settle now (some rep))) j (dep.settle now (some rep)) :=
      setDeposit_sole hs₁
    have hdone := issueRemainingTopupInvoice_sole hrow hsole hi
    exact hdone
  | @partly _ e _ _ _ _ _ _ _ hi =>
    have hrow : ((db₁.setDeal k e).setDeposit j (dep.settle now (some rep))).wallet_deposits.row j =
        some (dep.settle now (some rep)) := setDeposit_row hj₁
    have hsole : SoleInvoice ((db₁.setDeal k e).setDeposit j (dep.settle now (some rep))) j (dep.settle now (some rep)) :=
      setDeposit_sole hs₁
    have hdone := issueRemainingTopupInvoice_sole hrow hsole hi
    exact hdone
  | activated _ _ _ _ _ => exact setDeposit_sole hs₁

/-- A credit leaves the invoice the only one with its number. -/
theorem creditDeposit_sole {paid : Option Number} (hj : db.wallet_deposits.row j = some dep)
    (hunpaid : dep.status ≠ .paid) (hs : SoleInvoice db j dep) (h : creditDeposit db j paid reply now = .ok db') :
    SoleInvoice db' j dep := by
  simp only [creditDeposit, bind_ok, orRaise_ok] at h
  obtain ⟨_, hj', h⟩ := h
  cases hj.symm.trans hj'
  rw [if_neg hunpaid, bind_ok] at h
  obtain ⟨nominal, -, h⟩ := h
  obtain ⟨reported, -, h⟩ := bind_ok.1 h
  by_cases htop : dep.purpose = .deal_topup
  · rw [if_pos htop] at h
    cases hl : dep.linked_deal_id.bind db.deals.row with
    | none =>
      rw [completeDealTopupPayment_alone hj hunpaid hl] at h
      obtain ⟨rep, -, h⟩ := bind_ok.1 h
      rw [← pure_ok.1 h]
      exact setDeposit_sole hs
    | some d =>
      obtain ⟨k, hk, hr⟩ := Option.bind_eq_some_iff.1 hl
      rw [completeDealTopupPayment_deal hj hunpaid hk hr] at h
      obtain ⟨cur, -, h⟩ := bind_ok.1 h
      obtain ⟨p, -, h⟩ := bind_ok.1 h
      split at h
      · exact settleTopup_sole hj hs h
      · obtain ⟨db₁, hch, h⟩ := bind_ok.1 h
        obtain ⟨rep, -, h⟩ := bind_ok.1 h
        obtain ⟨bal, hm, -, -⟩ := creditAmount_ok (depositRef_ne (by decide) _ _) hch
        rw [← pure_ok.1 h]
        refine setDeposit_sole ?_
        intro i e hi
        rw [hm.deposits] at hi
        exact hs i e hi
  · rw [if_neg htop] at h
    obtain ⟨db₁, hcr, h⟩ := bind_ok.1 h
    obtain ⟨amount, -, h⟩ := bind_ok.1 h
    obtain ⟨rep, -, h⟩ := bind_ok.1 h
    obtain ⟨hdeps, -⟩ := creditBalance_books hcr
    rw [← pure_ok.1 h]
    refine setDeposit_sole ?_
    intro i e hi
    rw [hdeps] at hi
    exact hs i e hi

/-! ## Paid deliveries -/

end

/-- A delivery of the deposit's provider. -/
structure Delivery where
  state : String
  amount : Reported
  reply : InvoiceReply
  now : Time

namespace Delivery

def event (w : Delivery) : WalletDepositProvider → DepositEvent
  | .cryptobot => .invoicePaid w.state w.amount w.reply w.now
  | .crystalpay => .crystalpay w.state w.amount w.reply w.now

/-- It says paid, with an amount that is accepted for the deposit. -/
def ValidFor (w : Delivery) (dep : WalletDeposit) : Prop :=
  (match dep.provider with
    | .cryptobot => w.state = paidState .cryptobot
    | .crystalpay => w.state.toLower = paidState .crystalpay) ∧
  amountAccepted dep w.amount = .ok true

end Delivery

section
variable {db db' : Db} {j : ℕ} {dep : WalletDeposit} {w : Delivery} {e : DepositEvent}

theorem creditReported_accepted (ha : amountAccepted dep w.amount = .ok true) :
    creditReported db j dep w.amount w.reply w.now = (do
      let db ← creditDeposit db j (parsePaidAmount w.amount) w.reply w.now
      pure (db, .credited)) := by
  unfold creditReported
  rw [ha]
  rfl

/-- A valid paid delivery credits the deposit, unless Crystalpay finds it closed. -/
theorem Delivery.ValidFor.run_iff (hv : w.ValidFor dep) (hj : db.wallet_deposits.row j = some dep)
    (hunpaid : dep.status ≠ .paid) (hopen : dep.provider = .crystalpay → ¬(dep.status = .expired ∨ dep.status = .refunded)) :
    (w.event dep.provider).run j dep.provider dep.provider_invoice_id db = .ok db' ↔
      SoleInvoice db j dep ∧ creditDeposit db j (parsePaidAmount w.amount) w.reply w.now = .ok db' := by
  obtain ⟨hstate, ha⟩ := hv
  rw [← findWalletDeposit_isOk_iff hj]
  have hfound {o : Option ℕ} (ho : findWalletDeposit db dep.provider_invoice_id dep.provider = .ok o) : o = some j :=
    findWalletDeposit_row hj ho
  have hrow : orRaise (db.wallet_deposits.row j) .no_result = .ok dep := orRaise_ok.2 hj
  cases hprov : dep.provider with
  | cryptobot =>
    rw [hprov] at hstate hfound
    have hs : ¬w.state ≠ "paid" := not_not.2 hstate
    simp only [Delivery.event, DepositEvent.run, handleInvoicePaid, if_neg hs, bind_ok, raiseIf_ok, Prod.exists, pure_ok]
    constructor
    · rintro ⟨_, -, db₁, r, ⟨o, ho, h⟩, rfl⟩
      cases hfound ho
      obtain ⟨dep', hj', h⟩ := bind_ok.1 h
      cases hrow.symm.trans hj'
      rw [if_neg hunpaid, creditReported_accepted ha] at h
      obtain ⟨db₂, hc, h⟩ := bind_ok.1 h
      cases pure_ok.1 h
      exact ⟨⟨_, ho⟩, hc⟩
    · rintro ⟨⟨o, ho⟩, hc⟩
      refine ⟨(), by simp, db', .credited, ⟨o, ho, ?_⟩, rfl⟩
      cases hfound ho
      refine bind_ok.2 ⟨dep, hrow, ?_⟩
      rw [if_neg hunpaid, creditReported_accepted ha]
      exact bind_ok.2 ⟨db', hc, rfl⟩
  | crystalpay =>
    rw [hprov] at hstate hfound
    have hs : w.state.toLower = paidState .crystalpay := hstate
    simp only [Delivery.event, DepositEvent.run, handleCrystalpayInvoice, if_pos hs, bind_ok, raiseIf_ok,
      Prod.exists, pure_ok]
    constructor
    · rintro ⟨_, -, db₁, r, ⟨o, ho, h⟩, rfl⟩
      cases hfound ho
      obtain ⟨dep', hj', h⟩ := bind_ok.1 h
      cases hrow.symm.trans hj'
      rw [if_neg hunpaid, if_neg (hopen hprov), creditReported_accepted ha] at h
      obtain ⟨db₂, hc, h⟩ := bind_ok.1 h
      cases pure_ok.1 h
      exact ⟨⟨_, ho⟩, hc⟩
    · rintro ⟨⟨o, ho⟩, hc⟩
      refine ⟨(), by simp, db', .credited, ⟨o, ho, ?_⟩, rfl⟩
      cases hfound ho
      refine bind_ok.2 ⟨dep, hrow, ?_⟩
      rw [if_neg hunpaid, if_neg (hopen hprov), creditReported_accepted ha]
      exact bind_ok.2 ⟨db', hc, rfl⟩

/-- Crystalpay refuses a payment for a deposit that has expired. -/
theorem Delivery.ValidFor.refused (hv : w.ValidFor dep) (hj : db.wallet_deposits.row j = some dep)
    (hprov : dep.provider = .crystalpay) (hexp : dep.status = .expired) (hs : SoleInvoice db j dep) :
    handleCrystalpayInvoice db ⟨some dep.provider_invoice_id, w.state, w.amount⟩ w.reply w.now =
      .ok (db, .refused "deposit not pending") := by
  obtain ⟨o, ho⟩ := (findWalletDeposit_isOk_iff hj).2 hs
  cases findWalletDeposit_row hj ho
  have hstate : w.state.toLower = paidState .crystalpay := by
    have := hv.1
    rwa [hprov] at this
  rw [hprov] at ho
  refine bind_ok.2 ⟨some j, ho, ?_⟩
  refine bind_ok.2 ⟨dep, orRaise_ok.2 hj, ?_⟩
  rw [if_pos hstate, if_neg (by simp [hexp]), if_pos (.inl hexp)]
  rfl

/-! ## Expiries -/

/-- The events that close a deposit with no payment: the sweep, a webhook or a
poll that finds the invoice dead. -/
def DepositEvent.Expiry (provider : WalletDepositProvider) : DepositEvent → Prop
  | .sweep _ _ => True
  | .invoiceExpired _ _ => True
  | .crystalpay state _ _ _ => state.toLower ∈ deadStates .crystalpay
  | .poll (.state s) _ _ => s ∈ deadStates provider
  | _ => False

/-- An expiry changes nothing but pending rows, and finds the provider's own invoice. -/
theorem DepositEvent.Expiry.expires (hx : e.Expiry dep.provider) (hj : db.wallet_deposits.row j = some dep)
    (h : e.run j dep.provider dep.provider_invoice_id db = .ok db') :
    ∃ t, Expires db.wallet_deposits t ∧ db' = db.withDeposits t := by
  have hrow : orRaise (db.wallet_deposits.row j) .no_result = .ok dep := orRaise_ok.2 hj
  cases e with
  | invoicePaid _ _ _ _ => exact absurd hx id
  | refund => exact absurd hx id
  | sweep picked now =>
    obtain ⟨t, ht, hrun⟩ := sweepExpiredDeposits_expires db picked now
    exact ⟨t, ht, (pure_ok.1 h).symm.trans hrun⟩
  | invoiceExpired status amount =>
    obtain ⟨_, hprov, h⟩ := bind_ok.1 h
    obtain ⟨⟨db₁, r⟩, h, hdb⟩ := bind_ok.1 h
    cases pure_ok.1 hdb
    obtain ⟨o, ho, h⟩ := bind_ok.1 h
    rw [← not_not.1 (raiseIf_ok.1 hprov)] at ho
    rw [findWalletDeposit_row hj ho] at h
    obtain ⟨_, hj', h⟩ := bind_ok.1 h
    cases hrow.symm.trans hj'
    obtain ⟨t, ht, hrun⟩ := expireReported_expires hj
    exact ⟨t, ht, by rw [← hrun, pure_ok.1 h]⟩
  | crystalpay state amount reply now =>
    obtain ⟨_, hprov, h⟩ := bind_ok.1 h
    obtain ⟨⟨db₁, r⟩, h, hdb⟩ := bind_ok.1 h
    cases pure_ok.1 hdb
    have hdead : state.toLower ∈ deadStates .crystalpay := hx
    have hnot : state.toLower ≠ paidState .crystalpay := by
      intro hpaid
      rw [hpaid] at hdead
      exact absurd hdead (by decide)
    obtain ⟨o, ho, h⟩ := bind_ok.1 h
    rw [← not_not.1 (raiseIf_ok.1 hprov)] at ho
    rw [findWalletDeposit_row hj ho] at h
    obtain ⟨_, hj', h⟩ := bind_ok.1 h
    cases hrow.symm.trans hj'
    rw [if_neg hnot, if_pos hdead] at h
    obtain ⟨t, ht, hrun⟩ := expireReported_expires hj
    exact ⟨t, ht, by rw [← hrun, pure_ok.1 h]⟩
  | poll answer reply now =>
    cases answer with
    | error => exact absurd hx id
    | missing => exact absurd hx id
    | state s =>
      have hdead : s ∈ deadStates dep.provider := hx
      have hnot : s ≠ paidState dep.provider := by
        rintro rfl
        cases hprov : dep.provider <;> rw [hprov] at hdead <;> exact absurd hdead (by decide)
      obtain ⟨_, hj', h⟩ := bind_ok.1 h
      cases hrow.symm.trans hj'
      split at h
      · exact ⟨_, Expires.refl _, (pure_ok.1 h).symm⟩
      simp only [if_neg hnot, if_pos hdead] at h
      obtain ⟨_, hj', h⟩ := bind_ok.1 h
      cases hrow.symm.trans hj'
      split at h
      · exact ⟨_, Expires.refl _, (pure_ok.1 h).symm⟩
      · rename_i hp
        exact ⟨_, Expires.set hj (not_not.1 hp), (pure_ok.1 h).symm⟩

/-- After the payment the expiry goes through as well. -/
theorem DepositEvent.Expiry.run_paid {db₀ : Db} {e₁ : Db} (hx : e.Expiry dep.provider)
    (h₀ : e.run j dep.provider dep.provider_invoice_id db₀ = .ok e₁) (hj : db.wallet_deposits.row j = some dep)
    (hpaid : dep.status = .paid) (hs : SoleInvoice db j dep) :
    ∃ db', e.run j dep.provider dep.provider_invoice_id db = .ok db' := by
  have hrow : orRaise (db.wallet_deposits.row j) .no_result = .ok dep := orRaise_ok.2 hj
  obtain ⟨o, ho⟩ := (findWalletDeposit_isOk_iff hj).2 hs
  cases findWalletDeposit_row hj ho
  cases e with
  | invoicePaid _ _ _ _ => exact absurd hx id
  | refund => exact absurd hx id
  | sweep picked now => exact ⟨_, rfl⟩
  | invoiceExpired status amount =>
    obtain ⟨_, hprov, -⟩ := bind_ok.1 h₀
    rw [not_not.1 (raiseIf_ok.1 hprov)] at ho
    exact ⟨_, bind_ok.2 ⟨(), hprov, bind_ok.2 ⟨_, bind_ok.2 ⟨some j, ho, bind_ok.2 ⟨dep, hrow, rfl⟩⟩, rfl⟩⟩⟩
  | crystalpay state amount reply now =>
    obtain ⟨_, hprov, -⟩ := bind_ok.1 h₀
    rw [not_not.1 (raiseIf_ok.1 hprov)] at ho
    have hdead : state.toLower ∈ deadStates .crystalpay := hx
    have hnot : state.toLower ≠ paidState .crystalpay := by
      intro hp
      rw [hp] at hdead
      exact absurd hdead (by decide)
    have hrun : handleCrystalpayInvoice db ⟨some dep.provider_invoice_id, state, amount⟩ reply now =
        .ok (expireReported db j dep) := by
      refine bind_ok.2 ⟨some j, ho, bind_ok.2 ⟨dep, hrow, ?_⟩⟩
      rw [if_neg hnot, if_pos hdead]
      rfl
    exact ⟨_, bind_ok.2 ⟨(), hprov, bind_ok.2 ⟨_, hrun, rfl⟩⟩⟩
  | poll answer reply now =>
    refine ⟨db, bind_ok.2 ⟨dep, hrow, ?_⟩⟩
    rw [if_pos (by simp [hpaid])]
    rfl

/-- A deposit expires and is paid. If the payment comes first it is credited and
the expiry after it changes nothing; if the expiry comes first, the payment is
credited all the same by CryptoBot, and refused by Crystalpay. -/
theorem expiry_and_payment {s₁ q₁ : Db} (hj : db.wallet_deposits.row j = some dep) (hpending : dep.status = .pending)
    (hx : e.Expiry dep.provider) (hv : w.ValidFor dep)
    (he : e.run j dep.provider dep.provider_invoice_id db = .ok s₁) (hexp : (s₁.deposit j).map (·.1) = some .expired)
    (hw : (w.event dep.provider).run j dep.provider dep.provider_invoice_id db = .ok q₁) :
    creditDeposit db j (parsePaidAmount w.amount) w.reply w.now = .ok q₁ ∧
      (∃ q₂, e.run j dep.provider dep.provider_invoice_id q₁ = .ok q₂ ∧ SameSettlement j q₂ q₁ ∧
        (q₂.deposit j).map (·.1) = some .paid) ∧
      (dep.provider = .cryptobot → ∃ s₂, (w.event dep.provider).run j dep.provider dep.provider_invoice_id s₁ = .ok s₂ ∧
        creditDeposit s₁ j (parsePaidAmount w.amount) w.reply w.now = .ok s₂ ∧ SameSettlement j s₂ q₁) ∧
      (dep.provider = .crystalpay →
        handleCrystalpayInvoice s₁ ⟨some dep.provider_invoice_id, w.state, w.amount⟩ w.reply w.now =
          .ok (s₁, .refused "deposit not pending") ∧ s₁.books = db.books) := by
  have hunpaid : dep.status ≠ .paid := by simp [hpending]
  obtain ⟨hs, hc⟩ := (hv.run_iff hj hunpaid (by simp [hpending])).1 hw
  obtain ⟨b, amount, rep, ho, hb, hpaid⟩ := creditDeposit_outcome hj hunpaid hc
  obtain ⟨t, ht, rfl⟩ := hx.expires hj he
  obtain ⟨dep', hd, hjt⟩ : ∃ dep', dep' = { dep with status := .expired } ∧ t.row j = some dep' := by
    rcases ht.row j with hr | ⟨d, hd, -, hr⟩
    · have hrow : (db.withDeposits t).wallet_deposits.row j = some dep := hr.trans hj
      simp [Db.deposit, hrow, WalletDeposit.view, hpending] at hexp
    · cases hj.symm.trans hd
      exact ⟨_, rfl, hr⟩
  have hprov : dep'.provider = dep.provider := by rw [hd]
  have hid : dep'.provider_invoice_id = dep.provider_invoice_id := by rw [hd]
  have hst : dep'.status = .expired := by rw [hd]
  have hv' : w.ValidFor dep' := by rw [hd]; exact hv
  have hjs : (db.withDeposits t).wallet_deposits.row j = some dep' := hjt
  have hsole : SoleInvoice (db.withDeposits t) j dep' := by
    rw [hd]
    exact hs.congr ht.keysOf
  refine ⟨hc, ?_, ?_, ?_⟩
  · -- paid, then expired
    have hs₁ := creditDeposit_sole hj hunpaid hs hc
    obtain ⟨row, hrow, hp, hi, hst⟩ : ∃ row, q₁.wallet_deposits.row j = some row ∧ row.provider = dep.provider ∧
        row.provider_invoice_id = dep.provider_invoice_id ∧ row.status = .paid := by
      obtain ⟨_, hrow⟩ := hpaid
      exact ⟨_, hrow, rfl, rfl, rfl⟩
    rw [← hp] at hx
    rw [← hp, ← hi] at he ⊢
    rw [SoleInvoice, ← hp, ← hi] at hs₁
    obtain ⟨q₂, hq₂⟩ := hx.run_paid he hrow hst hs₁
    obtain ⟨t', ht', rfl⟩ := hx.expires hrow hq₂
    have hrow' : t'.row j = q₁.wallet_deposits.row j := by
      rcases ht'.row j with hr | ⟨d, hd, hp, -⟩
      · exact hr
      · cases hrow.symm.trans hd
        cases hst.symm.trans hp
    have hdep : (q₁.withDeposits t').deposit j = q₁.deposit j := congrArg (Option.map WalletDeposit.view) hrow'
    refine ⟨_, hq₂, ⟨rfl, hdep⟩, ?_⟩
    rw [hdep, Db.deposit, hrow]
    exact congrArg some hst
  · -- expired, then paid
    intro hcrypto
    obtain ⟨s₂, hs₂⟩ := creditDeposit_withDeposits hj hunpaid ht.keysOf hd hjt hc
    have hrun := (hv'.run_iff hjs (by simp [hst]) (by rw [hprov, hcrypto]; simp)).2 ⟨hsole, hs₂⟩
    rw [hprov, hid] at hrun
    refine ⟨s₂, hrun, hs₂, ?_⟩
    obtain ⟨b', amount', rep', ho', hb', hpaid'⟩ := creditDeposit_outcome hjs (by simp [hst]) hs₂
    have hsame : creditOutcome (db.withDeposits t) dep' (parsePaidAmount w.amount) =
        creditOutcome db dep (parsePaidAmount w.amount) := by
      rw [hd]
      rfl
    rw [hsame] at ho'
    cases ho.symm.trans ho'
    refine ⟨hb'.trans hb.symm, ?_⟩
    rw [hpaid'.deposit, hpaid.deposit]
  · intro hcrystal
    refine ⟨?_, rfl⟩
    have hrefused := hv'.refused hjs (hprov.trans hcrystal) hst hsole
    rwa [hid] at hrefused

end

/-- The sweep takes deposit 1 twenty minutes after it was created. -/
def sampleSweep : DepositEvent := .sweep [1] (seconds 1200)

/-- A payment of 10, in the words of the provider. -/
def sampleDelivery (provider : WalletDepositProvider) : Delivery := ⟨paidState provider, .number (.finite 10), .error "", 0⟩

theorem sampleExpiry_paid : ∃ s₁ q₁ s₂, sampleSweep.run 1 .cryptobot "IV1" (sampleDepositDb .wallet) = .ok s₁ ∧
    ((sampleDelivery .cryptobot).event .cryptobot).run 1 .cryptobot "IV1" (sampleDepositDb .wallet) = .ok q₁ ∧
      ((sampleDelivery .cryptobot).event .cryptobot).run 1 .cryptobot "IV1" s₁ = .ok s₂ ∧ SameSettlement 1 s₂ q₁ := by
  have hrow : (sampleDepositDb .wallet).wallet_deposits.row 1 = some (sampleDeposit .wallet) := rfl
  have hv : (sampleDelivery .cryptobot).ValidFor (sampleDeposit .wallet) := ⟨rfl, by decide +kernel⟩
  have hsweep : ∃ s₁, sampleSweep.run 1 .cryptobot "IV1" (sampleDepositDb .wallet) = .ok s₁ ∧
      (s₁.deposit 1).map (·.1) = some .expired := exists_ok (by decide +kernel)
  have hpay : ∃ q₁, ((sampleDelivery .cryptobot).event .cryptobot).run 1 .cryptobot "IV1" (sampleDepositDb .wallet) = .ok q₁ ∧
      True := exists_ok (by decide +kernel)
  obtain ⟨s₁, hs₁, hexp⟩ := hsweep
  obtain ⟨q₁, hq₁, -⟩ := hpay
  have hx : sampleSweep.Expiry .cryptobot := trivial
  obtain ⟨-, -, hcrypto, -⟩ := expiry_and_payment hrow rfl hx hv hs₁ hexp hq₁
  obtain ⟨s₂, hs₂, -, hsame⟩ := hcrypto rfl
  exact ⟨s₁, q₁, s₂, hs₁, hq₁, hs₂, hsame⟩

/-- The same deposit, issued by Crystalpay. -/
def sampleCrystalDb : Db :=
  { sampleDepositDb .wallet with
    wallet_deposits := Table.empty.insert { sampleDeposit .wallet with provider := .crystalpay } }

/-- Swept and then paid, the Crystalpay deposit stays expired with nothing
credited; paid and then swept, it is credited. -/
theorem crystalpay_order_matters : ∃ s₁ s₂ q₁ q₂, sampleSweep.run 1 .crystalpay "IV1" sampleCrystalDb = .ok s₁ ∧
    ((sampleDelivery .crystalpay).event .crystalpay).run 1 .crystalpay "IV1" s₁ = .ok s₂ ∧
      ((sampleDelivery .crystalpay).event .crystalpay).run 1 .crystalpay "IV1" sampleCrystalDb = .ok q₁ ∧
        sampleSweep.run 1 .crystalpay "IV1" q₁ = .ok q₂ ∧
          (s₂.deposit 1).map (·.1) = some .expired ∧ (s₂.balance 1 1).amount.val = 0 ∧
            (q₂.deposit 1).map (·.1) = some .paid ∧ (q₂.balance 1 1).amount.val = 10 := by
  have hruns : ∃ x : Db × Db × Db × Db, (do
      let s₁ ← sampleSweep.run 1 .crystalpay "IV1" sampleCrystalDb
      let s₂ ← ((sampleDelivery .crystalpay).event .crystalpay).run 1 .crystalpay "IV1" s₁
      let q₁ ← ((sampleDelivery .crystalpay).event .crystalpay).run 1 .crystalpay "IV1" sampleCrystalDb
      let q₂ ← sampleSweep.run 1 .crystalpay "IV1" q₁
      pure (s₁, s₂, q₁, q₂) : Result (Db × Db × Db × Db)) = .ok x ∧
        (x.2.1.deposit 1).map (·.1) = some .expired ∧ (x.2.1.balance 1 1).amount.val = 0 ∧
          (x.2.2.2.deposit 1).map (·.1) = some .paid ∧ (x.2.2.2.balance 1 1).amount.val = 10 := exists_ok (by decide +kernel)
  obtain ⟨⟨s₁, s₂, q₁, q₂⟩, hruns, hprops⟩ := hruns
  obtain ⟨s₁', hs₁, hruns⟩ := bind_ok.1 hruns
  obtain ⟨s₂', hs₂, hruns⟩ := bind_ok.1 hruns
  obtain ⟨q₁', hq₁, hruns⟩ := bind_ok.1 hruns
  obtain ⟨q₂', hq₂, hruns⟩ := bind_ok.1 hruns
  cases pure_ok.1 hruns
  exact ⟨_, _, _, _, hs₁, hs₂, hq₁, hq₂, hprops⟩

end Garant
