import Garant.Effects
/-!
# Every operation is a sequence of effects

One lemma for each operation, then `effects_of` for all that are one
transaction. `Flaws.of` says which irregular effects an operation can have in
a given state.
-/
open Decimal Relation

namespace Garant

section
variable {F : Flaws} {db db₁ db' : Db} {i u : ℕ} {d d' : Deal} {amt : ℚ} {now : Time}

/-! ## Admin settlements -/

/-- The approval gate writes only approval requests, and none when it lets the action pass. -/
theorem ensureApprovalOrCreate_ok {a c : ℕ} {action : String} {reason : Option String} {p : ApprovalPayload}
    {approval : Option ℕ} {r : Db × Gate} (h : ensureApprovalOrCreate db a i c action amt reason p approval = .ok r) :
    (∃ t, r.1 = { db with admin_approval_requests := t }) ∧ ∀ k, r.2 = .proceed k → r.1 = db := by
  simp only [ensureApprovalOrCreate] at h
  split at h
  · rw [← pure_ok.1 h]
    exact ⟨⟨_, rfl⟩, fun _ _ => rfl⟩
  split at h
  · rw [← pure_ok.1 h]
    exact ⟨⟨_, rfl⟩, fun _ _ => rfl⟩
  split at h
  · simp only [requestApproval] at h
    split at h
    · rw [← pure_ok.1 h]
      exact ⟨⟨_, rfl⟩, fun _ _ => rfl⟩
    · cases h
    · simp only [bind_ok, pure_ok] at h
      obtain ⟨_, -, _, -, rfl⟩ := h
      exact ⟨⟨_, rfl⟩, fun _ hk => by cases hk⟩
  · obtain ⟨_, -, h⟩ := bind_ok.1 h
    rw [← pure_ok.1 h]
    exact ⟨⟨_, rfl⟩, fun _ _ => rfl⟩

theorem markApprovalExecuted_eq (db : Db) (k : Option ℕ) (a : ℕ) (now : Time) :
    ∃ t, markApprovalExecuted db k a now = { db with admin_approval_requests := t } := by
  unfold markApprovalExecuted
  split
  · exact ⟨_, rfl⟩
  · split <;> exact ⟨_, rfl⟩

/-- A forced settlement waits for approval, or moves the money and closes the deal. -/
theorem forceSettle_cases {f : ForcedSettlement} {a : ℕ} {reason : Option String} {approval : Option ℕ}
    (h : forceSettle f db i a reason approval now = .ok db') :
    ∃ d c amt, db.deals.row i = some d ∧ isActiveForMoneyMovement d.status = true ∧
      db.currencies.row d.currency_id = some c ∧ quantizeMoney d.amount.val c.decimals = .ok amt ∧
      ((∃ t, db' = { db with admin_approval_requests := t }) ∨
        ∃ db₁ t, f.move db i d amt c.decimals = .ok db₁ ∧
          db' = { db₁.setDeal i
            { d with
              status := f.status, completed_at := some now, arbitration_resolved_by := some a,
              arbitration_resolution := some f.resolution,
              arbitration_resolved_at := d.arbitration_resolved_at <|> some now } with admin_approval_requests := t }) := by
  obtain ⟨⟨db₂, e⟩, htraced, hfst⟩ := map_ok.1 h
  obtain rfl : db₂ = db' := hfst
  simp only [forceSettleTraced, getDeal, bind_ok, orRaise_ok, raiseIf_ok] at htraced
  obtain ⟨d, hr, _, ha, c, hc, amt, hq, ⟨db₁, gate⟩, hg, hrest⟩ := htraced
  obtain ⟨ht, hp⟩ := ensureApprovalOrCreate_ok hg
  refine ⟨d, c, amt, hr, by simpa using ha, hc, hq, ?_⟩
  split at hrest
  · cases pure_ok.1 hrest
    exact .inl ht
  · rename_i hk
    obtain rfl : db₁ = db := hp _ hk
    simp only [bind_ok, pure_ok] at hrest
    obtain ⟨db₃, hm, hrest⟩ := hrest
    cases hrest
    obtain ⟨t, he⟩ := markApprovalExecuted_eq (db₃.setDeal i _) _ a now
    exact .inr ⟨db₃, t, hm, he⟩

/-- A forced settlement waits for approval, or settles the deal the way it says. -/
theorem forceSettle_ok {f : ForcedSettlement} {a : ℕ} {reason : Option String} {approval : Option ℕ}
    {G : ℚ → ℕ → Flow → Prop} (hf : isTerminal f.status = true)
    (hmove : ∀ {db db₁ d amt n}, f.move db i d amt n = .ok db₁ → ∃ flow, G amt n flow ∧ Payout db d amt flow db₁)
    (h : forceSettle f db i a reason approval now = .ok db') :
    (∃ t, db' = { db with admin_approval_requests := t }) ∨
      ∃ d amt c flow, db.currencies.row d.currency_id = some c ∧ quantizeMoney d.amount.val c.decimals = .ok amt ∧
        G amt c.decimals flow ∧ Settled db db' i d flow := by
  obtain ⟨d, c, amt, hr, ha, hc, hq, ht | ⟨db₂, t, hm, rfl⟩⟩ := forceSettle_cases h
  · exact .inl ht
  · obtain ⟨flow, hG, hpay⟩ := hmove hm
    exact .inr ⟨d, amt, c, flow, hc, hq, hG, hpay.settled hr ha ⟨c, hc, hq⟩ (.of_eq rfl rfl rfl rfl)
      rfl ⟨rfl, rfl, rfl, rfl⟩ hf⟩

theorem forceRelease_ok {a : ℕ} {reason : Option String} {approval : Option ℕ}
    (h : forceRelease db i a reason approval now = .ok db') :
    (∃ t, db' = { db with admin_approval_requests := t }) ∨ ∃ d, Settled db db' i d .release := by
  refine (forceSettle_ok (G := fun _ _ flow => flow = .release) rfl ?_ h).imp_right ?_
  · intro db db₁ d amt n hm
    obtain ⟨db₂, h₁, h₂⟩ := bind_ok.1 hm
    exact ⟨_, rfl, .release (dealRef_ne (by decide) (some i)) (dealRef_ne (by decide) (some i)) h₁ h₂⟩
  · rintro ⟨d, amt, c, flow, -, -, rfl, hs⟩
    exact ⟨d, hs⟩

theorem forceRefund_ok {a : ℕ} {reason : Option String} {approval : Option ℕ}
    (h : forceRefund db i a reason approval now = .ok db') :
    (∃ t, db' = { db with admin_approval_requests := t }) ∨ ∃ d, Settled db db' i d .refund := by
  refine (forceSettle_ok (G := fun _ _ flow => flow = .refund) rfl ?_ h).imp_right ?_
  · intro db db₁ d amt n hm
    exact ⟨_, rfl, .refund (dealRef_ne (by decide) (some i)) hm⟩
  · rintro ⟨d, amt, c, flow, -, -, rfl, hs⟩
    exact ⟨d, hs⟩

/-- A split pays the buyer the rounded share and the seller the rest. -/
theorem splitDeal_ok {a : ℕ} {percent : BodyDecimal} {reason : Option String} {approval : Option ℕ}
    (h : splitDeal db i a percent reason approval now = .ok db') :
    (∃ t, db' = { db with admin_approval_requests := t }) ∨
      ∃ d amt c p share, percentOk percent = .ok p ∧ db.currencies.row d.currency_id = some c ∧
        quantizeMoney d.amount.val c.decimals = .ok amt ∧ buyerShare amt p c.decimals = .ok share ∧
        Settled db db' i d (.split share) := by
  obtain ⟨p, hp, h⟩ := bind_ok.1 h
  refine (forceSettle_ok (G := fun amt n flow => ∃ share, buyerShare amt p n = .ok share ∧ flow = .split share)
    ?_ ?_ h).imp_right ?_
  · simp only [splitSettlement]
    split <;> rfl
  · intro db db₁ d amt n hm
    obtain ⟨share, hsh, hm⟩ := bind_ok.1 hm
    obtain ⟨db₂, h₁, h₂⟩ := bind_ok.1 hm
    exact ⟨_, ⟨share, hsh, rfl⟩, .split (dealRef_ne (by decide) (some i)) (dealRef_ne (by decide) (some i)) h₁ h₂⟩
  · rintro ⟨d, amt, c, flow, hc, hq, ⟨share, hsh, rfl⟩, hs⟩
    exact ⟨d, amt, c, p, share, hp, hc, hq, hsh, hs⟩

/-- Deletion refunds a deal that still holds funds, then removes the row. -/
theorem deleteDeal_ok (h : deleteDeal db i = .ok db') :
    ∃ d, db.deals.row i = some d ∧
      ((isActiveForMoneyMovement d.status = false ∨ db.currencies.row d.currency_id = none) ∧ db' = removeDeal db i ∨
        isActiveForMoneyMovement d.status = true ∧ ∃ amt bal db₁, Quantised db d amt ∧
          store (plus (db.balance d.buyer_id d.currency_id).amount.val amt) = .ok bal.amount ∧
          store (max 0 (minus (db.balance d.buyer_id d.currency_id).locked.val amt)) = .ok bal.locked ∧
          Moved (bal ≠ db.balance d.buyer_id d.currency_id) db db₁ d.buyer_id d.currency_id bal ∧
          db' = removeDeal db₁ i) := by
  simp only [deleteDeal, getDeal, bind_ok, orRaise_ok] at h
  obtain ⟨d, hr, h⟩ := h
  refine ⟨d, hr, ?_⟩
  split at h
  · exact .inl ⟨.inr ‹_›, (pure_ok.1 h).symm⟩
  · split at h
    · rename_i c hc ha
      simp only [bind_ok, pure_ok, balance_lockUserBalance] at h
      obtain ⟨amt, hq, db₁, hw, rfl⟩ := h
      obtain ⟨bal, hb, hl, hm⟩ := writeBalance_moved hw
      exact .inr ⟨ha, amt, bal, db₁, ⟨c, hc, hq⟩, hb, hl, hm, rfl⟩
    · rename_i ha
      exact .inl ⟨.inl (by simpa using ha), (pure_ok.1 h).symm⟩

/-! ## Creation -/

/-- The amount goes into the locked funds with the digits it is stored with.
It does whenever it has at most eight fractional digits. -/
def LocksAs (locked : Money) (x : ℚ) : Prop :=
  ∀ a, store x = .ok a → store (plus locked.val x) = store (plus locked.val a.val)

theorem locksAs_of_grid {x : ℚ} (hx : IsGrid 8 x) (locked : Money) : LocksAs locked x := by
  intro a ha
  rw [store_grid hx ha]

/-- The amount of a new deal, quantised to its currency, is locked with the digits it is stored with. -/
def FineAmount (db : Db) (buyer_id : ℕ) (code : String) (amount : Option ℚ) : Prop :=
  ∀ c cur raw amt, getCurrencyByCode db code = .ok (c, cur) → amount = some raw →
    quantizeMoney raw cur.decimals = .ok amt → LocksAs (db.balance buyer_id c).locked amt

theorem dealTerms_ok {b s : ℕ} {code : String} {amount : Option ℚ} {c : ℕ} {cur : Currency} {amt com : ℚ}
    (h : dealTerms db b s code amount = .ok (c, cur, amt, com)) :
    b ≠ s ∧ db.currencies.row c = some cur ∧ 0 < amt ∧ IsGrid cur.decimals amt ∧
      (∃ rate, (0 ≤ db.app_settings.deal_commission_percent.val → 0 ≤ rate) ∧ commissionOf amt rate cur.decimals = .ok com) ∧
      (FineAmount db b code amount → LocksAs (db.balance b c).locked amt) := by
  simp only [dealTerms, bind_ok, orRaise_ok, raiseIf_ok, pure_ok] at h
  obtain ⟨_, hbs, _, -, _, -, ⟨c', cur'⟩, hc, raw, hraw, _, -, amt', hq, _, hpos, com', hcom, h⟩ := h
  simp only [Prod.mk.injEq] at h
  obtain ⟨rfl, rfl, rfl, rfl⟩ := h
  refine ⟨hbs, getCurrencyByCode_ok hc, not_le.1 hpos, quantizeMoney_grid hq, ⟨_, ?_, hcom⟩,
    fun hf => hf _ _ _ _ hc hraw hq⟩
  intro hrate
  unfold resolveCommissionRate
  split
  · rename_i hvip
    exact hvip.1
  · exact hrate

theorem lockUserBalance_eq (db : Db) (u c : ℕ) : ∃ f, lockUserBalance db u c = { db with user_balances := f } := by
  unfold lockUserBalance
  split
  · exact ⟨_, rfl⟩
  · exact ⟨_, rfl⟩

theorem lockUserBalance_same (db : Db) (u c : ℕ) : SameMoney db (lockUserBalance db u c) := by
  obtain ⟨f, hf⟩ := lockUserBalance_eq db u c
  refine ⟨fun v d => balance_lockUserBalance db u c v d, ⟨[], ?_⟩, ?_, ?_⟩
  · simp [hf]
  · rw [hf]
  · rw [hf]

theorem newDeal_ok {amt : ℚ} {a com : Money} {b s c : ℕ} {cur : Currency} {st : DealStatus}
    {provider : String} {paid : Bool} (hc : db.currencies.row c = some cur) (hpos : 0 < amt)
    (hg : IsGrid cur.decimals amt) (ha : store amt = .ok a) :
    DealOk db.currencies (newDeal b s c a com st provider paid now) :=
  ⟨store_nonneg hpos.le ha, cur, hc, store_keeps_grid hg ha⟩

/-- A stored principal that was added to the locked funds backs the new deal. -/
theorem locked_backs {amt : ℚ} {a l old : Money} (hf : LocksAs old amt) (ha : store amt = .ok a)
    (hl : store (plus old.val amt) = .ok l) : l.val = old.val + a.val := by
  rw [hf a ha] at hl
  exact store_plus (Numeric.isGrid _) (Numeric.isGrid _) hl

theorem createDeal_effects {b s : ℕ} {code : String} {amount : Option ℚ} {provider : String}
    (hF : F.coarse ∨ FineAmount db b code amount) (h : createDeal db b s code amount provider now = .ok db') :
    Effects F db db' := by
  simp only [createDeal, bind_ok, pure_ok] at h
  obtain ⟨⟨c, cur, amt, com⟩, ht, db₁, hd, a, ha, com', -, rfl⟩ := h
  obtain ⟨-, hc, hpos, hg, -, hfine⟩ := dealTerms_ok ht
  obtain ⟨bal, hm, -, -, hl⟩ := debit_ok hd
  refine Effect.effects (.opened (d := newDeal b s c a com' .pending_confirmation provider true now) hm
    (.of_eq rfl rfl rfl rfl) ?_ rfl (newDeal_ok hc hpos hg ha) ?_)
  · rw [← hm.deals]
    rfl
  · exact hF.imp_right fun hf => locked_backs (hfine hf) ha hl

/-- Pointing a deposit and a deal at each other changes neither funds nor terms. -/
theorem linkDeposit_effect (db : Db) (k j : ℕ) : Effect F db (linkDeposit db k j) := by
  cases hr : db.deals.row k with
  | none => exact .idle (.of_eq rfl rfl rfl rfl) (by simp [linkDeposit, hr])
  | some d =>
    have hd : (linkDeposit db k j).deals = db.deals.set k { d with topup_deposit_id := some j } := by
      simp [linkDeposit, hr]
    exact .relabel (.of_eq rfl rfl rfl rfl) hr hd ⟨rfl, rfl, rfl, rfl⟩ (.inr rfl)

theorem createDepositInvoice_idle {code : String} {amount : ℚ} {purpose : Purpose} {provider : String} {m : Bool}
    {reply : InvoiceReply} {r : ℕ × Db}
    (h : createDepositInvoice db u code amount purpose provider m reply now = .ok r) :
    r.1 = db.wallet_deposits.next ∧ SameMoney db r.2 ∧ r.2.deals = db.deals := by
  obtain ⟨d, -, -, -, -, rfl⟩ := createDepositInvoice_ok h
  exact ⟨rfl, .of_eq rfl rfl rfl rfl, rfl⟩

theorem createDealWithTopup_effects {b s : ℕ} {code : String} {amount : Option ℚ} {provider : String}
    {reply : InvoiceReply} (hF : F.coarse ∨ FineAmount db b code amount)
    (h : createDealWithTopup db b s code amount provider reply now = .ok db') : Effects F db db' := by
  simp only [createDealWithTopup, bind_ok] at h
  obtain ⟨⟨c, cur, amt, com⟩, ht, needed, -, gap, -, total, -, a, ha, com', -, h⟩ := h
  obtain ⟨-, hc, hpos, hg, -, hfine⟩ := dealTerms_ok ht
  have hlock := lockUserBalance_same db b c
  have hlc : (lockUserBalance db b c).currencies.row c = some cur := by rw [hlock.currencies, hc]
  have hld : (lockUserBalance db b c).deals = db.deals := by
    obtain ⟨f, hf⟩ := lockUserBalance_eq db b c
    rw [hf]
  refine ReflTransGen.head (.idle hlock hld) ?_
  split at h
  · -- paid from the balance
    obtain ⟨bal, -, hl, hm⟩ := changeBalance_ok (dealRef_ne (by decide) _) h
    have hmoved : Moved False (lockUserBalance db b c) { db' with deals := (lockUserBalance db b c).deals } b c bal :=
      ⟨hm.balance, hm.ledger, rfl, hm.deposits, hm.withdrawals, hm.currencies, hm.users⟩
    refine Effect.effects (.opened (d := newDeal b s c a com' .pending_confirmation provider true now) hmoved
      (.of_eq rfl rfl rfl rfl) hm.deals rfl (newDeal_ok hlc hpos hg ha) ?_)
    refine hF.imp_right fun hf => locked_backs ?_ ha hl
    rw [balance_lockUserBalance]
    exact hfine hf
  · -- waiting for the invoice
    simp only [bind_ok, raiseIf_ok, pure_ok] at h
    obtain ⟨_, -, ⟨j, db₂⟩, hi, rfl⟩ := h
    obtain ⟨-, hs, hd⟩ := createDepositInvoice_idle hi
    have hsame : SameMoney (lockUserBalance db b c) db₂ := ⟨hs.balance, hs.ledger, hs.withdrawals, hs.currencies⟩
    exact ReflTransGen.tail (Effect.effects (.waiting (d := newDeal b s c a com' .pending_topup provider false now) hsame
      hd rfl (newDeal_ok hlc hpos hg ha))) (linkDeposit_effect _ _ _)

/-! ## Top-up payments -/

theorem issueRemainingTopupInvoice_effects {k : ℕ} {cur : Currency} {x : ℚ} {reply : InvoiceReply}
    (h : issueRemainingTopupInvoice db k d cur x reply now = .ok db') : Effects F db db' := by
  simp only [issueRemainingTopupInvoice, bind_ok] at h
  obtain ⟨_, -, _, -, _, -, h⟩ := h
  split at h
  · rw [pure_ok.1 h]
    exact .refl
  · simp only [bind_ok, pure_ok] at h
    obtain ⟨⟨j, db₁⟩, hi, rfl⟩ := h
    obtain ⟨-, hs, hd⟩ := createDepositInvoice_idle hi
    exact ReflTransGen.tail (Effect.effects (.idle hs hd)) (linkDeposit_effect _ _ _)

/-- The three ends of a payment for a waiting deal: less than the commission,
the commission but not enough for the amount, and activation. `bal` is the
buyer's balance afterwards and `db₁` the database with just that balance moved. -/
inductive TopupSettled (db : Db) (j : ℕ) (dep : WalletDeposit) (k : ℕ) (d : Deal) (cur : Currency) (paid amt due : ℚ)
    (rep : Money) (bal : UserBalance) (db₁ : Db) (reply : InvoiceReply) (now : Time) : Db → Prop
  | short {db' : Db} (hlt : paid < due)
      (ha : store (plus (db.balance d.buyer_id d.currency_id).amount.val paid) = .ok bal.amount)
      (hl : bal.locked = (db.balance d.buyer_id d.currency_id).locked)
      (hi : issueRemainingTopupInvoice (db₁.setDeposit j (dep.settle now (some rep))) k d cur
        (plus (db.balance d.buyer_id d.currency_id).amount.val paid) reply now = .ok db') :
      TopupSettled db j dep k d cur paid amt due rep bal db₁ reply now db'
  | partly {credit : ℚ} {d' : Deal} {db' : Db} (hle : due ≤ paid)
      (hq : quantizeMoney (minus paid due) cur.decimals = .ok credit)
      (hlt : plus (db.balance d.buyer_id d.currency_id).amount.val credit < amt)
      (ha : store (plus (db.balance d.buyer_id d.currency_id).amount.val credit) = .ok bal.amount)
      (hl : bal.locked = (db.balance d.buyer_id d.currency_id).locked)
      (hd : d' = { d with commission_paid := d.commission_paid || decide (0 < due) })
      (hi : issueRemainingTopupInvoice ((db₁.setDeal k d').setDeposit j (dep.settle now (some rep))) k d' cur
        (plus (db.balance d.buyer_id d.currency_id).amount.val credit) reply now = .ok db') :
      TopupSettled db j dep k d cur paid amt due rep bal db₁ reply now db'
  | activated {credit : ℚ} (hle : due ≤ paid) (hq : quantizeMoney (minus paid due) cur.decimals = .ok credit)
      (hge : amt ≤ plus (db.balance d.buyer_id d.currency_id).amount.val credit)
      (ha : store (minus (plus (db.balance d.buyer_id d.currency_id).amount.val credit) amt) = .ok bal.amount)
      (hl : store (plus (db.balance d.buyer_id d.currency_id).locked.val amt) = .ok bal.locked) :
      TopupSettled db j dep k d cur paid amt due rep bal db₁ reply now
        ((db₁.setDeal k { d with status := .pending_confirmation, commission_paid := true }).setDeposit j
          (dep.settle now (some rep)))

theorem settleTopup_ok {j k : ℕ} {dep : WalletDeposit} {cur : Currency} {paid : ℚ} {reply : InvoiceReply}
    (h : settleTopup db j dep k d cur paid reply now = .ok db') :
    ∃ amt due rep bal db₁, topupDue d cur = .ok (amt, due) ∧ store paid = .ok rep ∧
      Moved False db db₁ d.buyer_id d.currency_id bal ∧
      TopupSettled db j dep k d cur paid amt due rep bal db₁ reply now db' := by
  simp only [settleTopup, bind_ok] at h
  obtain ⟨⟨amt, due⟩, hdue, rep, hrep, h⟩ := h
  refine ⟨amt, due, rep, ?_⟩
  split at h
  · obtain ⟨db₁, hch, h⟩ := bind_ok.1 h
    obtain ⟨bal, ha, hl, hm⟩ := changeBalance_ok (depositRef_ne (by decide) _ _) hch
    rw [store_val, Except.ok.injEq] at hl
    exact ⟨bal, db₁, hdue, hrep, hm, .short ‹_› ha hl.symm h⟩
  · obtain ⟨credit, hq, h⟩ := bind_ok.1 h
    split at h
    · obtain ⟨db₁, hch, h⟩ := bind_ok.1 h
      obtain ⟨bal, ha, hl, hm⟩ := changeBalance_ok (depositRef_ne (by decide) _ _) hch
      rw [store_val, Except.ok.injEq] at hl
      exact ⟨bal, db₁, hdue, hrep, hm, .partly (not_lt.1 ‹_›) hq ‹_› ha hl.symm rfl h⟩
    · obtain ⟨db₁, hch, h⟩ := bind_ok.1 h
      obtain ⟨bal, ha, hl, hm⟩ := changeBalance_ok (depositRef_ne (by decide) _ _) hch
      rw [← pure_ok.1 h]
      exact ⟨bal, db₁, hdue, hrep, hm, .activated (not_lt.1 ‹_›) hq (not_lt.1 ‹_›) ha hl⟩

theorem topupDue_amt {cur : Currency} {due : ℚ} (h : topupDue d cur = .ok (amt, due)) :
    quantizeMoney d.amount.val cur.decimals = .ok amt := by
  simp only [topupDue, bind_ok, pure_ok, Prod.mk.injEq] at h
  obtain ⟨_, ha, _, -, rfl, -⟩ := h
  exact ha

theorem settleTopup_effects {j k : ℕ} {dep : WalletDeposit} {cur : Currency} {paid : ℚ} {reply : InvoiceReply}
    (hr : db.deals.row k = some d) (hs : d.status = .pending_topup) (hc : db.currencies.row d.currency_id = some cur)
    (h : settleTopup db j dep k d cur paid reply now = .ok db') : Effects F db db' := by
  obtain ⟨amt, due, rep, bal, db₁, hdue, -, hm, h⟩ := settleTopup_ok h
  have hcredit {db₂ : Db} (hl : bal.locked = (db.balance d.buyer_id d.currency_id).locked)
      (h₂ : Effects F db₁ db₂) : Effects F db db₂ :=
    ReflTransGen.head (.credit (hm.mono False.elim) hl) h₂
  cases h with
  | short _ _ hl hi =>
    refine hcredit hl (ReflTransGen.head ?_ (issueRemainingTopupInvoice_effects hi))
    exact .idle (.of_eq rfl rfl rfl rfl) rfl
  | partly _ _ _ _ hl hd hi =>
    refine hcredit hl (ReflTransGen.head ?_ (issueRemainingTopupInvoice_effects hi))
    refine .relabel (d := d) (.of_eq rfl rfl rfl rfl) (by rw [hm.deals, hr]) rfl ?_ (.inr ?_)
    · rw [hd]
      exact ⟨rfl, rfl, rfl, rfl⟩
    · rw [hd]
  | activated _ _ _ _ hl =>
    have hactive : isActiveForMoneyMovement d.status = false := by
      rw [hs]
      rfl
    have hset : (db₁.setDeal k { d with status := .pending_confirmation, commission_paid := true }).deals =
        db.deals.set k { d with status := .pending_confirmation, commission_paid := true } := by
      rw [← hm.deals]
      rfl
    exact Effect.effects (.activated hm (.of_eq rfl rfl rfl rfl) hr hset ⟨rfl, rfl, rfl, rfl⟩ hactive rfl
      ⟨cur, hc, topupDue_amt hdue⟩ hl)

theorem completeDealTopupPayment_effects {j : ℕ} {paid : Option ℚ} {reply : InvoiceReply}
    (h : completeDealTopupPayment db j paid reply now = .ok db') : Effects F db db' := by
  have hidle {dep : WalletDeposit} {db' : Db} (h : settleUnattached db j dep paid now = .ok db') : Effects F db db' := by
    obtain ⟨_, -, h⟩ := bind_ok.1 h
    rw [← pure_ok.1 h]
    exact Effect.effects (.idle (.of_eq rfl rfl rfl rfl) rfl)
  simp only [completeDealTopupPayment, bind_ok, orRaise_ok] at h
  obtain ⟨dep, -, h⟩ := h
  split at h
  · rw [pure_ok.1 h]
    exact .refl
  split at h
  · exact hidle h
  split at h
  · exact hidle h
  · simp only [bind_ok, orRaise_ok] at h
    obtain ⟨cur, hc, p, -, h⟩ := h
    split at h
    · exact settleTopup_effects ‹_› ‹_› hc h
    · obtain ⟨db₁, hcr, h⟩ := bind_ok.1 h
      obtain ⟨rep, -, h⟩ := bind_ok.1 h
      obtain ⟨bal, hm, hl, -⟩ := creditAmount_ok (depositRef_ne (by decide) _ _) hcr
      rw [← pure_ok.1 h]
      exact ReflTransGen.head (.credit (hm.mono False.elim) hl)
        (Effect.effects (.idle (.of_eq rfl rfl rfl rfl) rfl))

/-- Expiring the linked deposit touches deposits only. -/
theorem expireTopupDeposit_eq (db : Db) (d : Deal) :
    ∃ t, expireTopupDeposit db d = { db with wallet_deposits := t } := by
  unfold expireTopupDeposit
  split
  · exact ⟨_, rfl⟩
  split
  · exact ⟨_, rfl⟩
  split
  · exact ⟨_, rfl⟩
  · exact ⟨_, rfl⟩

theorem closeTopup_effect {t : Table WalletDeposit} (hr : db.deals.row i = some d) (hs : d.status = .pending_topup)
    {st : DealStatus} (hst : isActiveForMoneyMovement st = false) :
    Effect F db ({ db with wallet_deposits := t }.setDeal i { d with status := st, completed_at := some now }) := by
  refine .relabel (.of_eq rfl rfl rfl rfl) hr rfl ⟨rfl, rfl, rfl, rfl⟩ (.inr ?_)
  rw [hs]
  exact hst

theorem cancelPendingTopup_effects (h : cancelPendingTopup db i u now = .ok db') : Effects F db db' := by
  simp only [cancelPendingTopup, getDeal, bind_ok, orRaise_ok, raiseIf_ok, pure_ok] at h
  obtain ⟨d, hr, _, -, _, hs, rfl⟩ := h
  obtain ⟨t, ht⟩ := expireTopupDeposit_eq db d
  rw [ht]
  exact (closeTopup_effect hr (not_not.1 hs) rfl).effects

/-! ## Sweeps -/

/-- A sweep applies one step to each row it picked, and each step leaves the other rows alone. -/
theorem sweep_effects {P : Deal → Prop} {f : Db → ℕ → Result Db} {rows : List ℕ}
    (hf : ∀ db db' i d, db.deals.row i = some d → P d → f db i = .ok db' →
      Effects F db db' ∧ ∀ j, j ≠ i → db'.deals.row j = db.deals.row j)
    (hn : rows.Nodup) (hrows : ∀ i ∈ rows, ∃ d, db.deals.row i = some d ∧ P d) (h : rows.foldlM f db = .ok db') :
    Effects F db db' := by
  induction rows generalizing db with
  | nil =>
    rw [List.foldlM_nil] at h
    rw [pure_ok.1 h]
    exact .refl
  | cons i rows ih =>
    rw [List.foldlM_cons] at h
    obtain ⟨db₁, h₁, h⟩ := bind_ok.1 h
    obtain ⟨d, hd, hP⟩ := hrows i List.mem_cons_self
    obtain ⟨he, hother⟩ := hf _ _ _ _ hd hP h₁
    have hi := (List.nodup_cons.1 hn).1
    refine he.trans (ih (List.nodup_cons.1 hn).2 ?_ h)
    intro j hj
    rw [hother j fun hji => hi (hji ▸ hj)]
    exact hrows j (List.mem_cons_of_mem _ hj)

/-- The rows a locking `SELECT` returns all match it. -/
theorem picked_rows {α : Type} {t : Table α} {picked : List ℕ} {p : α → Bool} :
    ∀ i ∈ picked.dedup.filter (fun i => (t.row i).any p), ∃ r, t.row i = some r ∧ p r = true := by
  intro i hi
  exact (Option.any_eq_true _ _).1 (List.mem_filter.1 hi).2

theorem sweepPendingTopup_effects {picked : List ℕ} (h : sweepPendingTopup db picked now = .ok db') :
    Effects F db db' := by
  unfold sweepPendingTopup at h
  extract_lets hrs rows at h
  by_cases h0 : hrs ≤ 0
  · rw [if_pos h0] at h
    rw [pure_ok.1 h]
    exact .refl
  rw [if_neg h0] at h
  refine sweep_effects (P := fun d => d.status = .pending_topup) ?_ ((List.nodup_dedup _).filter _) ?_ h
  · intro db db' i d hr hs h
    simp only [sweepPendingTopupDeal, getDeal, bind_ok, orRaise_ok, pure_ok] at h
    obtain ⟨d', hr', rfl⟩ := h
    obtain rfl : d = d' := Option.some.inj (hr.symm.trans hr')
    obtain ⟨t, ht⟩ := expireTopupDeposit_eq db d
    rw [ht]
    exact ⟨(closeTopup_effect hr hs rfl).effects, fun j hj => Table.set_row_ne hj⟩
  · intro i hi
    obtain ⟨d, hr, hp⟩ := picked_rows i hi
    simp only [decide_eq_true_eq] at hp
    exact ⟨d, hr, hp.1⟩

/-- The deals the inactivity sweep picks hold funds. -/
theorem inactive_active {s : AppSettings} (h : inactive s now d = true) : isActiveForMoneyMovement d.status = true := by
  simp only [inactive, decide_eq_true_eq] at h
  rcases h with ⟨hs, -⟩ | ⟨hs, -⟩ <;> rw [hs] <;> rfl

theorem Settled.other_rows {flow : Flow} (h : Settled db db' i d flow) (j : ℕ) (hj : j ≠ i) :
    db'.deals.row j = db.deals.row j := by
  obtain ⟨d', hd, -⟩ := h.closed
  rw [hd, Table.set_row_ne hj]

theorem sweepInactivity_effects {picked : List ℕ} (h : sweepInactivity db picked now = .ok db') : Effects F db db' := by
  refine sweep_effects (P := fun d => isActiveForMoneyMovement d.status = true) ?_ ((List.nodup_dedup _).filter _) ?_ h
  · intro db db' i d hr ha h
    rcases sweepInactivityDeal_ok hr ha h with hs | ⟨-, rfl⟩
    · exact ⟨Effect.effects (.settled hs), hs.other_rows⟩
    · exact ⟨.refl, fun _ _ => rfl⟩
  · intro i hi
    obtain ⟨d, hr, hp⟩ := picked_rows i hi
    exact ⟨d, hr, inactive_active hp⟩

/-! ## Relabelling -/

/-- Writing a deal's row changes no funds; only entering or leaving the active statuses would matter. -/
theorem setDeal_effect (hr : db.deals.row i = some d) (ht : SameTerms d d')
    (ha : F.seizes ∨ isActiveForMoneyMovement d'.status = isActiveForMoneyMovement d.status) :
    Effect F db (db.setDeal i d') :=
  .relabel (.of_eq rfl rfl rfl rfl) hr rfl ht ha

theorem updateUsers_effect (db : Db) (ids : List ℕ) (f : User → User) : Effect F db (db.updateUsers ids f) :=
  .idle (.of_eq rfl rfl rfl rfl) rfl

theorem setApproval_effect (db : Db) (k : ℕ) (a : AdminApprovalRequest) : Effect F db (db.setApproval k a) :=
  .idle (.of_eq rfl rfl rfl rfl) rfl

theorem acceptDeal_effects (h : acceptDeal db i u now = .ok db') : Effects F db db' := by
  simp only [acceptDeal, getDeal, bind_ok, orRaise_ok, raiseIf_ok, pure_ok] at h
  obtain ⟨d, hr, _, -, _, hs, rfl⟩ := h
  refine ReflTransGen.head (setDeal_effect hr ?_ (.inr ?_)) (updateUsers_effect _ _ _).effects
  · exact ⟨rfl, rfl, rfl, rfl⟩
  · rw [not_not.1 hs]
    rfl

theorem requestCancel_effects {reason : String} (h : requestCancel db i u reason now = .ok db') : Effects F db db' := by
  simp only [requestCancel, getDeal, bind_ok, orRaise_ok, raiseIf_ok, pure_ok] at h
  obtain ⟨d, hr, _, -, _, hs, rfl⟩ := h
  refine Effect.effects (setDeal_effect hr ?_ (.inr ?_))
  · exact ⟨rfl, rfl, rfl, rfl⟩
  · rw [not_not.1 hs]
    rfl

theorem revokeCancel_effects (h : revokeCancel db i u = .ok db') : Effects F db db' := by
  simp only [revokeCancel, getDeal, bind_ok, orRaise_ok, raiseIf_ok, pure_ok] at h
  obtain ⟨d, hr, _, hs, _, -, rfl⟩ := h
  refine Effect.effects (setDeal_effect hr ?_ (.inr ?_))
  · exact ⟨rfl, rfl, rfl, rfl⟩
  · rw [not_not.1 hs]
    rfl

theorem startArbitration_effects {reason : String} (h : startArbitration db i u reason = .ok db') :
    Effects F db db' := by
  simp only [startArbitration, getDeal, bind_ok, orRaise_ok, raiseIf_ok, pure_ok] at h
  obtain ⟨d, hr, _, -, _, hs, _, -, rfl⟩ := h
  refine ReflTransGen.head (setDeal_effect hr ?_ (.inr ?_)) (updateUsers_effect _ _ _).effects
  · exact ⟨rfl, rfl, rfl, rfl⟩
  · have hs' : d.status = .in_progress ∨ d.status = .pending_cancellation := by tauto
    rcases hs' with hs' | hs' <;> rw [hs'] <;> rfl

/-- Forced arbitration of a deal that is neither settled nor holding funds. -/
def SeizesDeal (db : Db) (i : ℕ) : Prop :=
  ∃ d, db.deals.row i = some d ∧ isTerminal d.status = false ∧ isActiveForMoneyMovement d.status = false

theorem forceArbitration_effects {a : ℕ} {reason : Option String} (hF : SeizesDeal db i → F.seizes)
    (h : forceArbitration db i a reason = .ok db') : Effects F db db' := by
  simp only [forceArbitration, getDeal, bind_ok, orRaise_ok, raiseIf_ok] at h
  obtain ⟨d, hr, _, ht, h⟩ := h
  split at h
  · rw [pure_ok.1 h]
    exact .refl
  · rw [← pure_ok.1 h]
    refine Effect.effects (setDeal_effect hr ?_ ?_)
    · exact ⟨rfl, rfl, rfl, rfl⟩
    by_cases ha : isActiveForMoneyMovement d.status = true
    · exact .inr ha.symm
    · exact .inl (hF ⟨d, hr, by simpa using ht, by simpa using ha⟩)

theorem assignArbiter_effects {a : Option ℕ} (h : assignArbiter db i a = .ok db') : Effects F db db' := by
  simp only [assignArbiter, getDeal, bind_ok, orRaise_ok, raiseIf_ok] at h
  obtain ⟨d, hr, _, hs, h⟩ := h
  have key (h : (if d.arbitration_resolved_by = a then pure db
      else pure (db.setDeal i { d with arbitration_resolved_by := a }) : Result Db) = .ok db') : Effects F db db' := by
    split at h
    · rw [pure_ok.1 h]
      exact .refl
    · rw [← pure_ok.1 h]
      refine Effect.effects (setDeal_effect hr ?_ (.inr ?_))
      · exact ⟨rfl, rfl, rfl, rfl⟩
      · rfl
  split at h
  · exact key h
  · simp only [bind_ok] at h
    obtain ⟨_, -, _, -, h⟩ := h
    exact key h

theorem approveDealApproval_effects {a : ℕ} (h : approveDealApproval db i a now = .ok db') : Effects F db db' := by
  simp only [approveDealApproval, bind_ok, pure_ok] at h
  obtain ⟨_, -, _, -, _, -, rfl⟩ := h
  exact (setApproval_effect _ _ _).effects

theorem rejectDealApproval_effects (h : rejectDealApproval db i now = .ok db') : Effects F db db' := by
  simp only [rejectDealApproval, bind_ok, pure_ok] at h
  obtain ⟨_, -, _, -, rfl⟩ := h
  exact (setApproval_effect _ _ _).effects

/-! ## Settlement and deletion -/

theorem Settled.effects {flow : Flow} (h : Settled db db' i d flow) : Effects F db db' := Effect.effects (.settled h)

/-- A forced settlement that waits for approval is idle. -/
theorem held_or_settled {flow : Flow}
    (h : (∃ t, db' = { db with admin_approval_requests := t }) ∨ ∃ d, Settled db db' i d flow) : Effects F db db' := by
  rcases h with ⟨t, rfl⟩ | ⟨d, hs⟩
  · exact Effect.effects (.idle (.of_eq rfl rfl rfl rfl) rfl)
  · exact hs.effects

/-- Taking `x` out of the locked funds and adding `y` to the spendable ones changes the row. -/
def UserBalance.Moves (b : UserBalance) (x y : ℚ) : Prop := y ≠ 0 ∨ max 0 (minus b.locked.val x) ≠ b.locked.val

/-- A write that moves nothing stores the row that was there. -/
theorem eq_of_not_moves {old bal : UserBalance} {x y : ℚ} (hm : ¬old.Moves x y)
    (ha : store (plus old.amount.val y) = .ok bal.amount) (hl : store (max 0 (minus old.locked.val x)) = .ok bal.locked) :
    bal = old := by
  simp only [UserBalance.Moves, not_or, not_not] at hm
  rw [hm.1, plus_zero_val, store_val, Except.ok.injEq] at ha
  rw [hm.2, store_val, Except.ok.injEq] at hl
  cases old
  cases bal
  simp only at ha hl
  rw [ha, hl]

/-- Deletion of an active deal that moves its buyer's funds. -/
def DeletesFunds (db : Db) (i : ℕ) : Prop :=
  ∃ d amt, db.deals.row i = some d ∧ isActiveForMoneyMovement d.status = true ∧ Quantised db d amt ∧
    (db.balance d.buyer_id d.currency_id).Moves amt amt

theorem deleteDeal_effects (hF : DeletesFunds db i → F.silent) (h : deleteDeal db i = .ok db') : Effects F db db' := by
  obtain ⟨d, hr, ⟨ha, rfl⟩ | ⟨ha, amt, bal, db₁, hq, hb, hl, hm, rfl⟩⟩ := deleteDeal_ok h
  · exact Effect.effects (.removed (.of_eq rfl rfl rfl rfl) hr rfl ha)
  · refine Effect.effects (.removedActive (d := d) (hm.mono ?_) (.of_eq rfl rfl rfl rfl) hr ?_ ha hq hl)
    · intro hne
      exact hF ⟨d, amt, hr, ha, hq, by_contra fun hn => hne (eq_of_not_moves hn hb hl)⟩
    · rw [← hm.deals]
      rfl

end

end Garant
