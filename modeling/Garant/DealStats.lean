import Garant.DealLife
/-!
# The public counters of a user

`deals_total` counts the deals a user takes part in from their acceptance,
`deals_success` and `deals_failed` how they ended. `stats_consistent` says that
no more deals end than are counted, as long as no dispute is decided over a
deal that was never accepted.
-/
open Decimal

namespace Garant

/-- The three counters. -/
structure DealStats where
  total : ℕ
  success : ℕ
  failed : ℕ
deriving DecidableEq

def User.dealStats (user : User) : DealStats := ⟨user.deals_total, user.deals_success, user.deals_failed⟩

def Db.dealStats (db : Db) (user_id : ℕ) : Option DealStats := (db.users.row user_id).map User.dealStats

/-- How many deals of the user were counted, and how many ended in a counted way. -/
def Db.total (db : Db) (user_id : ℕ) : ℕ := (db.dealStats user_id).elim 0 (·.total)
def Db.ended (db : Db) (user_id : ℕ) : ℕ := (db.dealStats user_id).elim 0 fun s => s.success + s.failed

/-! ## Operations that count nothing -/

section
variable {db db₁ db' : Db} {i j k u : ℕ} {d : Deal} {now : Time}

theorem dealStats_of_users (h : db'.users = db.users) : db'.dealStats = db.dealStats := by
  funext u
  rw [Db.dealStats, Db.dealStats, h]

@[simp] theorem setDeposit_dealStats (db : Db) (j : ℕ) (dep : WalletDeposit) :
    (db.setDeposit j dep).dealStats = db.dealStats := rfl

@[simp] theorem setDeal_dealStats (db : Db) (k : ℕ) (d : Deal) : (db.setDeal k d).dealStats = db.dealStats := rfl

@[simp] theorem linkDeposit_dealStats (db : Db) (k j : ℕ) : (linkDeposit db k j).dealStats = db.dealStats := rfl

theorem Moved.dealStats {silent : Prop} {c : ℕ} {bal : UserBalance} (h : Moved silent db db' u c bal) :
    db'.dealStats = db.dealStats := dealStats_of_users h.users

theorem Payout.dealStats {amt : ℚ} {flow : Flow} (h : Payout db d amt flow db₁) : db₁.dealStats = db.dealStats :=
  dealStats_of_users h.frame.2.2.2.2

theorem createDepositInvoice_stats {code provider : String} {amount : ℚ} {purpose : Purpose} {m : Bool}
    {reply : InvoiceReply} {r : ℕ × Db} (h : createDepositInvoice db u code amount purpose provider m reply now = .ok r) :
    r.2.dealStats = db.dealStats := by
  obtain ⟨dep, -, -, -, -, rfl⟩ := createDepositInvoice_ok h
  rfl

theorem createDeal_stats {b s : ℕ} {code provider : String} {amount : Option ℚ}
    (h : createDeal db b s code amount provider now = .ok db') : db'.dealStats = db.dealStats := by
  simp only [createDeal, bind_ok, pure_ok] at h
  obtain ⟨_, -, db₁, hd, _, -, _, -, rfl⟩ := h
  obtain ⟨bal, hm, -, -, -⟩ := debit_ok hd
  rw [← hm.dealStats]
  rfl

theorem createDealWithTopup_stats {b s : ℕ} {code provider : String} {amount : Option ℚ} {reply : InvoiceReply}
    (h : createDealWithTopup db b s code amount provider reply now = .ok db') : db'.dealStats = db.dealStats := by
  simp only [createDealWithTopup, bind_ok] at h
  obtain ⟨⟨c, cur, amt, com⟩, -, _, -, _, -, _, -, _, -, _, -, h⟩ := h
  obtain ⟨f, hf⟩ := lockUserBalance_eq db b c
  rw [hf] at h
  split at h
  · obtain ⟨bal, -, -, hm⟩ := changeBalance_ok (dealRef_ne (by decide) _) h
    exact hm.dealStats
  · simp only [bind_ok, pure_ok] at h
    obtain ⟨_, -, ⟨j, db₂⟩, hi, rfl⟩ := h
    have hstats := createDepositInvoice_stats hi
    rw [linkDeposit_dealStats, hstats]
    rfl

theorem issueRemainingTopupInvoice_stats {cur : Currency} {x : ℚ} {reply : InvoiceReply}
    (h : issueRemainingTopupInvoice db k d cur x reply now = .ok db') : db'.dealStats = db.dealStats := by
  simp only [issueRemainingTopupInvoice, bind_ok] at h
  obtain ⟨_, -, _, -, _, -, h⟩ := h
  split at h
  · rw [← pure_ok.1 h]
  · simp only [bind_ok, pure_ok] at h
    obtain ⟨⟨j, db₁⟩, hi, rfl⟩ := h
    rw [linkDeposit_dealStats, createDepositInvoice_stats hi]

theorem settleTopup_stats {dep : WalletDeposit} {cur : Currency} {paid : ℚ} {reply : InvoiceReply}
    (h : settleTopup db j dep k d cur paid reply now = .ok db') : db'.dealStats = db.dealStats := by
  obtain ⟨amt, due, rep, bal, db₁, -, -, hm, h⟩ := settleTopup_ok h
  rw [← hm.dealStats]
  cases h with
  | short _ _ _ hi => rw [issueRemainingTopupInvoice_stats hi, setDeposit_dealStats]
  | partly _ _ _ _ _ _ hi => rw [issueRemainingTopupInvoice_stats hi, setDeposit_dealStats, setDeal_dealStats]
  | activated => rw [setDeposit_dealStats, setDeal_dealStats]

theorem completeDealTopupPayment_stats {paid : Option ℚ} {reply : InvoiceReply}
    (h : completeDealTopupPayment db j paid reply now = .ok db') : db'.dealStats = db.dealStats := by
  have halone {dep : WalletDeposit} {db' : Db} (h : settleUnattached db j dep paid now = .ok db') :
      db'.dealStats = db.dealStats := by
    obtain ⟨_, -, h⟩ := bind_ok.1 h
    rw [← pure_ok.1 h]
    rfl
  simp only [completeDealTopupPayment, bind_ok] at h
  obtain ⟨dep, -, h⟩ := h
  split at h
  · rw [pure_ok.1 h]
  split at h
  · exact halone h
  split at h
  · exact halone h
  simp only [bind_ok] at h
  obtain ⟨cur, -, p, -, h⟩ := h
  split at h
  · exact settleTopup_stats h
  · obtain ⟨db₁, hcr, h⟩ := bind_ok.1 h
    obtain ⟨rep, -, h⟩ := bind_ok.1 h
    obtain ⟨bal, hm, -, -⟩ := creditAmount_ok (depositRef_ne (by decide) _ _) hcr
    rw [← pure_ok.1 h]
    exact hm.dealStats

/-- The trust balance is not one of the counters. -/
theorem creditBalance_stats {dep : WalletDeposit} {x : ℚ} (h : creditBalance db j dep x = .ok db') :
    db'.dealStats = db.dealStats := by
  unfold creditBalance at h
  split at h
  · simp only [creditTrust, recordSyntheticLedger, bind_ok, orRaise_ok] at h
    obtain ⟨user, hu, trust, -, h⟩ := h
    have hset : (db.setUser dep.user_id { user with trust_deposit_balance := trust }).dealStats = db.dealStats := by
      funext v
      simp only [Db.dealStats, Db.setUser, Table.set_row hu]
      split
      · rename_i hv
        rw [hv, hu]
        rfl
      · rfl
    split at h
    · rw [← pure_ok.1 h]
      exact hset
    · simp only [bind_ok, pure_ok] at h
      obtain ⟨_, -, _, -, _, -, rfl⟩ := h
      exact hset
  · obtain ⟨bal, hm, -, -⟩ := creditAmount_ok (depositRef_ne (by decide) _ _) h
    exact hm.dealStats

theorem creditDeposit_stats {paid : Option Number} {reply : InvoiceReply}
    (h : creditDeposit db j paid reply now = .ok db') : db'.dealStats = db.dealStats := by
  simp only [creditDeposit, bind_ok] at h
  obtain ⟨dep, -, h⟩ := h
  split at h
  · rw [pure_ok.1 h]
  simp only [bind_ok] at h
  obtain ⟨nominal, -, reported, -, h⟩ := h
  split at h
  · exact completeDealTopupPayment_stats h
  · simp only [bind_ok, pure_ok] at h
    obtain ⟨db₁, hcr, _, -, _, -, rfl⟩ := h
    rw [setDeposit_dealStats, creditBalance_stats hcr]

theorem creditReported_stats {dep : WalletDeposit} {amount : Reported} {reply : InvoiceReply} {r : Db × Handled}
    (h : creditReported db j dep amount reply now = .ok r) : r.1.dealStats = db.dealStats := by
  obtain ⟨accepted, -, h⟩ := bind_ok.1 h
  split at h
  · rw [← pure_ok.1 h]
  · obtain ⟨db₁, hc, h⟩ := bind_ok.1 h
    rw [← pure_ok.1 h]
    exact creditDeposit_stats hc

theorem expireReported_stats (db : Db) (j : ℕ) (dep : WalletDeposit) :
    (expireReported db j dep).1.dealStats = db.dealStats := by
  unfold expireReported
  split <;> rfl

theorem handleInvoicePaid_stats {payload : InvoicePayload} {reply : InvoiceReply} {r : Db × Handled}
    (h : handleInvoicePaid db payload reply now = .ok r) : r.1.dealStats = db.dealStats := by
  unfold handleInvoicePaid at h
  split at h
  · rw [← pure_ok.1 h]
  split at h
  · rw [← pure_ok.1 h]
  obtain ⟨o, -, h⟩ := bind_ok.1 h
  split at h
  · rw [← pure_ok.1 h]
  obtain ⟨dep, -, h⟩ := bind_ok.1 h
  split at h
  · rw [← pure_ok.1 h]
  · exact creditReported_stats h

theorem handleInvoiceExpired_stats {payload : InvoicePayload} {r : Db × Handled}
    (h : handleInvoiceExpired db payload = .ok r) : r.1.dealStats = db.dealStats := by
  unfold handleInvoiceExpired at h
  split at h
  · rw [← pure_ok.1 h]
  obtain ⟨o, -, h⟩ := bind_ok.1 h
  split at h
  · rw [← pure_ok.1 h]
  · obtain ⟨dep, -, h⟩ := bind_ok.1 h
    rw [← pure_ok.1 h]
    exact expireReported_stats _ _ _

theorem handleCrystalpayInvoice_stats {payload : InvoicePayload} {reply : InvoiceReply} {r : Db × Handled}
    (h : handleCrystalpayInvoice db payload reply now = .ok r) : r.1.dealStats = db.dealStats := by
  unfold handleCrystalpayInvoice at h
  split at h
  · rw [← pure_ok.1 h]
  obtain ⟨o, -, h⟩ := bind_ok.1 h
  split at h
  · rw [← pure_ok.1 h]
  obtain ⟨dep, -, h⟩ := bind_ok.1 h
  split at h
  · split at h
    · rw [← pure_ok.1 h]
    split at h
    · rw [← pure_ok.1 h]
    · exact creditReported_stats h
  split at h
  · rw [← pure_ok.1 h]
    exact expireReported_stats _ _ _
  · rw [← pure_ok.1 h]

theorem pollDepositStatus_stats {answer : PollReply} {reply : InvoiceReply}
    (h : pollDepositStatus db j answer reply now = .ok db') : db'.dealStats = db.dealStats := by
  obtain ⟨dep, -, h⟩ := bind_ok.1 h
  split at h
  · rw [← pure_ok.1 h]
  split at h
  · rw [← pure_ok.1 h]
  · rw [← pure_ok.1 h]
  split at h
  · obtain ⟨_, -, h⟩ := bind_ok.1 h
    split at h
    · rw [← pure_ok.1 h]
    · exact creditDeposit_stats h
  split at h
  · obtain ⟨_, -, h⟩ := bind_ok.1 h
    split at h
    · rw [← pure_ok.1 h]
    · rw [← pure_ok.1 h]
      rfl
  · rw [← pure_ok.1 h]

/-- What every turn of a sweep leaves alone, the sweep does. -/
theorem foldlM_stats {f : Db → ℕ → Result Db} {rows : List ℕ}
    (hf : ∀ db db' i, f db i = .ok db' → db'.dealStats = db.dealStats) (h : rows.foldlM f db = .ok db') :
    db'.dealStats = db.dealStats := by
  induction rows generalizing db with
  | nil =>
    rw [List.foldlM_nil] at h
    rw [← pure_ok.1 h]
  | cons i rows ih =>
    rw [List.foldlM_cons] at h
    obtain ⟨db₁, h₁, h⟩ := bind_ok.1 h
    rw [ih h, hf _ _ _ h₁]

theorem expireTopupDeposit_stats (db : Db) (d : Deal) : (expireTopupDeposit db d).dealStats = db.dealStats := by
  obtain ⟨t, ht⟩ := expireTopupDeposit_eq db d
  rw [ht]
  rfl

theorem sweepPendingTopup_stats {picked : List ℕ} (h : sweepPendingTopup db picked now = .ok db') :
    db'.dealStats = db.dealStats := by
  unfold sweepPendingTopup at h
  extract_lets hrs rows at h
  split at h
  · rw [pure_ok.1 h]
  refine foldlM_stats ?_ h
  intro db₁ db₂ i h
  simp only [sweepPendingTopupDeal, bind_ok, pure_ok] at h
  obtain ⟨d, -, rfl⟩ := h
  rw [setDeal_dealStats, expireTopupDeposit_stats]

theorem sweepInactivity_stats {picked : List ℕ} (h : sweepInactivity db picked now = .ok db') :
    db'.dealStats = db.dealStats := by
  refine foldlM_stats ?_ h
  intro db₁ db₂ i h
  simp only [sweepInactivityDeal, bind_ok] at h
  obtain ⟨d, -, h⟩ := h
  split at h
  · rw [← pure_ok.1 h]
  · simp only [bind_ok, pure_ok] at h
    obtain ⟨_, -, db₃, hp, rfl⟩ := h
    rw [setDeal_dealStats, (refundPrincipal_ok hp).dealStats]

theorem forceSettle_stats {f : ForcedSettlement} {a : ℕ} {reason : Option String} {approval : Option ℕ}
    (hmove : ∀ {db db₁ d amt n}, f.move db i d amt n = .ok db₁ → ∃ flow, Payout db d amt flow db₁)
    (h : forceSettle f db i a reason approval now = .ok db') : db'.dealStats = db.dealStats := by
  obtain ⟨d, c, amt, -, -, -, -, ⟨t, rfl⟩ | ⟨db₂, t, hm, rfl⟩⟩ := forceSettle_cases h
  · rfl
  · obtain ⟨flow, hpay⟩ := hmove hm
    rw [← hpay.dealStats]
    rfl

theorem deleteDeal_stats (h : deleteDeal db i = .ok db') : db'.dealStats = db.dealStats := by
  simp only [deleteDeal, bind_ok] at h
  obtain ⟨d, -, h⟩ := h
  split at h
  · rw [← pure_ok.1 h]
    rfl
  split at h
  · simp only [bind_ok, pure_ok] at h
    obtain ⟨_, -, db₁, hw, rfl⟩ := h
    obtain ⟨bal, -, -, hm⟩ := writeBalance_moved hw
    rw [← hm.dealStats]
    rfl
  · rw [← pure_ok.1 h]
    rfl

theorem assignArbiter_stats {a : Option ℕ} (h : assignArbiter db i a = .ok db') : db'.dealStats = db.dealStats := by
  have hset {d e : Deal} {c : Prop} [Decidable c] (h : (if c then pure db else pure (db.setDeal i e) : Result Db) = .ok db') :
      db'.dealStats = db.dealStats := by
    split at h
    · rw [pure_ok.1 h]
    · rw [← pure_ok.1 h, setDeal_dealStats]
  simp only [assignArbiter, bind_ok] at h
  obtain ⟨d, -, _, -, h⟩ := h
  split at h
  · exact hset (d := d) h
  · simp only [bind_ok] at h
    obtain ⟨_, -, _, -, h⟩ := h
    exact hset (d := d) h

/-! ## Operations that count -/

/-- The deal an operation accepts, and the one whose dispute it decides. -/
def Op.accepts (op : Op) (deal_id : ℕ) : Bool :=
  match op with
  | .acceptDeal i _ _ => i = deal_id
  | _ => false

def Op.decides (op : Op) (deal_id : ℕ) : Prop :=
  match op with
  | .resolveArbitration i _ _ _ _ => i = deal_id
  | _ => False

instance (d : Deal) (user_id : ℕ) : Decidable (d.Party user_id) := inferInstanceAs (Decidable (_ ∨ _))

/-- Both parties of the deal are counted once more. -/
structure Grows (db db' : Db) (d : Deal) (total ended : ℕ) : Prop where
  known : ∀ u, (db'.dealStats u).isSome = (db.dealStats u).isSome
  total : ∀ u, db'.total u = db.total u + if d.Party u ∧ (db.dealStats u).isSome = true then total else 0
  ended : ∀ u, db'.ended u = db.ended u + if d.Party u ∧ (db.dealStats u).isSome = true then ended else 0

/-- What an operation does to the counters. -/
inductive StatsStep (op : Op) (db db' : Db) : Prop
  | kept (hs : db'.dealStats = db.dealStats) (ha : ∀ i, op.accepts i = false)
  | counted {k : ℕ} {d d' : Deal} (hk : op.subject = some k) (ha : ∀ i, op.accepts i = decide (k = i))
      (hr : db.deals.row k = some d) (hs : d.status = .pending_confirmation) (hr' : db'.deals.row k = some d')
      (hs' : d'.status = .in_progress) (hg : Grows db db' d 1 0)
  | ended {k : ℕ} {d d' : Deal} (hk : op.subject = some k) (ha : ∀ i, op.accepts i = false)
      (hr : db.deals.row k = some d) (ho : isTerminal d.status = false) (hs : d.status = .in_progress ∨ op.decides k)
      (hr' : db'.deals.row k = some d') (hs' : isTerminal d'.status = true) (hg : Grows db db' d 0 1)

theorem updateUsers_dealStats {f : User → User} {g : DealStats → DealStats}
    (hf : ∀ user, (f user).dealStats = g user.dealStats)
    (ids : List ℕ) : (db.updateUsers ids f).dealStats u = (db.dealStats u).map fun s => if u ∈ ids then g s else s := by
  simp only [Db.dealStats, Db.updateUsers, Table.mapRows_row, Option.map_map]
  congr 1
  funext user
  simp only [Function.comp_apply]
  split
  · exact hf user
  · rfl

theorem party_iff_mem : u ∈ [d.buyer_id, d.seller_id] ↔ d.Party u := by simp [Deal.Party]

/-- Adding to the counters of both parties. -/
theorem updateUsers_grows {f : User → User} {t e : ℕ} {g : DealStats → DealStats}
    (hf : ∀ user, (f user).dealStats = g user.dealStats) (ht : ∀ s, (g s).total = s.total + t)
    (he : ∀ s, (g s).success + (g s).failed = s.success + s.failed + e) (hs : db₁.dealStats = db.dealStats) :
    Grows db (db₁.updateUsers [d.buyer_id, d.seller_id] f) d t e := by
  have hstats (u : ℕ) : (db₁.updateUsers [d.buyer_id, d.seller_id] f).dealStats u =
      (db.dealStats u).map fun s => if d.Party u then g s else s := by
    rw [updateUsers_dealStats hf, hs]
    simp only [party_iff_mem]
  refine ⟨?_, ?_, ?_⟩
  · intro u
    rw [hstats, Option.isSome_map]
  · intro u
    rw [Db.total, Db.total, hstats]
    cases db.dealStats u with
    | none => simp
    | some s => by_cases hp : d.Party u <;> simp [hp, ht]
  · intro u
    rw [Db.ended, Db.ended, hstats]
    cases db.dealStats u with
    | none => simp
    | some s => by_cases hp : d.Party u <;> simp [hp, he]

theorem acceptDeal_stats (h : acceptDeal db k u now = .ok db') : StatsStep (.acceptDeal k u now) db db' := by
  simp only [acceptDeal, getDeal, bind_ok, orRaise_ok, raiseIf_ok, pure_ok, not_not] at h
  obtain ⟨d, hr, _, hu, _, hs, rfl⟩ := h
  refine .counted rfl (fun i => rfl) hr hs ((Table.set_row hr).trans (if_pos rfl)) rfl ?_
  exact updateUsers_grows (g := fun s => { s with total := s.total + 1 }) (fun _ => rfl) (fun _ => rfl) (fun _ => rfl) rfl

theorem finishDeal_stats (h : finishDeal db k u now = .ok db') : StatsStep (.finishDeal k u now) db db' := by
  simp only [finishDeal, getDeal, bind_ok, orRaise_ok, raiseIf_ok, pure_ok, not_not] at h
  obtain ⟨d, hr, _, hu, _, hs, amt, -, db₁, hp, rfl⟩ := h
  have hpay := releaseTo_ok hp
  have hr₁ : db₁.deals.row k = some d := by rw [hpay.frame.1, hr]
  refine .ended rfl (fun i => rfl) hr (by rw [hs]; rfl) (.inl hs) ((Table.set_row hr₁).trans (if_pos rfl)) rfl ?_
  exact updateUsers_grows (g := fun s => { s with success := s.success + 1 }) (fun _ => rfl) (fun _ => rfl)
    (fun s => by simp only; omega) hpay.dealStats

/-- The loser fails, the winner succeeds. -/
theorem updateUsers_winner_grows {winner loser : ℕ} (hp : ∀ v, d.Party v ↔ v = loser ∨ v = winner) (hne : winner ≠ loser)
    (hs : db₁.dealStats = db.dealStats) :
    Grows db ((db₁.updateUsers [loser] fun u => { u with deals_failed := u.deals_failed + 1 }).updateUsers [winner] fun u =>
      { u with deals_success := u.deals_success + 1 }) d 0 1 := by
  have hstats (v : ℕ) : ((db₁.updateUsers [loser] fun u => { u with deals_failed := u.deals_failed + 1 }).updateUsers [winner]
      fun u => { u with deals_success := u.deals_success + 1 }).dealStats v = (db.dealStats v).map fun s =>
        ⟨s.total, s.success + if v = winner then 1 else 0, s.failed + if v = loser then 1 else 0⟩ := by
    rw [updateUsers_dealStats (g := fun s => { s with success := s.success + 1 }) fun _ => rfl,
      updateUsers_dealStats (g := fun s => { s with failed := s.failed + 1 }) fun _ => rfl, hs, Option.map_map]
    congr 1
    funext s
    simp only [Function.comp_apply, List.mem_singleton]
    split <;> split <;> rfl
  refine ⟨?_, ?_, ?_⟩
  · intro v
    rw [hstats, Option.isSome_map]
  · intro v
    rw [Db.total, Db.total, hstats]
    cases db.dealStats v with
    | none => simp
    | some s => simp
  · intro v
    rw [Db.ended, Db.ended, hstats]
    cases db.dealStats v with
    | none => simp
    | some s =>
      simp only [Option.map_some, Option.elim_some, Option.isSome_some, and_true, hp]
      split_ifs <;> omega

theorem resolveArbitration_stats {winner note : String} (hne : ∀ d, db.deals.row k = some d → d.buyer_id ≠ d.seller_id)
    (h : resolveArbitration db k u winner note now = .ok db') :
    StatsStep (.resolveArbitration k u winner note now) db db' := by
  simp only [resolveArbitration, getDeal, bind_ok, orRaise_ok, raiseIf_ok, pure_ok] at h
  obtain ⟨d, hr, admin, -, _, -, _, hs, _, -, amt, -, ⟨db₁, st⟩, hp, rfl⟩ := h
  obtain ⟨hpay, hterm⟩ := payWinner_ok hp
  have hr₁ : db₁.deals.row k = some d := by rw [hpay.frame.1, hr]
  refine .ended rfl (fun i => rfl) hr (by rw [not_not.1 hs]; rfl) (.inr rfl) ((Table.set_row hr₁).trans (if_pos rfl)) hterm ?_
  by_cases hw : winner = "buyer"
  · simp only [hw, if_true]
    exact updateUsers_winner_grows (fun v => or_comm) (hne d hr) hpay.dealStats
  · simp only [hw, if_false]
    exact updateUsers_winner_grows (fun v => Iff.rfl) (hne d hr).symm hpay.dealStats

theorem startArbitration_stats {reason : String} (h : startArbitration db k u reason = .ok db') :
    db'.dealStats = db.dealStats := by
  simp only [startArbitration, bind_ok, pure_ok] at h
  obtain ⟨d, -, _, -, _, -, _, -, rfl⟩ := h
  funext v
  have hother (user : User) : { user with deals_arbitrage := user.deals_arbitrage + 1 }.dealStats = id user.dealStats := rfl
  rw [updateUsers_dealStats hother, setDeal_dealStats]
  simp

theorem statsStep_of (hne : ∀ k d, db.deals.row k = some d → d.buyer_id ≠ d.seller_id) {op : Op} (h : op.run db = .ok db') :
    StatsStep op db db' := by
  cases op with
  | acceptDeal i u now => exact acceptDeal_stats h
  | finishDeal i u now => exact finishDeal_stats h
  | resolveArbitration i a winner note now => exact resolveArbitration_stats (hne i) h
  | createDepositInvoice u code amount purpose provider min_check reply now =>
    obtain ⟨r, hr, rfl⟩ := map_ok.1 h
    exact .kept (createDepositInvoice_stats hr) fun _ => rfl
  | createDeal b s code amount provider now => exact .kept (createDeal_stats h) fun _ => rfl
  | createDealWithTopup b s code amount provider reply now => exact .kept (createDealWithTopup_stats h) fun _ => rfl
  | completeDealTopupPayment i paid reply now => exact .kept (completeDealTopupPayment_stats h) fun _ => rfl
  | sweepPendingTopup picked now => exact .kept (sweepPendingTopup_stats h) fun _ => rfl
  | cancelPendingTopup i u now =>
    simp only [Op.run, cancelPendingTopup, bind_ok, pure_ok] at h
    obtain ⟨d, -, _, -, _, -, rfl⟩ := h
    exact .kept (by rw [setDeal_dealStats, expireTopupDeposit_stats]) fun _ => rfl
  | declineDeal i u now =>
    simp only [Op.run, declineDeal, bind_ok, pure_ok] at h
    obtain ⟨d, -, _, -, _, -, _, -, db₁, hp, rfl⟩ := h
    exact .kept (by rw [setDeal_dealStats, (refundPrincipal_ok hp).dealStats]) fun _ => rfl
  | requestCancel i u reason now =>
    simp only [Op.run, requestCancel, bind_ok, pure_ok] at h
    obtain ⟨d, -, _, -, _, -, rfl⟩ := h
    exact .kept (setDeal_dealStats _ _ _) fun _ => rfl
  | revokeCancel i u =>
    simp only [Op.run, revokeCancel, bind_ok, pure_ok] at h
    obtain ⟨d, -, _, -, _, -, rfl⟩ := h
    exact .kept (setDeal_dealStats _ _ _) fun _ => rfl
  | acceptCancel i u now =>
    simp only [Op.run, acceptCancel, bind_ok, pure_ok] at h
    obtain ⟨d, -, _, -, _, -, _, -, _, -, db₁, hp, rfl⟩ := h
    exact .kept (by rw [setDeal_dealStats, (refundPrincipal_ok hp).dealStats]) fun _ => rfl
  | startArbitration i u reason =>
    exact .kept (startArbitration_stats h) fun _ => rfl
  | sweepInactivity picked now => exact .kept (sweepInactivity_stats h) fun _ => rfl
  | approveDealApproval i a now =>
    simp only [Op.run, approveDealApproval, bind_ok, pure_ok] at h
    obtain ⟨_, -, _, -, _, -, rfl⟩ := h
    exact .kept rfl fun _ => rfl
  | rejectDealApproval i now =>
    simp only [Op.run, rejectDealApproval, bind_ok, pure_ok] at h
    obtain ⟨_, -, _, -, rfl⟩ := h
    exact .kept rfl fun _ => rfl
  | forceRelease i a reason approval now =>
    refine .kept (forceSettle_stats ?_ h) fun _ => rfl
    intro db db₁ d amt n hm
    obtain ⟨db₂, h₁, h₂⟩ := bind_ok.1 hm
    exact ⟨_, .release (dealRef_ne (by decide) (some i)) (dealRef_ne (by decide) (some i)) h₁ h₂⟩
  | forceRefund i a reason approval now =>
    refine .kept (forceSettle_stats ?_ h) fun _ => rfl
    intro db db₁ d amt n hm
    exact ⟨_, .refund (dealRef_ne (by decide) (some i)) hm⟩
  | splitDeal i a p reason approval now =>
    obtain ⟨q, -, h⟩ := bind_ok.1 h
    refine .kept (forceSettle_stats ?_ h) fun _ => rfl
    intro db db₁ d amt n hm
    obtain ⟨share, -, hm⟩ := bind_ok.1 hm
    obtain ⟨db₂, h₁, h₂⟩ := bind_ok.1 hm
    exact ⟨_, .split (dealRef_ne (by decide) (some i)) (dealRef_ne (by decide) (some i)) h₁ h₂⟩
  | forceArbitration i a reason =>
    simp only [Op.run, forceArbitration, bind_ok] at h
    obtain ⟨d, -, _, -, h⟩ := h
    refine .kept ?_ fun _ => rfl
    split at h
    · rw [pure_ok.1 h]
    · rw [← pure_ok.1 h, setDeal_dealStats]
  | assignArbiter i a => exact .kept (assignArbiter_stats h) fun _ => rfl
  | deleteDeal i => exact .kept (deleteDeal_stats h) fun _ => rfl
  | handleInvoicePaid payload reply now =>
    obtain ⟨r, hr, rfl⟩ := map_ok.1 h
    exact .kept (handleInvoicePaid_stats hr) fun _ => rfl
  | handleInvoiceExpired payload =>
    obtain ⟨r, hr, rfl⟩ := map_ok.1 h
    exact .kept (handleInvoiceExpired_stats hr) fun _ => rfl
  | handleCrystalpayInvoice payload reply now =>
    obtain ⟨r, hr, rfl⟩ := map_ok.1 h
    exact .kept (handleCrystalpayInvoice_stats hr) fun _ => rfl
  | pollDepositStatus i answer reply now => exact .kept (pollDepositStatus_stats h) fun _ => rfl
  | sweepExpiredDeposits picked now =>
    obtain ⟨t, -, ht⟩ := sweepExpiredDeposits_expires db picked now
    refine .kept ?_ fun _ => rfl
    rw [← pure_ok.1 h, ht]
    rfl
  | markPaid i now =>
    obtain ⟨dep, -, h⟩ := bind_ok.1 h
    refine .kept ?_ fun _ => rfl
    split at h
    · rw [← pure_ok.1 h]
    · simp only [bind_ok, pure_ok] at h
      obtain ⟨_, -, db₁, hw, rfl⟩ := h
      obtain ⟨bal, -, -, hm⟩ := writeBalance_moved hw
      rw [setDeposit_dealStats, hm.dealStats]
  | refundDeposit i =>
    simp only [Op.run, refundDeposit, bind_ok, pure_ok] at h
    obtain ⟨_, -, _, -, _, -, _, -, _, -, db₁, hw, rfl⟩ := h
    obtain ⟨bal, -, -, rfl⟩ := writeBalance_ok hw
    exact .kept rfl fun _ => rfl
  | adjustUserBalance u code delta =>
    simp only [Op.run, adjustUserBalance, bind_ok] at h
    obtain ⟨_, -, _, -, _, -, c, -, _, -, h⟩ := h
    have hev : "admin_wallet.adjust" ≠ trustEvent := by decide
    obtain ⟨bal, -, -, hm⟩ := changeBalance_ok hev h
    exact .kept hm.dealStats fun _ => rfl
  | pinResetPaid u =>
    simp only [Op.run, pinResetPaid, bind_ok] at h
    obtain ⟨c, -, h⟩ := h
    refine .kept ?_ fun _ => rfl
    split at h
    · rw [← pure_ok.1 h]
    · obtain ⟨_, -, h⟩ := bind_ok.1 h
      obtain ⟨bal, -, -, hm⟩ := writeBalance_moved h
      exact hm.dealStats

/-! ## Runs -/

theorem Effect.deals_onward {F : Flaws} (h : Effect F db db') : db.deals.Onward db'.deals := by
  cases h with
  | idle _ hd | requested _ _ _ hd => rw [hd]; exact .refl _
  | credit hm => rw [hm.deals]; exact .refl _
  | opened _ _ hd | waiting _ hd => rw [hd]; exact Table.onward_insert
  | relabel _ _ hd | activated _ _ _ hd => rw [hd]; exact Table.onward_set
  | settled hs =>
    obtain ⟨d', hd, -⟩ := hs.closed
    rw [hd]
    exact Table.onward_set
  | removed _ _ hd | removedActive _ _ _ hd => rw [hd]; exact Table.onward_erase
  | annotated _ hw => rw [hw]; exact .refl _
  | paidOut hm hw =>
    rw [hw, Db.setWithdrawal, hm.deals]
    exact .refl _

theorem Effects.deals_onward {F : Flaws} (h : Effects F db db') : db.deals.Onward db'.deals := by
  induction h with
  | refl => exact .refl _
  | tail _ he ih => exact ih.trans he.deals_onward

theorem run_deals_onward {op : Op} (h : op.run db = .ok db') : db.deals.Onward db'.deals := (effects_of h).deals_onward

end

/-- A database in the course of a run, with the deals accepted so far and what
each of them added to the counters of each user. -/
structure Tally where
  db : Db
  accepted : ℕ → Bool
  counted : ℕ → ℕ → ℕ
  ended : ℕ → ℕ → ℕ

namespace Tally

def start (db : Db) : Tally := ⟨db, fun _ => false, fun _ _ => 0, fun _ _ => 0⟩

def observe (s : Tally) (op : Op) (db : Db) : Tally where
  db := db
  accepted k := s.accepted k || op.accepts k
  counted k u := s.counted k u + if op.subject = some k then db.total u - s.db.total u else 0
  ended k u := s.ended k u + if op.subject = some k then db.ended u - s.db.ended u else 0

def exec (s : Tally) (op : Op) : Result Tally := do
  let db ← op.run s.db
  pure (s.observe op db)

/-- A dispute is decided over a deal that was accepted. -/
def Ok (op : Op) (s : Tally) : Prop := ∀ k, op.decides k → s.accepted k = true

/-- No more deals end than are counted, every count is of a deal, and no deal is counted twice. -/
def Consistent (s : Tally) : Prop :=
  ∀ u user, s.db.users.row u = some user →
    user.deals_success + user.deals_failed ≤ user.deals_total ∧
      user.deals_total = ∑ k ∈ Finset.range s.db.deals.next, s.counted k u ∧ ∀ k, s.counted k u ≤ 1

structure Inv (s : Tally) : Prop where
  parties : ∀ k d, s.db.deals.row k = some d → d.buyer_id ≠ d.seller_id
  known : ∀ k, s.accepted k = true → k < s.db.deals.next
  waits : ∀ k d, s.db.deals.row k = some d → d.status = .pending_confirmation ∨ d.status = .pending_topup →
    s.accepted k = false
  works : ∀ k d, s.db.deals.row k = some d → d.status = .in_progress ∨ d.status = .pending_cancellation →
    s.accepted k = true
  once : ∀ k u, s.counted k u ≤ if s.accepted k = true then 1 else 0
  party : ∀ k d u, s.db.deals.row k = some d → s.accepted k = true → d.Party u → (s.db.dealStats u).isSome = true →
    s.counted k u = 1
  below : ∀ k u, s.ended k u ≤ s.counted k u
  unended : ∀ k d u, s.db.deals.row k = some d → isTerminal d.status = false → s.ended k u = 0
  total : ∀ u n, s.db.deals.next ≤ n → s.db.total u = ∑ k ∈ Finset.range n, s.counted k u
  endings : ∀ u n, s.db.deals.next ≤ n → s.db.ended u = ∑ k ∈ Finset.range n, s.ended k u

end Tally

def TallyStep (op : Op) (s t : Tally) : Prop := s.exec op = .ok t

/-- Every counter is zero, and the deals there are were just created. -/
structure FreshStats (db : Db) : Prop where
  zero : ∀ u user, db.users.row u = some user → user.dealStats = ⟨0, 0, 0⟩
  deals : ∀ k d, db.deals.row k = some d → d.New

section
variable {s t : Tally} {db db' : Db} {op : Op} {k u : ℕ} {d d' : Deal}

theorem tallyStep_iff : TallyStep op s t ↔ ∃ db, op.run s.db = .ok db ∧ t = s.observe op db := by
  simp only [TallyStep, Tally.exec, bind_ok, pure_ok]
  constructor
  · rintro ⟨db, hrun, rfl⟩
    exact ⟨db, hrun, rfl⟩
  · rintro ⟨db, hrun, rfl⟩
    exact ⟨db, hrun, rfl⟩

theorem Tally.Inv.start (h : FreshStats db) : (Tally.start db).Inv where
  parties k d hd := (h.deals k d hd).parties
  known k hk := by cases hk
  waits _ _ _ _ := rfl
  works k d hd hs := by
    have hnew := (h.deals k d hd).status
    rcases hs with hs | hs <;> rw [hs] at hnew <;> rcases hnew with hnew | hnew <;> cases hnew
  once _ _ := Nat.zero_le _
  party k d u _ ha := by cases ha
  below _ _ := le_rfl
  unended _ _ _ _ _ := rfl
  total u n _ := by
    have hzero : db.total u = 0 := by
      unfold Db.total Db.dealStats
      cases hu : db.users.row u with
      | none => rfl
      | some user => rw [Option.map_some, h.zero u user hu]; rfl
    simp [Tally.start, hzero]
  endings u n _ := by
    have hzero : db.ended u = 0 := by
      unfold Db.ended Db.dealStats
      cases hu : db.users.row u with
      | none => rfl
      | some user => rw [Option.map_some, h.zero u user hu]; rfl
    simp [Tally.start, hzero]

theorem Tally.Inv.consistent (hs : s.Inv) : s.Consistent := by
  intro u user hu
  have hstats : s.db.dealStats u = some user.dealStats := by rw [Db.dealStats, hu, Option.map_some]
  have htotal := hs.total u _ le_rfl
  have hended := hs.endings u _ le_rfl
  rw [Db.total, hstats] at htotal
  rw [Db.ended, hstats] at hended
  refine ⟨?_, htotal, ?_⟩
  · show user.dealStats.success + user.dealStats.failed ≤ user.dealStats.total
    calc user.dealStats.success + user.dealStats.failed
        = ∑ k ∈ Finset.range s.db.deals.next, s.ended k u := hended
      _ ≤ ∑ k ∈ Finset.range s.db.deals.next, s.counted k u := Finset.sum_le_sum fun k _ => hs.below k u
      _ = user.dealStats.total := htotal.symm
  · intro k
    refine (hs.once k u).trans ?_
    split <;> omega

/-- A row after a step is a row before, or new. -/
theorem rows_before (h : op.run db = .ok db') (hd : db'.deals.row k = some d') :
    (∃ d, db.deals.row k = some d ∧ RowStep db op k d d') ∨ db.deals.next ≤ k ∧ d'.New := by
  have hnew (hkeep : op.Keeps) (hn : db.deals.row k = none) : db.deals.next ≤ k ∧ d'.New := by
    refine ⟨?_, (deals_of hkeep h k).2 hn d' hd⟩
    by_contra hk
    rw [(run_deals_onward h).gone k (not_le.1 hk) hn] at hd
    cases hd
  have hold (hkeep : op.Keeps) :
      (∃ d, db.deals.row k = some d ∧ RowStep db op k d d') ∨ db.deals.next ≤ k ∧ d'.New := by
    cases hr : db.deals.row k with
    | none => exact .inr (hnew hkeep hr)
    | some d =>
      obtain ⟨e, he, hstep⟩ := (deals_of hkeep h k).1 d hr
      cases hd.symm.trans he
      exact .inl ⟨d, rfl, hstep⟩
  cases op with
  | deleteDeal i =>
    have herase : db'.deals = db.deals.erase i := by
      obtain ⟨d₀, -, ⟨-, rfl⟩ | ⟨-, amt, bal, db₁, -, -, -, hm, rfl⟩⟩ := deleteDeal_ok h
      · rfl
      · rw [removeDeal, hm.deals]
    rw [herase, Table.erase_row] at hd
    split at hd
    · cases hd
    · exact .inl ⟨d', hd, .refl d'⟩
  | _ => exact hold trivial

theorem RowStep.waits (h : RowStep db op k d d') (hs : d'.status = .pending_confirmation ∨ d'.status = .pending_topup) :
    d.status = .pending_confirmation ∨ d.status = .pending_topup := by
  cases h with
  | kept he => rwa [← he]
  | moved hg =>
    generalize d'.status = st at hg hs
    cases hg with
    | pay _ hw => exact .inr hw
    | resolveArbitration => split at hs <;> rcases hs with hs | hs <;> cases hs
    | sweepInactivity => split at hs <;> rcases hs with hs | hs <;> cases hs
    | splitDeal => split at hs <;> rcases hs with hs | hs <;> cases hs
    | _ => rcases hs with hs | hs <;> cases hs

theorem RowStep.works (h : RowStep db op k d d') (hs : d'.status = .in_progress ∨ d'.status = .pending_cancellation) :
    (d.status = .in_progress ∨ d.status = .pending_cancellation) ∨ op.accepts k = true := by
  cases h with
  | kept he =>
    rw [← he]
    exact .inl hs
  | moved hg =>
    generalize d'.status = st at hg hs
    cases hg with
    | acceptDeal => exact .inr (decide_eq_true rfl)
    | requestCancel _ hw => exact .inl (.inl hw)
    | revokeCancel _ hw => exact .inl (.inr hw)
    | resolveArbitration => split at hs <;> rcases hs with hs | hs <;> cases hs
    | sweepInactivity => split at hs <;> rcases hs with hs | hs <;> cases hs
    | splitDeal => split at hs <;> rcases hs with hs | hs <;> cases hs
    | _ => rcases hs with hs | hs <;> cases hs

theorem RowStep.open_before (h : RowStep db op k d d') (ho : isTerminal d'.status = false) : isTerminal d.status = false := by
  cases h with
  | kept he => rwa [← he]
  | moved hg => exact hg.nonterminal

/-- One deal's part of a sum that grows by what the deal adds. -/
theorem sum_add_at {f : ℕ → ℕ} {i n c : ℕ} (hi : i < n) :
    ∑ k ∈ Finset.range n, (f k + if k = i then c else 0) = ∑ k ∈ Finset.range n, f k + c := by
  rw [Finset.sum_add_distrib, Finset.sum_ite_eq', if_pos (Finset.mem_range.2 hi)]

namespace Tally

/-- What the deal of the operation adds. -/
structure Adds (s : Tally) (op : Op) (db' : Db) (i : ℕ) (d : Deal) (total ended : ℕ) : Prop where
  counted : ∀ k u, (s.observe op db').counted k u =
    s.counted k u + if k = i then if d.Party u ∧ (s.db.dealStats u).isSome = true then total else 0 else 0
  ended : ∀ k u, (s.observe op db').ended k u =
    s.ended k u + if k = i then if d.Party u ∧ (s.db.dealStats u).isSome = true then ended else 0 else 0

theorem adds_of_grows {i t e : ℕ} (hk : op.subject = some i) (hg : Grows s.db db' d t e) : s.Adds op db' i d t e := by
  refine ⟨?_, ?_⟩
  · intro k u
    simp only [observe, hk, Option.some.injEq, hg.total, Nat.add_sub_cancel_left, eq_comm (a := i)]
  · intro k u
    simp only [observe, hk, Option.some.injEq, hg.ended, Nat.add_sub_cancel_left, eq_comm (a := i)]

theorem observe_kept (op : Op) (hs : db'.dealStats = s.db.dealStats) :
    (s.observe op db').counted = s.counted ∧ (s.observe op db').ended = s.ended := by
  have htotal (u : ℕ) : db'.total u - s.db.total u = 0 := by rw [Db.total, Db.total, hs, Nat.sub_self]
  have hended (u : ℕ) : db'.ended u - s.db.ended u = 0 := by rw [Db.ended, Db.ended, hs, Nat.sub_self]
  constructor
  · funext k u
    simp [observe, htotal]
  · funext k u
    simp [observe, hended]

end Tally

/-- The rows and the acceptances after a step, whatever it counted. -/
theorem Tally.Inv.rows (hs : s.Inv) (h : op.run s.db = .ok db')
    (hw : ∀ k d', db'.deals.row k = some d' → d'.status = .pending_confirmation ∨ d'.status = .pending_topup →
      op.accepts k = false) :
    (∀ k d, db'.deals.row k = some d → d.buyer_id ≠ d.seller_id) ∧
    (∀ k d, db'.deals.row k = some d → d.status = .pending_confirmation ∨ d.status = .pending_topup →
      (s.accepted k || op.accepts k) = false) ∧
    (∀ k d, db'.deals.row k = some d → d.status = .in_progress ∨ d.status = .pending_cancellation →
      (s.accepted k || op.accepts k) = true) := by
  have hunknown {k : ℕ} (hk : s.db.deals.next ≤ k) : s.accepted k = false := by
    by_contra hacc
    have hlt := hs.known k (by simpa using hacc)
    omega
  refine ⟨?_, ?_, ?_⟩
  · intro k d' hd'
    rcases rows_before h hd' with ⟨d, hd, hstep⟩ | ⟨-, hnew⟩
    · obtain ⟨hb, hsel, -, -⟩ := hstep.terms
      rw [hb, hsel]
      exact hs.parties k d hd
    · exact hnew.parties
  · intro k d' hd' hst
    rw [hw k d' hd' hst, Bool.or_false]
    rcases rows_before h hd' with ⟨d, hd, hstep⟩ | ⟨hk, -⟩
    · exact hs.waits k d hd (hstep.waits hst)
    · exact hunknown hk
  · intro k d' hd' hst
    rcases rows_before h hd' with ⟨d, hd, hstep⟩ | ⟨-, hnew⟩
    · rcases hstep.works hst with hbefore | hacc
      · rw [hs.works k d hd hbefore, Bool.true_or]
      · rw [hacc, Bool.or_true]
    · have hpending := hnew.status
      rcases hst with hst | hst <;> rw [hst] at hpending <;> rcases hpending with hp | hp <;> cases hp

/-- What the counts of each deal say of its row is still so of the row after a step. -/
theorem Tally.Inv.counts (hs : s.Inv) (h : op.run s.db = .ok db') :
    (∀ k d u, db'.deals.row k = some d → s.accepted k = true → d.Party u → (s.db.dealStats u).isSome = true →
      s.counted k u = 1) ∧
    ∀ k d u, db'.deals.row k = some d → isTerminal d.status = false → s.ended k u = 0 := by
  constructor
  · intro k d' u hd' hacc hp hu
    rcases rows_before h hd' with ⟨d, hd, hstep⟩ | ⟨hk, -⟩
    · obtain ⟨hb, hsel, -, -⟩ := hstep.terms
      rw [Deal.Party, hb, hsel] at hp
      exact hs.party k d u hd hacc hp hu
    · have hlt := hs.known k hacc
      omega
  · intro k d' u hd' ho
    rcases rows_before h hd' with ⟨d, hd, hstep⟩ | ⟨hk, -⟩
    · exact hs.unended k d u hd (hstep.open_before ho)
    · have hle := (hs.below k u).trans (hs.once k u)
      rw [if_neg fun hacc => absurd (hs.known k hacc) (not_lt.2 hk)] at hle
      omega

theorem Tally.Inv.step_kept (hs : s.Inv) (h : op.run s.db = .ok db') (hstats : db'.dealStats = s.db.dealStats)
    (ha : ∀ i, op.accepts i = false) : (s.observe op db').Inv := by
  obtain ⟨hparties, hwaits, hworks⟩ := hs.rows h fun k _ _ _ => ha k
  obtain ⟨hparty, hunended⟩ := hs.counts h
  obtain ⟨hcounted, hended⟩ := observe_kept op hstats
  have hnext := (run_deals_onward h).next
  have hacc : (s.observe op db').accepted = s.accepted := by
    funext k
    show (s.accepted k || op.accepts k) = s.accepted k
    rw [ha k, Bool.or_false]
  refine ⟨hparties, ?_, hwaits, hworks, ?_, ?_, ?_, ?_, ?_, ?_⟩
  · intro k hk
    rw [hacc] at hk
    exact (hs.known k hk).trans_le hnext
  · rw [hcounted, hacc]
    exact hs.once
  · rw [hcounted, hacc]
    intro k d u hd ha hp hu
    exact hparty k d u hd ha hp (by rwa [← hstats])
  · rw [hcounted, hended]
    exact hs.below
  · rw [hended]
    exact hunended
  · intro u n hn
    have htotal : db'.total u = s.db.total u := by rw [Db.total, Db.total, hstats]
    rw [hcounted]
    exact htotal.trans (hs.total u n (hnext.trans hn))
  · intro u n hn
    have hendings : db'.ended u = s.db.ended u := by rw [Db.ended, Db.ended, hstats]
    rw [hended]
    exact hendings.trans (hs.endings u n (hnext.trans hn))

/-- The sums over the deals after one of them has added its part. -/
theorem Tally.Inv.sums (hs : s.Inv) (h : op.run s.db = .ok db') {i a b : ℕ} (hi : i < s.db.deals.next)
    (hg : Grows s.db db' d a b) (hadds : s.Adds op db' i d a b) :
    (∀ u n, db'.deals.next ≤ n → db'.total u = ∑ k ∈ Finset.range n, (s.observe op db').counted k u) ∧
      ∀ u n, db'.deals.next ≤ n → db'.ended u = ∑ k ∈ Finset.range n, (s.observe op db').ended k u := by
  have hnext := (run_deals_onward h).next
  constructor
  · intro u n hn
    simp only [hadds.counted]
    rw [hg.total, sum_add_at (by omega), hs.total u n (hnext.trans hn)]
  · intro u n hn
    simp only [hadds.ended]
    rw [hg.ended, sum_add_at (by omega), hs.endings u n (hnext.trans hn)]

theorem Tally.Inv.step_counted {i : ℕ} (hs : s.Inv) (h : op.run s.db = .ok db') (hk : op.subject = some i)
    (ha : ∀ k, op.accepts k = decide (i = k)) (hr : s.db.deals.row i = some d) (hst : d.status = .pending_confirmation)
    (hr' : db'.deals.row i = some d') (hst' : d'.status = .in_progress) (hg : Grows s.db db' d 1 0) :
    (s.observe op db').Inv := by
  have hadds := adds_of_grows hk hg
  have hfree : s.accepted i = false := hs.waits i d hr (.inl hst)
  have hnone (u : ℕ) : s.counted i u = 0 := by
    have hle := hs.once i u
    rw [hfree] at hle
    simpa using hle
  obtain ⟨hparties, hwaits, hworks⟩ := hs.rows h (by
    intro k e he hwait
    rw [ha, decide_eq_false_iff_not]
    rintro rfl
    cases hr'.symm.trans he
    rw [hst'] at hwait
    rcases hwait with hwait | hwait <;> cases hwait)
  obtain ⟨hparty, hunended⟩ := hs.counts h
  obtain ⟨htotal, hendings⟩ := hs.sums h (Table.lt_next hr) hg hadds
  have hnext := (run_deals_onward h).next
  have hacc (k : ℕ) : (s.observe op db').accepted k = true ↔ s.accepted k = true ∨ i = k := by
    show (s.accepted k || op.accepts k) = true ↔ _
    rw [ha, Bool.or_eq_true, decide_eq_true_eq]
  refine ⟨hparties, ?_, hwaits, hworks, ?_, ?_, ?_, ?_, htotal, hendings⟩
  · intro k hk
    rcases (hacc k).1 hk with hk | rfl
    · exact (hs.known k hk).trans_le hnext
    · exact (Table.lt_next hr).trans_le hnext
  · intro k u
    rw [hadds.counted]
    by_cases hki : k = i
    · subst hki
      rw [if_pos rfl, if_pos ((hacc k).2 (.inr rfl)), hnone]
      split <;> omega
    · have hiff : (s.observe op db').accepted k = true ↔ s.accepted k = true := by
        rw [hacc, or_iff_left (Ne.symm hki)]
      simp only [hki, if_false, add_zero, hiff]
      exact hs.once k u
  · intro k e u he hk hp hu
    have hu' : (s.db.dealStats u).isSome = true := by rw [← hg.known]; exact hu
    rw [hadds.counted]
    by_cases hki : k = i
    · subst hki
      -- the parties are those the row had before
      have hp' : d.Party u := by
        rcases rows_before h he with ⟨d₀, hd₀, hstep⟩ | ⟨hge, -⟩
        · cases hr.symm.trans hd₀
          obtain ⟨hb, hsel, -, -⟩ := hstep.terms
          rwa [Deal.Party, hb, hsel] at hp
        · exact absurd (Table.lt_next hr) (not_lt.2 hge)
      rw [if_pos rfl, if_pos ⟨hp', hu'⟩, hnone]
    · rw [if_neg hki, add_zero]
      exact hparty k e u he (((hacc k).1 hk).resolve_right (Ne.symm hki)) hp hu'
  · intro k u
    rw [hadds.counted, hadds.ended, ite_self, ite_self, add_zero]
    exact (hs.below k u).trans (Nat.le_add_right _ _)
  · intro k e u he ho
    rw [hadds.ended, ite_self, ite_self, add_zero]
    exact hunended k e u he ho

theorem Tally.Inv.step_ended {i : ℕ} (hs : s.Inv) (h : op.run s.db = .ok db') (hk : op.subject = some i)
    (ha : ∀ k, op.accepts k = false) (hr : s.db.deals.row i = some d) (ho : isTerminal d.status = false)
    (hacc : s.accepted i = true) (hr' : db'.deals.row i = some d') (hst' : isTerminal d'.status = true)
    (hg : Grows s.db db' d 0 1) : (s.observe op db').Inv := by
  have hadds := adds_of_grows hk hg
  obtain ⟨hparties, hwaits, hworks⟩ := hs.rows h fun k _ _ _ => ha k
  obtain ⟨hparty, hunended⟩ := hs.counts h
  obtain ⟨htotal, hendings⟩ := hs.sums h (Table.lt_next hr) hg hadds
  have hnext := (run_deals_onward h).next
  have hsame : (s.observe op db').accepted = s.accepted := by
    funext k
    show (s.accepted k || op.accepts k) = s.accepted k
    rw [ha k, Bool.or_false]
  have hcounted (k u : ℕ) : (s.observe op db').counted k u = s.counted k u := by
    rw [hadds.counted, ite_self, ite_self, add_zero]
  refine ⟨hparties, ?_, hwaits, hworks, ?_, ?_, ?_, ?_, htotal, hendings⟩
  · intro k hk
    rw [hsame] at hk
    exact (hs.known k hk).trans_le hnext
  · intro k u
    rw [hcounted, hsame]
    exact hs.once k u
  · intro k e u he hk hp hu
    rw [hcounted]
    rw [hsame] at hk
    exact hparty k e u he hk hp (by rw [← hg.known]; exact hu)
  · intro k u
    rw [hcounted, hadds.ended]
    by_cases hki : k = i
    · subst hki
      rw [if_pos rfl, hs.unended k d u hr ho, zero_add]
      split
      · rename_i hp
        exact (hs.party k d u hr hacc hp.1 hp.2).ge
      · exact Nat.zero_le _
    · rw [if_neg hki, add_zero]
      exact hs.below k u
  · intro k e u he hopen
    have hki : k ≠ i := by
      rintro rfl
      cases hr'.symm.trans he
      rw [hst'] at hopen
      cases hopen
    rw [hadds.ended, if_neg hki, add_zero]
    exact hunended k e u he hopen

theorem Tally.Inv.step (hs : s.Inv) (hok : Tally.Ok op s) (h : TallyStep op s t) : t.Inv := by
  obtain ⟨db', hrun, rfl⟩ := tallyStep_iff.1 h
  cases statsStep_of hs.parties hrun with
  | kept hstats ha => exact hs.step_kept hrun hstats ha
  | counted hk ha hr hst hr' hst' hg => exact hs.step_counted hrun hk ha hr hst hr' hst' hg
  | @ended i d d' hk ha hr ho hend hr' hst' hg =>
    have hacc : s.accepted i = true := by
      rcases hend with hst | hdec
      · exact hs.works i d hr (.inl hst)
      · exact hok i hdec
    exact hs.step_ended hrun hk ha hr ho hacc hr' hst' hg

/-- In every run whose disputes are decided over accepted deals only, the counters are consistent. -/
theorem stats_consistent (h0 : FreshStats db) (h : Reach TallyStep Tally.Ok (.start db) s) : s.Consistent :=
  Tally.Inv.consistent (h.invariant (I := Tally.Inv) (Tally.Inv.start h0) fun _ _ _ hI hok hstep => hI.step hok hstep)

end

theorem sampleDb_freshStats : FreshStats (sampleDb 2 ⟨1000000000, by decide⟩) where
  zero u user hu := by
    have hlt : u < 4 := Table.lt_next hu
    interval_cases u
    · cases hu
    all_goals cases hu; rfl
  deals k d hd := by cases hd

/-- Deal 1 is accepted and finished, deal 2 is accepted and taken into arbitration. -/
def sampleDisputed : List Op :=
  [.createDeal 1 2 "USDT" (some 3) "cryptobot" 0, .acceptDeal 1 2 1, .finishDeal 1 1 2,
    .createDeal 1 2 "USDT" (some 3) "cryptobot" 3, .acceptDeal 2 2 4, .forceArbitration 2 3 none]

theorem sampleDisputed_consistent : ∃ s user,
    Reach TallyStep Tally.Ok (.start (sampleDb 2 ⟨1000000000, by decide⟩)) s ∧ s.db.users.row 1 = some user ∧
      user.dealStats = ⟨2, 2, 0⟩ ∧ s.Consistent := by
  have hrun : ∃ t, Reach TallyStep Tally.Ok (.start (sampleDb 2 ⟨1000000000, by decide⟩)) t ∧ t.accepted 2 = true ∧
      (t.exec (.resolveArbitration 2 3 "buyer" "" 5)).toOption.any fun s => s.db.dealStats 1 = some ⟨2, 2, 0⟩ := by
    refine Reach.of_check Tally.exec sampleDisputed (fun _ => True) (by decide +kernel) trivial
      (fun _ _ _ _ _ => trivial) ?_
    intro op hop s _ k hk
    simp only [sampleDisputed, List.mem_cons, List.not_mem_nil, or_false] at hop
    rcases hop with rfl | rfl | rfl | rfl | rfl | rfl <;> cases hk
  obtain ⟨t, ht, hacc, hdecide⟩ := hrun
  obtain ⟨s, hstep, hstats⟩ := exists_ok hdecide
  have hok : Tally.Ok (.resolveArbitration 2 3 "buyer" "" 5) t := by
    rintro k rfl
    exact hacc
  obtain ⟨user, hu, hus⟩ := Option.map_eq_some_iff.1 hstats
  exact ⟨s, user, .step ht hok hstep, hu, hus, stats_consistent sampleDb_freshStats (.step ht hok hstep)⟩

/-- A deal that waits for its seller is taken into arbitration and decided for its buyer. -/
def sampleUnaccepted : List Op :=
  [.createDeal 1 2 "USDT" (some 10) "cryptobot" 0, .forceArbitration 1 3 none, .resolveArbitration 1 3 "buyer" "" 1]

/-- The buyer has one successful deal out of none. -/
theorem disputed_unaccepted_deal : FreshStats (sampleDb 2 ⟨1000000000, by decide⟩) ∧
    ∃ s user, Reach TallyStep Free (.start (sampleDb 2 ⟨1000000000, by decide⟩)) s ∧ s.db.users.row 1 = some user ∧
      user.dealStats = ⟨0, 1, 0⟩ ∧ ¬s.Consistent := by
  refine ⟨sampleDb_freshStats, ?_⟩
  obtain ⟨s, hs, hstats⟩ := Reach.free_of_check (s := Tally.start (sampleDb 2 ⟨1000000000, by decide⟩))
    (p := fun s => s.db.dealStats 1 = some ⟨0, 1, 0⟩) Tally.exec sampleUnaccepted (by decide +kernel)
  obtain ⟨user, hu, hus⟩ := Option.map_eq_some_iff.1 hstats
  refine ⟨s, user, hs, hu, hus, ?_⟩
  intro hcons
  have hle : user.dealStats.success + user.dealStats.failed ≤ user.dealStats.total := (hcons 1 user hu).1
  rw [hus] at hle
  exact absurd hle (by decide)

end Garant
