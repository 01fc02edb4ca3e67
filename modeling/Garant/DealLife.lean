import Garant.DepositEvents
import Garant.Requests
/-!
# The life of a deal

Every status change of a deal, over any interleaving of the requests, payments
and sweeps that lock its row. `Allows` says which change each operation allows to
whom; `deals_of` that no operation does more to a row. A request waits for the
row lock with whatever its session has loaded before, and runs on what the lock
gives it.
-/
open Decimal

namespace Garant

/-! ## Gates -/

/-- A party to the deal. -/
def Deal.Party (d : Deal) (user_id : ℕ) : Prop := user_id = d.buyer_id ∨ user_id = d.seller_id

/-- The deposit whose payment the operation delivers. -/
def Op.Pays (db : Db) (deposit_id : ℕ) : Op → Prop
  | .completeDealTopupPayment i _ _ _ => i = deposit_id
  | .pollDepositStatus i _ _ _ => i = deposit_id
  | .handleInvoicePaid payload _ _ =>
    ∃ id, payload.invoice_id = some id ∧ findWalletDeposit db id .cryptobot = .ok (some deposit_id)
  | .handleCrystalpayInvoice payload _ _ =>
    ∃ id, payload.invoice_id = some id ∧ findWalletDeposit db id .crystalpay = .ok (some deposit_id)
  | _ => False

/-- The operation delivers a payment for the deal. -/
def Op.PaysFor (db : Db) (deal_id : ℕ) (op : Op) : Prop :=
  ∃ i dep, op.Pays db i ∧ db.wallet_deposits.row i = some dep ∧ dep.linked_deal_id = some deal_id

/-- The status an operation may give the deal it finds as `d`. -/
inductive Allows (db : Db) (k : ℕ) (d : Deal) : Op → DealStatus → Prop
  | pay {op : Op} (hp : op.PaysFor db k) (hs : d.status = .pending_topup) : Allows db k d op .pending_confirmation
  | sweepPendingTopup {picked : List ℕ} {now : Time} (hk : k ∈ picked) (hs : d.status = .pending_topup) :
      Allows db k d (.sweepPendingTopup picked now) .cancelled_for_inactivity
  | cancelPendingTopup {u : ℕ} {now : Time} (hu : u = d.buyer_id) (hs : d.status = .pending_topup) :
      Allows db k d (.cancelPendingTopup k u now) .cancelled
  | acceptDeal {u : ℕ} {now : Time} (hu : u = d.seller_id) (hs : d.status = .pending_confirmation) :
      Allows db k d (.acceptDeal k u now) .in_progress
  | declineDeal {u : ℕ} {now : Time} (hu : u = d.seller_id) (hs : d.status = .pending_confirmation) :
      Allows db k d (.declineDeal k u now) .cancelled
  | finishDeal {u : ℕ} {now : Time} (hu : u = d.buyer_id) (hs : d.status = .in_progress) :
      Allows db k d (.finishDeal k u now) .completed
  | requestCancel {u : ℕ} {reason : String} {now : Time} (hu : d.Party u) (hs : d.status = .in_progress) :
      Allows db k d (.requestCancel k u reason now) .pending_cancellation
  | revokeCancel {u : ℕ} (hu : some u = d.cancellation_initiator_id) (hs : d.status = .pending_cancellation) :
      Allows db k d (.revokeCancel k u) .in_progress
  | acceptCancel {u : ℕ} {now : Time} (hu : d.Party u) (hi : some u ≠ d.cancellation_initiator_id)
      (hs : d.status = .pending_cancellation) : Allows db k d (.acceptCancel k u now) .cancelled
  | startArbitration {u : ℕ} {reason : String} (hu : d.Party u)
      (hs : d.status = .in_progress ∨ d.status = .pending_cancellation) :
      Allows db k d (.startArbitration k u reason) .arbitration
  | resolveArbitration {a : ℕ} {admin : User} {winner note : String} {now : Time} (ha : db.users.row a = some admin)
      (hrole : admin.is_admin ∨ admin.is_arbiter) (hs : d.status = .arbitration) :
      Allows db k d (.resolveArbitration k a winner note now)
        (if winner = "buyer" then .resolved_for_buyer else .resolved_for_seller)
  | sweepInactivity {picked : List ℕ} {now : Time} (hk : k ∈ picked) (hi : inactive db.app_settings now d = true) :
      Allows db k d (.sweepInactivity picked now)
        (if d.status = .pending_confirmation then .cancelled_for_inactivity else .cancelled)
  | forceRelease {a : ℕ} {reason : Option String} {approval : Option ℕ} {now : Time}
      (hs : isActiveForMoneyMovement d.status = true) :
      Allows db k d (.forceRelease k a reason approval now) .resolved_for_seller
  | forceRefund {a : ℕ} {reason : Option String} {approval : Option ℕ} {now : Time}
      (hs : isActiveForMoneyMovement d.status = true) :
      Allows db k d (.forceRefund k a reason approval now) .resolved_for_buyer
  | splitDeal {a : ℕ} {p : BodyDecimal} {q : ℚ} {reason : Option String} {approval : Option ℕ} {now : Time}
      (hq : percentOk p = .ok q) (hs : isActiveForMoneyMovement d.status = true) :
      Allows db k d (.splitDeal k a p reason approval now) (if 50 ≤ q then .resolved_for_buyer else .resolved_for_seller)
  | forceArbitration {a : ℕ} {reason : Option String} (hs : isTerminal d.status = false) :
      Allows db k d (.forceArbitration k a reason) .arbitration

/-! ## Rows -/

/-- The fields the status of a deal decides. -/
structure Deal.WellFormed (d : Deal) : Prop where
  cancellation : d.status = .pending_cancellation →
    (∃ u, d.cancellation_initiator_id = some u ∧ d.Party u) ∧ d.cancellation_requested_at.isSome = true
  completed : d.completed_at.isSome = isTerminal d.status

/-- A deal as the creating operations insert it. -/
structure Deal.New (d : Deal) : Prop where
  parties : d.buyer_id ≠ d.seller_id
  status : d.status = .pending_confirmation ∨ d.status = .pending_topup
  completed : d.completed_at = none

/-- Another status, or none of the fields that go with it. -/
inductive RowStep (db : Db) (op : Op) (k : ℕ) (d d' : Deal) : Prop
  | kept (hs : d'.status = d.status) (hc : d'.completed_at = d.completed_at)
      (hi : d'.cancellation_initiator_id = d.cancellation_initiator_id)
      (hr : d'.cancellation_requested_at = d.cancellation_requested_at) (ht : SameTerms d d')
  | moved (hg : Allows db k d op d'.status) (ht : SameTerms d d')
      (hc : if isTerminal d'.status then d'.completed_at.isSome = true else d'.completed_at = d.completed_at)
      (hi : d'.status = .pending_cancellation →
        (∃ u, d'.cancellation_initiator_id = some u ∧ d'.Party u) ∧ d'.cancellation_requested_at.isSome = true)

/-- What an operation does to the deals: each stays or passes its gate, and the others are new. -/
def DealsStep (op : Op) (db db' : Db) : Prop :=
  ∀ k, (∀ d, db.deals.row k = some d → ∃ d', db'.deals.row k = some d' ∧ RowStep db op k d d') ∧
    (db.deals.row k = none → ∀ d', db'.deals.row k = some d' → d'.New)

def Db.status (db : Db) (deal_id : ℕ) : Option DealStatus := (db.deals.row deal_id).map (·.status)

/-- The time the operation reads from the clock. -/
def Op.now : Op → Option Time
  | .createDepositInvoice _ _ _ _ _ _ _ now | .createDeal _ _ _ _ _ now | .createDealWithTopup _ _ _ _ _ _ now
  | .completeDealTopupPayment _ _ _ now | .sweepPendingTopup _ now | .cancelPendingTopup _ _ now | .acceptDeal _ _ now
  | .declineDeal _ _ now | .finishDeal _ _ now | .requestCancel _ _ _ now | .acceptCancel _ _ now
  | .resolveArbitration _ _ _ _ now | .sweepInactivity _ now | .approveDealApproval _ _ now | .rejectDealApproval _ now
  | .forceRelease _ _ _ _ now | .forceRefund _ _ _ _ now | .splitDeal _ _ _ _ _ now | .handleInvoicePaid _ _ now
  | .handleCrystalpayInvoice _ _ now | .pollDepositStatus _ _ _ now | .sweepExpiredDeposits _ now
  | .markPaid _ now => some now
  | .revokeCancel .. | .startArbitration .. | .forceArbitration .. | .assignArbiter .. | .deleteDeal ..
  | .handleInvoiceExpired .. | .refundDeposit .. | .adjustUserBalance .. | .pinResetPaid .. => none

/-- The operation makes a new deal. -/
def Op.Creates : Op → Prop
  | .createDeal .. | .createDealWithTopup .. => True
  | _ => False

/-- A deal keeps the time it was created; a new one comes from a creation, and has its time. -/
def Stamped (op : Op) (db db' : Db) : Prop :=
  ∀ k d', db'.deals.row k = some d' → (∃ d, db.deals.row k = some d ∧ d'.created_at = d.created_at) ∨
    (db.deals.row k = none ∧ op.Creates ∧ op.now = some d'.created_at)

/-- What an operation does to the deals and to the times they were created. -/
structure TimedStep (op : Op) (db db' : Db) : Prop where
  deals : DealsStep op db db'
  stamped : Stamped op db db'

section
variable {db db₁ db' : Db} {op : Op} {i j k u : ℕ} {d d' d'' : Deal} {now : Time}

theorem status_of_row (h : db.deals.row k = some d) : db.status k = some d.status := by
  rw [Db.status, h, Option.map_some]

theorem row_of_status {st : DealStatus} (h : db.status k = some st) : ∃ d, db.deals.row k = some d ∧ d.status = st :=
  Option.map_eq_some_iff.1 h

theorem RowStep.refl (d : Deal) : RowStep db op k d d := .kept rfl rfl rfl rfl ⟨rfl, rfl, rfl, rfl⟩

theorem active_nonterminal {st : DealStatus} (h : isActiveForMoneyMovement st = true) : isTerminal st = false := by
  cases st <;> first | rfl | cases h

theorem Allows.nonterminal (h : Allows db k d op d'.status) : isTerminal d.status = false := by
  generalize d'.status = st at h
  cases h with
  | pay _ hs => rw [hs]; rfl
  | resolveArbitration _ _ hs => rw [hs]; rfl
  | sweepInactivity _ hi => exact active_nonterminal (inactive_active hi)
  | startArbitration _ hs => rcases hs with hs | hs <;> rw [hs] <;> rfl
  | forceRelease hs => exact active_nonterminal hs
  | forceRefund hs => exact active_nonterminal hs
  | splitDeal _ hs => exact active_nonterminal hs
  | forceArbitration hs => exact hs
  | _ => rename_i hs; rw [hs]; rfl

theorem RowStep.terms (h : RowStep db op k d d') : SameTerms d d' := by
  cases h with
  | kept _ _ _ _ ht => exact ht
  | moved _ ht => exact ht

theorem RowStep.wellFormed (h : RowStep db op k d d') (hd : d.WellFormed) : d'.WellFormed := by
  cases h with
  | kept hs hc hi hr ht =>
    obtain ⟨hb, hsel, -, -⟩ := ht
    refine ⟨?_, by rw [hc, hs]; exact hd.completed⟩
    intro hp
    rw [hs] at hp
    obtain ⟨⟨u, hu, hparty⟩, hreq⟩ := hd.cancellation hp
    refine ⟨⟨u, hi.trans hu, ?_⟩, by rw [hr]; exact hreq⟩
    rwa [Deal.Party, hb, hsel]
  | moved hg _ hc hi =>
    refine ⟨hi, ?_⟩
    split at hc
    · rename_i ht
      rw [hc, ht]
    · rename_i ht
      have hopen : isTerminal d.status = false := Allows.nonterminal hg
      rw [hc, hd.completed, hopen]
      exact (Bool.eq_false_iff.2 ht).symm

/-- A later change that keeps the row adds nothing. -/
theorem RowStep.trans_kept (h : RowStep db op k d d') (hs : d''.status = d'.status)
    (hc : d''.completed_at = d'.completed_at) (hi : d''.cancellation_initiator_id = d'.cancellation_initiator_id)
    (hr : d''.cancellation_requested_at = d'.cancellation_requested_at) (ht : SameTerms d' d'') : RowStep db op k d d'' := by
  obtain ⟨hb', hs', hcur', ha'⟩ := ht
  cases h with
  | kept hs₁ hc₁ hi₁ hr₁ ht₁ =>
    obtain ⟨hb₁, hsel₁, hcur₁, ha₁⟩ := ht₁
    exact .kept (hs.trans hs₁) (hc.trans hc₁) (hi.trans hi₁) (hr.trans hr₁)
      ⟨hb'.trans hb₁, hs'.trans hsel₁, hcur'.trans hcur₁, ha'.trans ha₁⟩
  | moved hg ht₁ hc₁ hi₁ =>
    obtain ⟨hb₁, hsel₁, hcur₁, ha₁⟩ := ht₁
    refine .moved (by rw [hs]; exact hg) ⟨hb'.trans hb₁, hs'.trans hsel₁, hcur'.trans hcur₁, ha'.trans ha₁⟩ ?_ ?_
    · rw [hs, hc]
      exact hc₁
    · rw [hs, hi, hr]
      intro hp
      obtain ⟨⟨u, hu, hparty⟩, hreq⟩ := hi₁ hp
      exact ⟨⟨u, hu, by rwa [Deal.Party, hb', hs']⟩, hreq⟩

theorem TimedStep.of_eq (h : db'.deals = db.deals) : TimedStep op db db' := by
  refine ⟨?_, ?_⟩
  · intro k
    rw [h]
    refine ⟨fun d hd => ⟨d, hd, .refl d⟩, ?_⟩
    intro hn d' hd'
    rw [hn] at hd'
    cases hd'
  · intro k d' hd'
    rw [h] at hd'
    exact .inl ⟨d', hd', rfl⟩

theorem TimedStep.of_set (hr : db.deals.row i = some d) (hd : db'.deals = db.deals.set i d') (h : RowStep db op i d d')
    (hc : d'.created_at = d.created_at) : TimedStep op db db' := by
  refine ⟨?_, ?_⟩
  · intro k
    rw [hd, Table.set_row hr]
    by_cases hk : k = i
    · subst hk
      rw [if_pos rfl, hr]
      refine ⟨?_, by simp⟩
      rintro _ ⟨⟩
      exact ⟨d', rfl, h⟩
    · rw [if_neg hk]
      refine ⟨fun d hd => ⟨d, hd, .refl d⟩, ?_⟩
      intro hn d' hd'
      rw [hn] at hd'
      cases hd'
  · intro k e he
    rw [hd, Table.set_row hr] at he
    split at he
    · rename_i hk
      cases he
      exact .inl ⟨d, by rw [hk, hr], hc⟩
    · exact .inl ⟨e, he, rfl⟩

theorem TimedStep.of_insert (hd : db'.deals = db.deals.insert d) (h : d.New) (hop : op.Creates)
    (hc : op.now = some d.created_at) : TimedStep op db db' := by
  refine ⟨?_, ?_⟩
  · intro k
    rw [hd, Table.insert_row]
    by_cases hk : k = db.deals.next
    · rw [if_pos hk, hk, db.deals.fresh _ le_rfl]
      refine ⟨by simp, ?_⟩
      rintro - _ ⟨⟩
      exact h
    · rw [if_neg hk]
      refine ⟨fun d hd => ⟨d, hd, .refl d⟩, ?_⟩
      intro hn d' hd'
      rw [hn] at hd'
      cases hd'
  · intro k e he
    rw [hd, Table.insert_row] at he
    split at he
    · rename_i hk
      cases he
      exact .inr ⟨by rw [hk]; exact db.deals.fresh _ le_rfl, hop, hc⟩
    · exact .inl ⟨e, he, rfl⟩

/-! ## User operations -/

theorem newDeal_new {b s c : ℕ} {a com : Money} {st : DealStatus} {provider : String} {paid : Bool} (hp : b ≠ s)
    (hs : st = .pending_confirmation ∨ st = .pending_topup) : (newDeal b s c a com st provider paid now).New :=
  ⟨hp, hs, rfl⟩

theorem Deal.New.wellFormed (h : d.New) : d.WellFormed := by
  obtain ⟨-, hs, hc⟩ := h
  refine ⟨?_, ?_⟩
  · intro hp
    rw [hp] at hs
    rcases hs with hs | hs <;> cases hs
  · rw [hc]
    rcases hs with hs | hs <;> rw [hs] <;> rfl

theorem linkDeposit_deals (db : Db) (k j : ℕ) :
    (∃ d, db.deals.row k = some d ∧ (linkDeposit db k j).deals = db.deals.set k { d with topup_deposit_id := some j }) ∨
      (linkDeposit db k j).deals = db.deals := by
  cases hr : db.deals.row k with
  | none => exact .inr (by simp [linkDeposit, hr])
  | some d => exact .inl ⟨d, rfl, by simp [linkDeposit, hr]⟩

theorem createDeal_deals {b s : ℕ} {code : String} {amount : Option ℚ} {provider : String}
    (h : createDeal db b s code amount provider now = .ok db') :
    TimedStep (.createDeal b s code amount provider now) db db' := by
  simp only [createDeal, bind_ok, pure_ok] at h
  obtain ⟨⟨c, cur, amt, com⟩, hterms, db₁, hd, a, -, com', -, rfl⟩ := h
  obtain ⟨bal, hm, -, -, -⟩ := debit_ok hd
  refine .of_insert (d := newDeal b s c a com' .pending_confirmation provider true now) ?_
    (newDeal_new (dealTerms_ok hterms).1 (.inl rfl)) trivial rfl
  rw [← hm.deals]
  rfl

theorem createDealWithTopup_deals {b s : ℕ} {code : String} {amount : Option ℚ} {provider : String}
    {reply : InvoiceReply} (h : createDealWithTopup db b s code amount provider reply now = .ok db') :
    TimedStep (.createDealWithTopup b s code amount provider reply now) db db' := by
  simp only [createDealWithTopup, bind_ok] at h
  obtain ⟨⟨c, cur, amt, com⟩, hterms, needed, -, gap, -, total, -, a, -, com', -, h⟩ := h
  have hp : b ≠ s := (dealTerms_ok hterms).1
  obtain ⟨f, hf⟩ := lockUserBalance_eq db b c
  rw [hf] at h
  split at h
  · obtain ⟨bal, -, -, hm⟩ := changeBalance_ok (dealRef_ne (by decide) _) h
    exact .of_insert hm.deals (newDeal_new hp (.inl rfl)) trivial rfl
  · simp only [bind_ok, raiseIf_ok, pure_ok] at h
    obtain ⟨_, -, ⟨j, db₂⟩, hi, rfl⟩ := h
    obtain ⟨-, -, hd⟩ := createDepositInvoice_idle hi
    -- the new row is linked to its invoice
    have hrow : db₂.deals.row db.deals.next = some (newDeal b s c a com' .pending_topup provider false now) := by
      rw [hd]
      exact if_pos rfl
    rcases linkDeposit_deals db₂ db.deals.next j with ⟨d, hd', hlink⟩ | hlink
    · cases hrow.symm.trans hd'
      refine .of_insert (d := { newDeal b s c a com' .pending_topup provider false now with topup_deposit_id := some j }) ?_
        ⟨hp, .inr rfl, rfl⟩ trivial rfl
      rw [hlink, hd]
      exact Table.set_insert
    · refine .of_insert (d := newDeal b s c a com' .pending_topup provider false now) ?_
        (newDeal_new hp (.inr rfl)) trivial rfl
      rw [hlink, hd]
      rfl

theorem setDeal_deals (h : db₁.deals = db.deals) (i : ℕ) (d : Deal) : (db₁.setDeal i d).deals = db.deals.set i d := by
  rw [← h]
  rfl

/-- The row of a settlement closes with the time it was given. -/
theorem RowStep.closed {st : DealStatus} (hg : Allows db k d op st) (ht : isTerminal st = true) (hs : d'.status = st)
    (hc : d'.completed_at = some now) (hterms : SameTerms d d') : RowStep db op k d d' := by
  refine .moved (by rw [hs]; exact hg) hterms ?_ ?_
  · rw [hs, if_pos ht, hc]
    rfl
  · intro hp
    rw [← hs, hp] at ht
    cases ht

theorem cancelPendingTopup_deals (h : cancelPendingTopup db i u now = .ok db') :
    TimedStep (.cancelPendingTopup i u now) db db' := by
  simp only [cancelPendingTopup, getDeal, bind_ok, orRaise_ok, raiseIf_ok, pure_ok, not_not] at h
  obtain ⟨d, hr, _, hu, _, hs, rfl⟩ := h
  obtain ⟨t, ht⟩ := expireTopupDeposit_eq db d
  rw [ht]
  exact .of_set hr rfl (.closed (.cancelPendingTopup hu hs) rfl rfl rfl ⟨rfl, rfl, rfl, rfl⟩) rfl

theorem acceptDeal_deals (h : acceptDeal db i u now = .ok db') : TimedStep (.acceptDeal i u now) db db' := by
  simp only [acceptDeal, getDeal, bind_ok, orRaise_ok, raiseIf_ok, pure_ok, not_not] at h
  obtain ⟨d, hr, _, hu, _, hs, rfl⟩ := h
  exact .of_set hr rfl (.moved (.acceptDeal hu hs) ⟨rfl, rfl, rfl, rfl⟩ rfl fun hp => by cases hp) rfl

theorem declineDeal_deals (h : declineDeal db i u now = .ok db') : TimedStep (.declineDeal i u now) db db' := by
  simp only [declineDeal, getDeal, bind_ok, orRaise_ok, raiseIf_ok, pure_ok, not_not] at h
  obtain ⟨d, hr, _, hu, _, hs, amt, -, db₁, hp, rfl⟩ := h
  have hdeals : db₁.deals = db.deals := (refundPrincipal_ok hp).frame.1
  exact .of_set hr (setDeal_deals hdeals i _) (.closed (.declineDeal hu hs) rfl rfl rfl ⟨rfl, rfl, rfl, rfl⟩) rfl

theorem finishDeal_deals (h : finishDeal db i u now = .ok db') : TimedStep (.finishDeal i u now) db db' := by
  simp only [finishDeal, getDeal, bind_ok, orRaise_ok, raiseIf_ok, pure_ok, not_not] at h
  obtain ⟨d, hr, _, hu, _, hs, amt, -, db₁, hp, rfl⟩ := h
  have hdeals : db₁.deals = db.deals := (releaseTo_ok hp).frame.1
  exact .of_set hr (setDeal_deals hdeals i _) (.closed (.finishDeal hu hs) rfl rfl rfl ⟨rfl, rfl, rfl, rfl⟩) rfl

theorem notStranger (h : ¬(u ≠ d.buyer_id ∧ u ≠ d.seller_id)) : d.Party u := by
  unfold Deal.Party
  tauto

theorem requestCancel_deals {reason : String} (h : requestCancel db i u reason now = .ok db') :
    TimedStep (.requestCancel i u reason now) db db' := by
  simp only [requestCancel, getDeal, bind_ok, orRaise_ok, raiseIf_ok, pure_ok] at h
  obtain ⟨d, hr, _, hu, _, hs, rfl⟩ := h
  refine .of_set hr rfl (.moved (.requestCancel (notStranger hu) (not_not.1 hs)) ⟨rfl, rfl, rfl, rfl⟩ rfl ?_) rfl
  exact fun _ => ⟨⟨u, rfl, notStranger hu⟩, rfl⟩

theorem revokeCancel_deals (h : revokeCancel db i u = .ok db') : TimedStep (.revokeCancel i u) db db' := by
  simp only [revokeCancel, getDeal, bind_ok, orRaise_ok, raiseIf_ok, pure_ok, not_not] at h
  obtain ⟨d, hr, _, hs, _, hu, rfl⟩ := h
  exact .of_set hr rfl (.moved (.revokeCancel hu hs) ⟨rfl, rfl, rfl, rfl⟩ rfl fun hp => by cases hp) rfl

theorem acceptCancel_deals (h : acceptCancel db i u now = .ok db') : TimedStep (.acceptCancel i u now) db db' := by
  simp only [acceptCancel, getDeal, bind_ok, orRaise_ok, raiseIf_ok, pure_ok] at h
  obtain ⟨d, hr, _, hs, _, hu, _, hi, amt, -, db₁, hp, rfl⟩ := h
  have hdeals : db₁.deals = db.deals := (refundPrincipal_ok hp).frame.1
  exact .of_set hr (setDeal_deals hdeals i _)
    (.closed (.acceptCancel (notStranger hu) hi (not_not.1 hs)) rfl rfl rfl ⟨rfl, rfl, rfl, rfl⟩) rfl

theorem startArbitration_deals {reason : String} (h : startArbitration db i u reason = .ok db') :
    TimedStep (.startArbitration i u reason) db db' := by
  simp only [startArbitration, getDeal, bind_ok, orRaise_ok, raiseIf_ok, pure_ok] at h
  obtain ⟨d, hr, _, hu, _, hs, _, -, rfl⟩ := h
  have hs' : d.status = .in_progress ∨ d.status = .pending_cancellation := by tauto
  exact .of_set hr rfl (.moved (.startArbitration (notStranger hu) hs') ⟨rfl, rfl, rfl, rfl⟩ rfl fun hp => by cases hp) rfl

theorem payWinner_status {amt : ℚ} {winner : String} {r : Db × DealStatus} (h : payWinner db d winner amt = .ok r) :
    r.2 = if winner = "buyer" then .resolved_for_buyer else .resolved_for_seller := by
  unfold payWinner at h
  split at h
  · obtain ⟨_, -, h⟩ := bind_ok.1 h
    rw [← pure_ok.1 h, if_pos ‹_›]
  · obtain ⟨_, -, h⟩ := bind_ok.1 h
    rw [← pure_ok.1 h, if_neg ‹_›]

theorem resolveArbitration_deals {winner note : String} (h : resolveArbitration db i u winner note now = .ok db') :
    TimedStep (.resolveArbitration i u winner note now) db db' := by
  simp only [resolveArbitration, getDeal, bind_ok, orRaise_ok, raiseIf_ok, pure_ok] at h
  obtain ⟨d, hr, admin, ha, _, hrole, _, hs, _, -, amt, -, ⟨db₁, st⟩, hp, rfl⟩ := h
  have hdeals : db₁.deals = db.deals := (payWinner_ok hp).1.frame.1
  have hst : st = if winner = "buyer" then DealStatus.resolved_for_buyer else .resolved_for_seller := payWinner_status hp
  refine .of_set hr (setDeal_deals hdeals i _)
    (.closed (.resolveArbitration ha (not_not.1 hrole) (not_not.1 hs)) ?_ hst rfl ⟨rfl, rfl, rfl, rfl⟩) rfl
  rw [← hst]
  exact (payWinner_ok hp).2

/-! ## Admin operations -/

/-- A forced settlement that passes its gates closes the deal with its own status. -/
theorem forceSettle_deals {f : ForcedSettlement} {a : ℕ} {reason : Option String} {approval : Option ℕ}
    (hf : isTerminal f.status = true)
    (hmove : ∀ {db db₁ d amt n}, f.move db i d amt n = .ok db₁ → ∃ flow, Payout db d amt flow db₁)
    (hg : ∀ d, db.deals.row i = some d → isActiveForMoneyMovement d.status = true → Allows db i d op f.status)
    (h : forceSettle f db i a reason approval now = .ok db') : TimedStep op db db' := by
  obtain ⟨d, c, amt, hr, ha, -, -, ⟨t, rfl⟩ | ⟨db₂, t, hm, rfl⟩⟩ := forceSettle_cases h
  · exact .of_eq rfl
  · obtain ⟨flow, hpay⟩ := hmove hm
    exact .of_set hr (setDeal_deals hpay.frame.1 i _) (.closed (hg d hr ha) hf rfl rfl ⟨rfl, rfl, rfl, rfl⟩) rfl

theorem forceRelease_deals {a : ℕ} {reason : Option String} {approval : Option ℕ}
    (h : forceRelease db i a reason approval now = .ok db') : TimedStep (.forceRelease i a reason approval now) db db' := by
  refine forceSettle_deals rfl ?_ (fun _ _ hs => .forceRelease hs) h
  intro db db₁ d amt n hm
  obtain ⟨db₂, h₁, h₂⟩ := bind_ok.1 hm
  exact ⟨_, .release (dealRef_ne (by decide) (some i)) (dealRef_ne (by decide) (some i)) h₁ h₂⟩

theorem forceRefund_deals {a : ℕ} {reason : Option String} {approval : Option ℕ}
    (h : forceRefund db i a reason approval now = .ok db') : TimedStep (.forceRefund i a reason approval now) db db' := by
  refine forceSettle_deals rfl ?_ (fun _ _ hs => .forceRefund hs) h
  intro db db₁ d amt n hm
  exact ⟨_, .refund (dealRef_ne (by decide) (some i)) hm⟩

theorem splitDeal_deals {a : ℕ} {p : BodyDecimal} {reason : Option String} {approval : Option ℕ}
    (h : splitDeal db i a p reason approval now = .ok db') : TimedStep (.splitDeal i a p reason approval now) db db' := by
  obtain ⟨q, hq, h⟩ := bind_ok.1 h
  refine forceSettle_deals ?_ ?_ (fun _ _ hs => .splitDeal hq hs) h
  · simp only [splitSettlement]
    split <;> rfl
  · intro db db₁ d amt n hm
    obtain ⟨share, -, hm⟩ := bind_ok.1 hm
    obtain ⟨db₂, h₁, h₂⟩ := bind_ok.1 hm
    exact ⟨_, .split (dealRef_ne (by decide) (some i)) (dealRef_ne (by decide) (some i)) h₁ h₂⟩

theorem forceArbitration_deals {a : ℕ} {reason : Option String} (h : forceArbitration db i a reason = .ok db') :
    TimedStep (.forceArbitration i a reason) db db' := by
  simp only [forceArbitration, getDeal, bind_ok, orRaise_ok, raiseIf_ok] at h
  obtain ⟨d, hr, _, ht, h⟩ := h
  split at h
  · rw [pure_ok.1 h]
    exact .of_eq rfl
  · rw [← pure_ok.1 h]
    exact .of_set hr rfl (.moved (.forceArbitration (by simpa using ht)) ⟨rfl, rfl, rfl, rfl⟩ rfl fun hp => by cases hp) rfl

theorem assignArbiter_deals {a : Option ℕ} (h : assignArbiter db i a = .ok db') : TimedStep op db db' := by
  simp only [assignArbiter, getDeal, bind_ok, orRaise_ok, raiseIf_ok] at h
  obtain ⟨d, hr, _, hs, h⟩ := h
  have key (h : (if d.arbitration_resolved_by = a then pure db
      else pure (db.setDeal i { d with arbitration_resolved_by := a }) : Result Db) = .ok db') : TimedStep op db db' := by
    split at h
    · rw [pure_ok.1 h]
      exact .of_eq rfl
    · rw [← pure_ok.1 h]
      exact .of_set hr rfl (.kept rfl rfl rfl rfl ⟨rfl, rfl, rfl, rfl⟩) rfl
  split at h
  · exact key h
  · simp only [bind_ok] at h
    obtain ⟨_, -, _, -, h⟩ := h
    exact key h

/-! ## Payments -/

theorem TimedStep.congr (h : TimedStep op db db₁) (hd : db'.deals = db₁.deals) : TimedStep op db db' := by
  refine ⟨?_, ?_⟩
  · intro i
    rw [hd]
    exact h.deals i
  · intro i e he
    rw [hd] at he
    exact h.stamped i e he

theorem TimedStep.link (h : TimedStep op db db₁) (k j : ℕ) : TimedStep op db (linkDeposit db₁ k j) := by
  rcases linkDeposit_deals db₁ k j with ⟨d, hr, hlink⟩ | hlink
  · refine ⟨?_, ?_⟩
    · intro i
      obtain ⟨hrow, hnew⟩ := h.deals i
      rw [hlink, Table.set_row hr]
      by_cases hik : i = k
      · subst hik
        rw [if_pos rfl]
        constructor
        · intro d₀ hd₀
          obtain ⟨d₁, hd₁, hstep⟩ := hrow d₀ hd₀
          cases hr.symm.trans hd₁
          exact ⟨_, rfl, hstep.trans_kept rfl rfl rfl rfl ⟨rfl, rfl, rfl, rfl⟩⟩
        · rintro hn _ ⟨⟩
          obtain ⟨hp, hs, hc⟩ := hnew hn d hr
          exact ⟨hp, hs, hc⟩
      · rw [if_neg hik]
        exact ⟨hrow, hnew⟩
    · intro i e he
      rw [hlink, Table.set_row hr] at he
      split at he
      · rename_i hik
        cases he
        rw [hik]
        exact h.stamped k d hr
      · exact h.stamped i e he
  · exact h.congr hlink

theorem issueRemainingTopupInvoice_deals {cur : Currency} {x : ℚ} {reply : InvoiceReply} (h₀ : TimedStep op db db₁)
    (h : issueRemainingTopupInvoice db₁ k d cur x reply now = .ok db') : TimedStep op db db' := by
  simp only [issueRemainingTopupInvoice, bind_ok] at h
  obtain ⟨_, -, _, -, _, -, h⟩ := h
  split at h
  · rwa [← pure_ok.1 h]
  · simp only [bind_ok, pure_ok] at h
    obtain ⟨⟨j, db₂⟩, hi, rfl⟩ := h
    obtain ⟨-, -, hd⟩ := createDepositInvoice_idle hi
    exact (h₀.congr hd).link k j

theorem settleTopup_deals {dep : WalletDeposit} {cur : Currency} {paid : ℚ} {reply : InvoiceReply}
    (hp : op.PaysFor db k) (hr : db.deals.row k = some d) (hs : d.status = .pending_topup)
    (h : settleTopup db j dep k d cur paid reply now = .ok db') : TimedStep op db db' := by
  obtain ⟨amt, due, rep, bal, db₁, -, -, hm, h⟩ := settleTopup_ok h
  have hr₁ : db₁.deals.row k = some d := by rw [hm.deals, hr]
  cases h with
  | short _ _ _ hi =>
    have hkept : TimedStep op db db₁ := .of_eq hm.deals
    have hset : TimedStep op db (db₁.setDeposit j (dep.settle now (some rep))) := hkept.congr rfl
    exact issueRemainingTopupInvoice_deals hset hi
  | @partly _ e _ _ _ _ _ _ he hi =>
    have hkept : TimedStep op db (db₁.setDeal k e) := by
      refine .of_set hr (setDeal_deals hm.deals k e) ?_ (by rw [he])
      rw [he]
      exact .kept rfl rfl rfl rfl ⟨rfl, rfl, rfl, rfl⟩
    have hset : TimedStep op db ((db₁.setDeal k e).setDeposit j (dep.settle now (some rep))) := hkept.congr rfl
    exact issueRemainingTopupInvoice_deals hset hi
  | activated _ _ _ _ _ =>
    exact .of_set hr (setDeal_deals hm.deals k _)
      (.moved (.pay hp hs) ⟨rfl, rfl, rfl, rfl⟩ rfl fun hp => by cases hp) rfl

theorem completeDealTopupPayment_deals {paid : Option ℚ} {reply : InvoiceReply} (hp : op.Pays db j)
    (h : completeDealTopupPayment db j paid reply now = .ok db') : TimedStep op db db' := by
  have halone {dep : WalletDeposit} {db' : Db} (h : settleUnattached db j dep paid now = .ok db') : TimedStep op db db' := by
    obtain ⟨_, -, h⟩ := bind_ok.1 h
    rw [← pure_ok.1 h]
    exact .of_eq rfl
  simp only [completeDealTopupPayment, bind_ok, orRaise_ok] at h
  obtain ⟨dep, hj, h⟩ := h
  split at h
  · rw [pure_ok.1 h]
    exact .of_eq rfl
  split at h
  · exact halone h
  rename_i k hl
  split at h
  · exact halone h
  simp only [bind_ok, orRaise_ok] at h
  obtain ⟨cur, -, p, -, h⟩ := h
  split at h
  · exact settleTopup_deals ⟨j, dep, hp, hj, hl⟩ ‹_› ‹_› h
  · obtain ⟨db₁, hcr, h⟩ := bind_ok.1 h
    obtain ⟨rep, -, h⟩ := bind_ok.1 h
    obtain ⟨bal, hm, -, -⟩ := creditAmount_ok (depositRef_ne (by decide) _ _) hcr
    rw [← pure_ok.1 h]
    exact .of_eq hm.deals

/-- No funds are locked or unlocked. -/
def SameLocked (db db' : Db) : Prop := ∀ u c, (db'.balance u c).locked = (db.balance u c).locked

theorem SameLocked.of_eq (h : db'.user_balances = db.user_balances) : SameLocked db db' := by
  intro u c
  simp only [Db.balance, h]

theorem SameLocked.of_moved {silent : Prop} {c : ℕ} {bal : UserBalance} (h : Moved silent db db' u c bal)
    (hl : bal.locked = (db.balance u c).locked) : SameLocked db db' := by
  intro v e
  rw [h.balance]
  split
  · rename_i hv
    rw [hl, hv.1, hv.2]
  · rfl

/-- Either neither deals nor locked funds changed, or a deposit the operation
pays for went through `complete_deal_topup_payment`. -/
def TopupPaid (op : Op) (db db' : Db) : Prop :=
  (db'.deals = db.deals ∧ SameLocked db db') ∨
    ∃ j paid reply now, op.Pays db j ∧ completeDealTopupPayment db j paid reply now = .ok db'

theorem TopupPaid.of_eq (hd : db'.deals = db.deals) (hb : db'.user_balances = db.user_balances) : TopupPaid op db db' :=
  .inl ⟨hd, .of_eq hb⟩

theorem creditBalance_same {dep : WalletDeposit} {x : ℚ} (h : creditBalance db j dep x = .ok db') :
    db'.deals = db.deals ∧ SameLocked db db' := by
  unfold creditBalance at h
  split at h
  · simp only [creditTrust, recordSyntheticLedger, bind_ok] at h
    obtain ⟨user, -, trust, -, h⟩ := h
    split at h
    · rw [← pure_ok.1 h]
      exact ⟨rfl, .of_eq rfl⟩
    · simp only [bind_ok, pure_ok] at h
      obtain ⟨_, -, _, -, _, -, rfl⟩ := h
      exact ⟨rfl, .of_eq rfl⟩
  · obtain ⟨bal, hm, hl, -⟩ := creditAmount_ok (depositRef_ne (by decide) _ _) h
    exact ⟨hm.deals, .of_moved hm hl⟩

theorem creditDeposit_topup {paid : Option Number} {reply : InvoiceReply} (hp : op.Pays db j)
    (h : creditDeposit db j paid reply now = .ok db') : TopupPaid op db db' := by
  simp only [creditDeposit, bind_ok, orRaise_ok] at h
  obtain ⟨dep, -, h⟩ := h
  split at h
  · rw [pure_ok.1 h]
    exact .of_eq rfl rfl
  simp only [bind_ok] at h
  obtain ⟨nominal, -, reported, -, h⟩ := h
  split at h
  · exact .inr ⟨j, _, _, _, hp, h⟩
  · simp only [bind_ok, pure_ok] at h
    obtain ⟨db₁, hcr, _, -, _, -, rfl⟩ := h
    obtain ⟨hd, hl⟩ := creditBalance_same hcr
    exact .inl ⟨hd, hl⟩

theorem creditReported_topup {dep : WalletDeposit} {amount : Reported} {reply : InvoiceReply} {r : Db × Handled}
    (hp : op.Pays db j) (h : creditReported db j dep amount reply now = .ok r) : TopupPaid op db r.1 := by
  obtain ⟨accepted, -, h⟩ := bind_ok.1 h
  split at h
  · rw [← pure_ok.1 h]
    exact .of_eq rfl rfl
  · obtain ⟨db₁, hc, h⟩ := bind_ok.1 h
    rw [← pure_ok.1 h]
    exact creditDeposit_topup hp hc

theorem expireReported_same (db : Db) (j : ℕ) (dep : WalletDeposit) :
    (expireReported db j dep).1.deals = db.deals ∧ (expireReported db j dep).1.user_balances = db.user_balances := by
  unfold expireReported
  split
  · exact ⟨rfl, rfl⟩
  · exact ⟨rfl, rfl⟩

theorem handleInvoicePaid_topup {payload : InvoicePayload} {reply : InvoiceReply} {r : Db × Handled}
    (h : handleInvoicePaid db payload reply now = .ok r) : TopupPaid (.handleInvoicePaid payload reply now) db r.1 := by
  unfold handleInvoicePaid at h
  split at h
  · rw [← pure_ok.1 h]
    exact .of_eq rfl rfl
  split at h
  · rw [← pure_ok.1 h]
    exact .of_eq rfl rfl
  rename_i id hid
  obtain ⟨o, ho, h⟩ := bind_ok.1 h
  split at h
  · rw [← pure_ok.1 h]
    exact .of_eq rfl rfl
  obtain ⟨dep, -, h⟩ := bind_ok.1 h
  split at h
  · rw [← pure_ok.1 h]
    exact .of_eq rfl rfl
  · exact creditReported_topup ⟨id, hid, ho⟩ h

theorem handleInvoiceExpired_deals {payload : InvoicePayload} {r : Db × Handled}
    (h : handleInvoiceExpired db payload = .ok r) : TimedStep op db r.1 := by
  unfold handleInvoiceExpired at h
  split at h
  · rw [← pure_ok.1 h]
    exact .of_eq rfl
  obtain ⟨o, -, h⟩ := bind_ok.1 h
  split at h
  · rw [← pure_ok.1 h]
    exact .of_eq rfl
  · obtain ⟨dep, -, h⟩ := bind_ok.1 h
    rw [← pure_ok.1 h]
    exact .of_eq (expireReported_same _ _ _).1

theorem handleCrystalpayInvoice_topup {payload : InvoicePayload} {reply : InvoiceReply} {r : Db × Handled}
    (h : handleCrystalpayInvoice db payload reply now = .ok r) :
    TopupPaid (.handleCrystalpayInvoice payload reply now) db r.1 := by
  unfold handleCrystalpayInvoice at h
  split at h
  · rw [← pure_ok.1 h]
    exact .of_eq rfl rfl
  rename_i id hid
  obtain ⟨o, ho, h⟩ := bind_ok.1 h
  split at h
  · rw [← pure_ok.1 h]
    exact .of_eq rfl rfl
  obtain ⟨dep, -, h⟩ := bind_ok.1 h
  split at h
  · split at h
    · rw [← pure_ok.1 h]
      exact .of_eq rfl rfl
    split at h
    · rw [← pure_ok.1 h]
      exact .of_eq rfl rfl
    · exact creditReported_topup ⟨id, hid, ho⟩ h
  split at h
  · rw [← pure_ok.1 h]
    obtain ⟨hd, hb⟩ := expireReported_same db _ dep
    exact .of_eq hd hb
  · rw [← pure_ok.1 h]
    exact .of_eq rfl rfl

theorem pollDepositStatus_topup {answer : PollReply} {reply : InvoiceReply}
    (h : pollDepositStatus db j answer reply now = .ok db') : TopupPaid (.pollDepositStatus j answer reply now) db db' := by
  obtain ⟨dep, -, h⟩ := bind_ok.1 h
  split at h
  · rw [← pure_ok.1 h]
    exact .of_eq rfl rfl
  split at h
  · rw [← pure_ok.1 h]
    exact .of_eq rfl rfl
  · rw [← pure_ok.1 h]
    exact .of_eq rfl rfl
  split at h
  · obtain ⟨_, -, h⟩ := bind_ok.1 h
    split at h
    · rw [← pure_ok.1 h]
      exact .of_eq rfl rfl
    · exact creditDeposit_topup rfl h
  split at h
  · obtain ⟨_, -, h⟩ := bind_ok.1 h
    split at h
    · rw [← pure_ok.1 h]
      exact .of_eq rfl rfl
    · rw [← pure_ok.1 h]
      exact .of_eq rfl rfl
  · rw [← pure_ok.1 h]
    exact .of_eq rfl rfl

theorem TopupPaid.timed (h : TopupPaid op db db') : TimedStep op db db' := by
  rcases h with ⟨hd, -⟩ | ⟨j, paid, reply, now, hp, h⟩
  · exact .of_eq hd
  · exact completeDealTopupPayment_deals hp h

/-- The operations that deliver a payment all end in `complete_deal_topup_payment`, or leave the deals alone. -/
theorem topupPaid_of {i : ℕ} (hp : op.Pays db i) (h : op.run db = .ok db') : TopupPaid op db db' := by
  cases op with
  | completeDealTopupPayment j paid reply now => exact .inr ⟨j, paid, reply, now, rfl, h⟩
  | pollDepositStatus j answer reply now => exact pollDepositStatus_topup h
  | handleInvoicePaid payload reply now =>
    obtain ⟨r, hr, rfl⟩ := map_ok.1 h
    exact handleInvoicePaid_topup hr
  | handleCrystalpayInvoice payload reply now =>
    obtain ⟨r, hr, rfl⟩ := map_ok.1 h
    exact handleCrystalpayInvoice_topup hr
  | _ => exact absurd hp id

/-- A delivery is about one deposit. -/
theorem pays_unique (hi : op.Pays db i) (hj : op.Pays db j) : i = j := by
  cases op with
  | completeDealTopupPayment k paid reply now => exact hi.symm.trans hj
  | pollDepositStatus k answer reply now => exact hi.symm.trans hj
  | handleInvoicePaid payload reply now | handleCrystalpayInvoice payload reply now =>
    obtain ⟨id, hid, hfind⟩ := hi
    obtain ⟨id', hid', hfind'⟩ := hj
    cases hid.symm.trans hid'
    cases hfind.symm.trans hfind'
    rfl
  | _ => exact absurd hi id

/-! ## Sweeps -/

/-- A sweep changes only rows it picked, each at most once. -/
theorem sweep_deals {P : ℕ → Deal → Prop} {f : Db → ℕ → Result Db} {rows : List ℕ} {db₀ : Db}
    (hf : ∀ db db' i d, db.deals.row i = some d → P i d → f db i = .ok db' →
      ∃ d', db'.deals = db.deals.set i d' ∧ RowStep db₀ op i d d' ∧ d'.created_at = d.created_at)
    (hn : rows.Nodup) (hrows : ∀ i ∈ rows, ∃ d, db.deals.row i = some d ∧ db₀.deals.row i = some d ∧ P i d)
    (h₀ : TimedStep op db₀ db) (h : rows.foldlM f db = .ok db') : TimedStep op db₀ db' := by
  induction rows generalizing db with
  | nil =>
    rw [List.foldlM_nil] at h
    rwa [← pure_ok.1 h]
  | cons i rows ih =>
    rw [List.foldlM_cons] at h
    obtain ⟨db₁, h₁, h⟩ := bind_ok.1 h
    obtain ⟨d, hd, hd₀, hP⟩ := hrows i List.mem_cons_self
    obtain ⟨d', hset, hstep, hc⟩ := hf _ _ _ _ hd hP h₁
    have hi := (List.nodup_cons.1 hn).1
    refine ih (List.nodup_cons.1 hn).2 ?_ ?_ h
    · intro j hj
      have hji : j ≠ i := fun hji => hi (hji ▸ hj)
      rw [hset, Table.set_row_ne hji]
      exact hrows j (List.mem_cons_of_mem _ hj)
    · refine ⟨?_, ?_⟩
      · intro j
        obtain ⟨hrow, hnew⟩ := h₀.deals j
        rw [hset, Table.set_row hd]
        by_cases hji : j = i
        · subst hji
          rw [if_pos rfl, hd₀]
          refine ⟨?_, by simp⟩
          rintro _ ⟨⟩
          exact ⟨d', rfl, hstep⟩
        · rw [if_neg hji]
          exact ⟨hrow, hnew⟩
      · intro j e he
        rw [hset, Table.set_row hd] at he
        split at he
        · rename_i hji
          cases he
          exact .inl ⟨d, by rw [hji, hd₀], hc⟩
        · exact h₀.stamped j e he

theorem sweepPendingTopup_deals {picked : List ℕ} (h : sweepPendingTopup db picked now = .ok db') :
    TimedStep (.sweepPendingTopup picked now) db db' := by
  unfold sweepPendingTopup at h
  extract_lets hrs rows at h
  by_cases h0 : hrs ≤ 0
  · rw [if_pos h0] at h
    rw [pure_ok.1 h]
    exact .of_eq rfl
  rw [if_neg h0] at h
  refine sweep_deals (P := fun i d => i ∈ picked ∧ d.status = .pending_topup) ?_ ((List.nodup_dedup _).filter _) ?_
    (.of_eq rfl) h
  · rintro db₁ db₂ i d hr ⟨hi, hs⟩ h
    simp only [sweepPendingTopupDeal, getDeal, bind_ok, orRaise_ok, pure_ok] at h
    obtain ⟨d', hr', rfl⟩ := h
    cases hr.symm.trans hr'
    obtain ⟨t, ht⟩ := expireTopupDeposit_eq db₁ d
    rw [ht]
    exact ⟨_, rfl, .closed (.sweepPendingTopup hi hs) rfl rfl rfl ⟨rfl, rfl, rfl, rfl⟩, rfl⟩
  · intro i hi
    obtain ⟨d, hr, hp⟩ := picked_rows i hi
    simp only [decide_eq_true_eq] at hp
    exact ⟨d, hr, hr, List.mem_dedup.1 (List.mem_filter.1 hi).1, hp.1⟩

theorem sweepInactivity_deals {picked : List ℕ} (h : sweepInactivity db picked now = .ok db') :
    TimedStep (.sweepInactivity picked now) db db' := by
  refine sweep_deals (P := fun i d => i ∈ picked ∧ inactive db.app_settings now d = true) ?_
    ((List.nodup_dedup _).filter _) ?_ (.of_eq rfl) h
  · rintro db₁ db₂ i d hr ⟨hi, hina⟩ h
    simp only [sweepInactivityDeal, getDeal, bind_ok, orRaise_ok] at h
    obtain ⟨d', hr', h⟩ := h
    cases hr.symm.trans hr'
    split at h
    · -- passed over: the row is set to itself
      rw [← pure_ok.1 h]
      refine ⟨d, ?_, .refl d, rfl⟩
      ext j : 2
      · rw [Table.set_row hr]
        split
        · rename_i hji
          rw [hji, hr]
        · rfl
      · rfl
    · simp only [bind_ok, pure_ok] at h
      obtain ⟨amt, -, db₃, hp, rfl⟩ := h
      have hdeals : db₃.deals = db₁.deals := (refundPrincipal_ok hp).frame.1
      refine ⟨_, setDeal_deals hdeals i _, .closed (.sweepInactivity hi hina) ?_ rfl rfl ⟨rfl, rfl, rfl, rfl⟩, rfl⟩
      split <;> rfl
  · intro i hi
    obtain ⟨d, hr, hp⟩ := picked_rows i hi
    exact ⟨d, hr, hr, List.mem_dedup.1 (List.mem_filter.1 hi).1, hp⟩

/-! ## All operations -/

/-- The operation leaves the rows of the deals in place. -/
def Op.Keeps : Op → Prop
  | .deleteDeal _ => False
  | _ => True

theorem markPaid_deals (h : markPaid db j now = .ok db') : db'.deals = db.deals := by
  obtain ⟨dep, -, h⟩ := bind_ok.1 h
  split at h
  · rw [← pure_ok.1 h]
  · simp only [bind_ok, pure_ok] at h
    obtain ⟨_, -, db₁, hw, rfl⟩ := h
    obtain ⟨bal, -, -, hm⟩ := writeBalance_moved hw
    exact hm.deals

theorem refundDeposit_deals (h : refundDeposit db j = .ok db') : db'.deals = db.deals := by
  simp only [refundDeposit, bind_ok, pure_ok] at h
  obtain ⟨_, -, _, -, _, -, _, -, _, -, db₁, hw, rfl⟩ := h
  obtain ⟨bal, -, -, rfl⟩ := writeBalance_ok hw
  rfl

theorem adjustUserBalance_deals {code : String} {delta : ℚ} (h : adjustUserBalance db u code delta = .ok db') :
    db'.deals = db.deals := by
  simp only [adjustUserBalance, bind_ok] at h
  obtain ⟨_, -, _, -, _, -, c, -, _, -, h⟩ := h
  have hev : "admin_wallet.adjust" ≠ trustEvent := by decide
  obtain ⟨bal, -, -, hm⟩ := changeBalance_ok hev h
  exact hm.deals

theorem pinResetPaid_deals (h : pinResetPaid db u = .ok db') : db'.deals = db.deals := by
  simp only [pinResetPaid, bind_ok] at h
  obtain ⟨c, -, h⟩ := h
  split at h
  · rw [← pure_ok.1 h]
  · obtain ⟨_, -, h⟩ := bind_ok.1 h
    obtain ⟨bal, -, -, hm⟩ := writeBalance_moved h
    exact hm.deals

theorem timed_of (hk : op.Keeps) (h : op.run db = .ok db') : TimedStep op db db' := by
  cases op with
  | deleteDeal i => exact absurd hk id
  | createDepositInvoice u code amount purpose provider min_check reply now =>
    obtain ⟨r, hr, rfl⟩ := map_ok.1 h
    exact .of_eq (createDepositInvoice_idle hr).2.2
  | createDeal b s code amount provider now => exact createDeal_deals h
  | createDealWithTopup b s code amount provider reply now => exact createDealWithTopup_deals h
  | completeDealTopupPayment i paid reply now => exact completeDealTopupPayment_deals rfl h
  | sweepPendingTopup picked now => exact sweepPendingTopup_deals h
  | cancelPendingTopup i u now => exact cancelPendingTopup_deals h
  | acceptDeal i u now => exact acceptDeal_deals h
  | declineDeal i u now => exact declineDeal_deals h
  | finishDeal i u now => exact finishDeal_deals h
  | requestCancel i u reason now => exact requestCancel_deals h
  | revokeCancel i u => exact revokeCancel_deals h
  | acceptCancel i u now => exact acceptCancel_deals h
  | startArbitration i u reason => exact startArbitration_deals h
  | resolveArbitration i a winner note now => exact resolveArbitration_deals h
  | sweepInactivity picked now => exact sweepInactivity_deals h
  | approveDealApproval i a now =>
    simp only [Op.run, approveDealApproval, bind_ok, pure_ok] at h
    obtain ⟨_, -, _, -, _, -, rfl⟩ := h
    exact .of_eq rfl
  | rejectDealApproval i now =>
    simp only [Op.run, rejectDealApproval, bind_ok, pure_ok] at h
    obtain ⟨_, -, _, -, rfl⟩ := h
    exact .of_eq rfl
  | forceRelease i a reason approval now => exact forceRelease_deals h
  | forceRefund i a reason approval now => exact forceRefund_deals h
  | splitDeal i a p reason approval now => exact splitDeal_deals h
  | forceArbitration i a reason => exact forceArbitration_deals h
  | assignArbiter i a => exact assignArbiter_deals h
  | handleInvoicePaid payload reply now =>
    obtain ⟨r, hr, rfl⟩ := map_ok.1 h
    exact (handleInvoicePaid_topup hr).timed
  | handleInvoiceExpired payload =>
    obtain ⟨r, hr, rfl⟩ := map_ok.1 h
    exact handleInvoiceExpired_deals hr
  | handleCrystalpayInvoice payload reply now =>
    obtain ⟨r, hr, rfl⟩ := map_ok.1 h
    exact (handleCrystalpayInvoice_topup hr).timed
  | pollDepositStatus i answer reply now => exact (pollDepositStatus_topup h).timed
  | sweepExpiredDeposits picked now =>
    obtain ⟨t, -, ht⟩ := sweepExpiredDeposits_expires db picked now
    rw [← pure_ok.1 h, ht]
    exact .of_eq rfl
  | markPaid i now => exact .of_eq (markPaid_deals h)
  | refundDeposit i => exact .of_eq (refundDeposit_deals h)
  | adjustUserBalance u code delta => exact .of_eq (adjustUserBalance_deals h)
  | pinResetPaid u => exact .of_eq (pinResetPaid_deals h)

/-- No operation does more to a deal than its gate allows. -/
theorem deals_of (hk : op.Keeps) (h : op.run db = .ok db') : DealsStep op db db' := (timed_of hk h).deals

/-! ## Closed deals -/

/-- The deal an operation locks by its key. -/
def Op.subject : Op → Option ℕ
  | .cancelPendingTopup i _ _ | .acceptDeal i _ _ | .declineDeal i _ _ | .finishDeal i _ _ | .requestCancel i _ _ _
  | .revokeCancel i _ | .acceptCancel i _ _ | .startArbitration i _ _ | .resolveArbitration i _ _ _ _
  | .forceRelease i _ _ _ _ | .forceRefund i _ _ _ _ | .splitDeal i _ _ _ _ _ | .forceArbitration i _ _
  | .assignArbiter i _ | .deleteDeal i => some i
  | _ => none

/-- The operation, with `k` left out of the rows a sweep picks. -/
def Op.without (k : ℕ) : Op → Op
  | .sweepPendingTopup picked now => .sweepPendingTopup (picked.filter (· ≠ k)) now
  | .sweepInactivity picked now => .sweepInactivity (picked.filter (· ≠ k)) now
  | op => op

/-- The operation is not on deal `k`, passes it over if it is a sweep, and
locks or unlocks nothing if it is a payment for it. -/
structure PassesOver (op : Op) (db db' : Db) (k : ℕ) : Prop where
  subject : op.subject ≠ some k
  swept : (op.without k).run db = .ok db'
  paid : op.PaysFor db k → ∀ u c, (db'.balance u c).locked = (db.balance u c).locked

theorem forceSettle_active {f : ForcedSettlement} {a : ℕ} {reason : Option String} {approval : Option ℕ}
    (h : forceSettle f db i a reason approval now = .ok db') :
    ∃ d, db.deals.row i = some d ∧ isActiveForMoneyMovement d.status = true := by
  obtain ⟨d, c, amt, hr, ha, -⟩ := forceSettle_cases h
  exact ⟨d, hr, ha⟩

/-- An operation on a deal goes through only while the deal is open. -/
theorem subject_open (hk : op.Keeps) (hs : op.subject = some k) (h : op.run db = .ok db') :
    ∃ d, db.deals.row k = some d ∧ isTerminal d.status = false := by
  have hst {d : Deal} {st : DealStatus} (hst : isTerminal st = false) (h : d.status = st) : isTerminal d.status = false := by
    rw [h, hst]
  have hforced {f : ForcedSettlement} {a : ℕ} {reason : Option String} {approval : Option ℕ} {now : Time}
      (h : forceSettle f db k a reason approval now = .ok db') :
      ∃ d, db.deals.row k = some d ∧ isTerminal d.status = false := by
    obtain ⟨d, hr, ha⟩ := forceSettle_active h
    exact ⟨d, hr, active_nonterminal ha⟩
  cases op with
  | cancelPendingTopup i u now =>
    cases hs
    simp only [Op.run, cancelPendingTopup, getDeal, bind_ok, orRaise_ok, raiseIf_ok, not_not] at h
    obtain ⟨d, hr, _, -, _, hs, -⟩ := h
    exact ⟨d, hr, hst rfl hs⟩
  | acceptDeal i u now =>
    cases hs
    simp only [Op.run, acceptDeal, getDeal, bind_ok, orRaise_ok, raiseIf_ok, not_not] at h
    obtain ⟨d, hr, _, -, _, hs, -⟩ := h
    exact ⟨d, hr, hst rfl hs⟩
  | declineDeal i u now =>
    cases hs
    simp only [Op.run, declineDeal, getDeal, bind_ok, orRaise_ok, raiseIf_ok, not_not] at h
    obtain ⟨d, hr, _, -, _, hs, -⟩ := h
    exact ⟨d, hr, hst rfl hs⟩
  | finishDeal i u now =>
    cases hs
    simp only [Op.run, finishDeal, getDeal, bind_ok, orRaise_ok, raiseIf_ok, not_not] at h
    obtain ⟨d, hr, _, -, _, hs, -⟩ := h
    exact ⟨d, hr, hst rfl hs⟩
  | requestCancel i u reason now =>
    cases hs
    simp only [Op.run, requestCancel, getDeal, bind_ok, orRaise_ok, raiseIf_ok, not_not] at h
    obtain ⟨d, hr, _, -, _, hs, -⟩ := h
    exact ⟨d, hr, hst rfl hs⟩
  | revokeCancel i u =>
    cases hs
    simp only [Op.run, revokeCancel, getDeal, bind_ok, orRaise_ok, raiseIf_ok, not_not] at h
    obtain ⟨d, hr, _, hs, -⟩ := h
    exact ⟨d, hr, hst rfl hs⟩
  | acceptCancel i u now =>
    cases hs
    simp only [Op.run, acceptCancel, getDeal, bind_ok, orRaise_ok, raiseIf_ok, not_not] at h
    obtain ⟨d, hr, _, hs, -⟩ := h
    exact ⟨d, hr, hst rfl hs⟩
  | startArbitration i u reason =>
    cases hs
    simp only [Op.run, startArbitration, getDeal, bind_ok, orRaise_ok, raiseIf_ok] at h
    obtain ⟨d, hr, _, -, _, hs, -⟩ := h
    have hs' : d.status = .in_progress ∨ d.status = .pending_cancellation := by tauto
    rcases hs' with hs' | hs'
    · exact ⟨d, hr, hst rfl hs'⟩
    · exact ⟨d, hr, hst rfl hs'⟩
  | resolveArbitration i a winner note now =>
    cases hs
    simp only [Op.run, resolveArbitration, getDeal, bind_ok, orRaise_ok, raiseIf_ok, not_not] at h
    obtain ⟨d, hr, admin, -, _, -, _, hs, -⟩ := h
    exact ⟨d, hr, hst rfl hs⟩
  | forceRelease i a reason approval now =>
    cases hs
    exact hforced h
  | forceRefund i a reason approval now =>
    cases hs
    exact hforced h
  | splitDeal i a p reason approval now =>
    cases hs
    obtain ⟨q, -, h⟩ := bind_ok.1 h
    exact hforced h
  | forceArbitration i a reason =>
    cases hs
    simp only [Op.run, forceArbitration, getDeal, bind_ok, orRaise_ok, raiseIf_ok] at h
    obtain ⟨d, hr, _, ht, -⟩ := h
    exact ⟨d, hr, by simpa using ht⟩
  | assignArbiter i a =>
    cases hs
    simp only [Op.run, assignArbiter, getDeal, bind_ok, orRaise_ok, raiseIf_ok, not_not] at h
    obtain ⟨d, hr, _, hs, -⟩ := h
    exact ⟨d, hr, hst rfl hs⟩
  | deleteDeal i => exact absurd hk id
  | _ => cases hs

/-- Rows that do not match are not picked, whether they are listed or not. -/
theorem picked_without {p : ℕ → Bool} (picked : List ℕ) (hp : p k = false) :
    (picked.filter (· ≠ k)).dedup.filter p = picked.dedup.filter p := by
  induction picked with
  | nil => rfl
  | cons i picked ih =>
    by_cases hik : i = k
    · subst hik
      rw [List.filter_cons_of_neg (by simp), ih]
      by_cases hmem : i ∈ picked
      · rw [List.dedup_cons_of_mem hmem]
      · rw [List.dedup_cons_of_notMem hmem, List.filter_cons_of_neg (by simp [hp])]
    · rw [List.filter_cons_of_pos (by simpa using hik)]
      by_cases hmem : i ∈ picked
      · have hmem' : i ∈ picked.filter (· ≠ k) := List.mem_filter.2 ⟨hmem, by simpa using hik⟩
        rw [List.dedup_cons_of_mem hmem, List.dedup_cons_of_mem hmem', ih]
      · have hmem' : i ∉ picked.filter (· ≠ k) := fun h => hmem (List.mem_filter.1 h).1
        rw [List.dedup_cons_of_notMem hmem, List.dedup_cons_of_notMem hmem', List.filter_cons, List.filter_cons, ih]

theorem without_run (hr : db.deals.row k = some d) (ht : isTerminal d.status = true) (h : op.run db = .ok db') :
    (op.without k).run db = .ok db' := by
  cases op with
  | sweepPendingTopup picked now =>
    have hs : d.status ≠ .pending_topup := by
      intro hs
      rw [hs] at ht
      cases ht
    have hrows (hrs : ℤ) := picked_without (k := k)
      (p := fun i => (db.deals.row i).any fun d => d.status = .pending_topup ∧ d.created_at ≤ now - hours hrs) picked
      (by simp [hr, hs])
    simp only [Op.run, Op.without, Garant.sweepPendingTopup] at h ⊢
    rw [hrows]
    exact h
  | sweepInactivity picked now =>
    have hp : (db.deals.row k).any (inactive db.app_settings now) = false := by
      rw [hr, Option.any_some]
      by_contra hi
      rw [Bool.not_eq_false] at hi
      rw [active_nonterminal (inactive_active hi)] at ht
      cases ht
    have hrows := picked_without (k := k) (p := fun i => (db.deals.row i).any (inactive db.app_settings now)) picked hp
    simp only [Op.run, Op.without, Garant.sweepInactivity] at h ⊢
    rw [hrows]
    exact h
  | _ => exact h

/-! ## Payments for a closed deal -/

theorem completeDealTopupPayment_locked {dep : WalletDeposit} {paid : Option ℚ} {reply : InvoiceReply}
    (hj : db.wallet_deposits.row j = some dep) (hl : dep.linked_deal_id = some k) (hr : db.deals.row k = some d)
    (hs : d.status ≠ .pending_topup) (h : completeDealTopupPayment db j paid reply now = .ok db') : SameLocked db db' := by
  simp only [completeDealTopupPayment, bind_ok, orRaise_ok] at h
  obtain ⟨dep', hj', h⟩ := h
  cases hj.symm.trans hj'
  split at h
  · rw [pure_ok.1 h]
    exact .of_eq rfl
  split at h
  · rename_i hn
    rw [hl] at hn
    cases hn
  rename_i i hi
  cases hl.symm.trans hi
  split at h
  · rename_i hn
    rw [hr] at hn
    cases hn
  rename_i e he
  cases hr.symm.trans he
  simp only [bind_ok, orRaise_ok, if_neg hs] at h
  obtain ⟨cur, -, p, -, h⟩ := h
  obtain ⟨db₁, hcr, h⟩ := bind_ok.1 h
  obtain ⟨rep, -, h⟩ := bind_ok.1 h
  obtain ⟨bal, hm, hlk, -⟩ := creditAmount_ok (depositRef_ne (by decide) _ _) hcr
  have hbal : SameLocked db db₁ := .of_moved hm hlk
  rw [← pure_ok.1 h]
  exact hbal

/-- A payment for a deal that does not wait for one locks nothing. -/
theorem paysFor_locked (hp : op.PaysFor db k) (hr : db.deals.row k = some d) (hs : d.status ≠ .pending_topup)
    (h : op.run db = .ok db') : SameLocked db db' := by
  obtain ⟨i, dep, hpays, hi, hl⟩ := hp
  rcases topupPaid_of hpays h with ⟨-, hlocked⟩ | ⟨j, paid, reply, now, hj, hpaid⟩
  · exact hlocked
  · rw [pays_unique hpays hj] at hi
    exact completeDealTopupPayment_locked hi hl hr hs hpaid

/-- No operation acts on a closed deal. -/
theorem passesOver (hk : op.Keeps) (hr : db.deals.row k = some d) (ht : isTerminal d.status = true)
    (h : op.run db = .ok db') : PassesOver op db db' k where
  subject := by
    intro hs
    obtain ⟨d', hr', ho⟩ := subject_open hk hs h
    cases hr.symm.trans hr'
    rw [ht] at ho
    cases ho
  swept := without_run hr ht h
  paid := by
    intro hp
    refine paysFor_locked hp hr ?_ h
    intro hs
    rw [hs] at ht
    cases ht

end

/-! ## Waiting for the lock -/

/-- What a session selects before it takes its locks. -/
inductive Load
  | app_settings
  | user
  | deposit
  | deal (deal_id : ℕ)

/-- The selects in front of the locks. No path selects the deal it will lock:
the lock is the first it sees of the row. -/
def Op.loads : Op → List Load
  | .sweepPendingTopup .. | .sweepInactivity .. => [.app_settings]
  | .sweepExpiredDeposits .. => []
  | .handleInvoicePaid .. | .handleInvoiceExpired .. | .handleCrystalpayInvoice .. => [.deposit]
  | .completeDealTopupPayment .. | .pollDepositStatus .. => [.user, .deposit]
  | _ => [.user]

/-- Whether the locking select has `populate_existing`, as in `_get_locked`.
Without it a row the session has loaded before keeps its old columns. -/
def Op.populates : Op → Bool
  | .cancelPendingTopup .. | .acceptDeal .. | .declineDeal .. | .finishDeal .. | .requestCancel .. | .revokeCancel ..
  | .acceptCancel .. | .startArbitration .. | .resolveArbitration .. => true
  | _ => false

/-- A session in front of the locks it needs, with the deals it has loaded. -/
structure Waiting where
  request : Request
  actor : Option User
  held : ℕ → Option Deal
  guarded : ∀ g, request.op.guard = some g → ∃ user, actor = some user ∧ g.admits user = true

/-- The database as the session sees it once it holds its locks. -/
def Waiting.seen (w : Waiting) (db : Db) : Db :=
  if w.request.op.populates then db else { db with deals := db.deals.mapRows fun k d => (w.held k).getD d }

/-- The session has loaded what its path loads, from the database as it is. -/
structure Waiting.Arrived (w : Waiting) (db : Db) : Prop where
  actor : w.actor = w.request.actor.bind db.users.row
  held : ∀ k d, w.held k = some d → .deal k ∈ w.request.op.loads ∧ db.deals.row k = some d

/-- The committed database, and the sessions that wait for a lock. -/
structure Desk where
  db : Db
  waiting : Table Waiting

def Desk.start (db : Db) : Desk := ⟨db, .empty⟩

inductive DeskEvent
  | arrives (w : Waiting)
  /-- The session gets its locks, runs and commits. -/
  | locked (i : ℕ)
  /-- The session is refused, or rolled back. -/
  | refused (i : ℕ)

inductive DeskStep : DeskEvent → Desk → Desk → Prop
  | arrives {s : Desk} {w : Waiting} (hk : w.request.op.Keeps) (hw : w.Arrived s.db) :
      DeskStep (.arrives w) s ⟨s.db, s.waiting.insert w⟩
  | locked {s : Desk} {i : ℕ} {w : Waiting} {db' : Db} (hw : s.waiting.row i = some w)
      (hrun : w.request.op.run (w.seen s.db) = .ok db') : DeskStep (.locked i) s ⟨db', s.waiting.erase i⟩
  | refused {s : Desk} {i : ℕ} : DeskStep (.refused i) s ⟨s.db, s.waiting.erase i⟩

/-- The deals are well formed, and no session holds an old one. -/
structure Desk.Inv (s : Desk) : Prop where
  wellFormed : ∀ k d, s.db.deals.row k = some d → d.WellFormed
  keeps : ∀ i w, s.waiting.row i = some w → w.request.op.Keeps
  fresh : ∀ i w, s.waiting.row i = some w → ∀ k, w.held k = none

section
variable {s t : Desk} {e : DeskEvent} {w : Waiting} {db : Db} {k : ℕ} {d : Deal}

theorem loads_no_deal (op : Op) (k : ℕ) : .deal k ∉ op.loads := by
  cases op <;> simp [Op.loads]

theorem Waiting.Arrived.fresh (h : w.Arrived db) (k : ℕ) : w.held k = none := by
  rw [Option.eq_none_iff_forall_ne_some]
  intro d hd
  exact loads_no_deal _ _ (h.held k d hd).1

/-- A session that holds no old row sees the committed ones. -/
theorem seen_eq (h : ∀ k, w.held k = none) (db : Db) : w.seen db = db := by
  have hrows : (db.deals.mapRows fun k d => (w.held k).getD d) = db.deals := by
    ext k : 2
    · simp [h]
    · rfl
  unfold Waiting.seen
  split
  · rfl
  · rw [hrows]

theorem desk_step (hs : s.Inv) (h : DeskStep e s t) :
    t.db = s.db ∨ ∃ i w, e = .locked i ∧ s.waiting.row i = some w ∧ w.request.op.Keeps ∧
      w.request.op.run s.db = .ok t.db := by
  cases h with
  | arrives => exact .inl rfl
  | locked hw hrun =>
    rw [seen_eq (hs.fresh _ _ hw)] at hrun
    exact .inr ⟨_, _, rfl, hw, hs.keeps _ _ hw, hrun⟩
  | refused => exact .inl rfl

theorem inv_step (hs : s.Inv) (h : DeskStep e s t) : t.Inv where
  wellFormed := by
    rcases desk_step hs h with hdb | ⟨i, w, -, -, hk, hrun⟩
    · rw [hdb]
      exact hs.wellFormed
    · intro k d' hd'
      obtain ⟨hrow, hnew⟩ := deals_of hk hrun k
      cases hr : s.db.deals.row k with
      | none => exact (hnew hr d' hd').wellFormed
      | some d =>
        obtain ⟨d₁, hd₁, hstep⟩ := hrow d hr
        cases hd'.symm.trans hd₁
        exact hstep.wellFormed (hs.wellFormed k d hr)
  keeps := by
    intro i w hw
    cases h with
    | arrives hk =>
      simp only [Table.insert_row] at hw
      split at hw
      · cases hw
        exact hk
      · exact hs.keeps i w hw
    | locked | refused =>
      simp only [Table.erase_row] at hw
      split at hw
      · cases hw
      · exact hs.keeps i w hw
  fresh := by
    intro i w hw
    cases h with
    | arrives hk ha =>
      simp only [Table.insert_row] at hw
      split at hw
      · cases hw
        exact ha.fresh
      · exact hs.fresh i w hw
    | locked | refused =>
      simp only [Table.erase_row] at hw
      split at hw
      · cases hw
      · exact hs.fresh i w hw

theorem inv_run (hs : s.Inv) (h : Reach DeskStep Free s t) : t.Inv :=
  h.invariant hs fun _ _ _ ht _ hstep => inv_step ht hstep

/-- A step keeps a deal or moves it as its gate allows. -/
theorem desk_row (hs : s.Inv) (h : DeskStep e s t) (hd : s.db.deals.row k = some d) :
    ∃ d', t.db.deals.row k = some d' ∧
      (d' = d ∨ ∃ i w, e = .locked i ∧ s.waiting.row i = some w ∧ RowStep s.db w.request.op k d d') := by
  rcases desk_step hs h with hdb | ⟨i, w, he, hw, hk, hrun⟩
  · exact ⟨d, by rw [hdb, hd], .inl rfl⟩
  · obtain ⟨d', hd', hstep⟩ := (deals_of hk hrun k).1 d hd
    exact ⟨d', hd', .inr ⟨i, w, he, hw, hstep⟩⟩

/-- A closed deal stays as it is through a step. -/
theorem desk_closed (hs : s.Inv) (h : DeskStep e s t) (hd : s.db.deals.row k = some d)
    (ht : isTerminal d.status = true) :
    ∃ d', t.db.deals.row k = some d' ∧ d'.status = d.status ∧ d'.completed_at = d.completed_at := by
  obtain ⟨d', hd', rfl | ⟨i, w, -, -, hstep⟩⟩ := desk_row hs h hd
  · exact ⟨d', hd', rfl, rfl⟩
  · cases hstep with
    | kept hst hc => exact ⟨d', hd', hst, hc⟩
    | moved hg =>
      -- no gate opens for a closed deal
      rw [hg.nonterminal] at ht
      cases ht

end

/-- What one step may do to a deal. -/
structure DeskRow (e : DeskEvent) (s t : Desk) (k : ℕ) (d d' : Deal) : Prop where
  gate : d'.status ≠ d.status →
    ∃ i w, e = .locked i ∧ s.waiting.row i = some w ∧ Allows s.db k d w.request.op d'.status
  closed : isTerminal d.status = true → d'.status = d.status ∧ d'.completed_at = d.completed_at ∧
    ∀ i w, e = .locked i → s.waiting.row i = some w → PassesOver w.request.op s.db t.db k

/-- In every reachable state the deals are well formed; every change of a status is one
the gate of the operation allows on the committed row, and a closed deal stays as it is. -/
theorem deal_state_machine {db : Db} {s : Desk} (hdb : ∀ k d, db.deals.row k = some d → d.WellFormed)
    (h : Reach DeskStep Free (Desk.start db) s) :
    (∀ k d, s.db.deals.row k = some d → d.WellFormed) ∧
      (∀ e t, DeskStep e s t → ∀ k d, s.db.deals.row k = some d →
        ∃ d', t.db.deals.row k = some d' ∧ DeskRow e s t k d d') ∧
      ∀ t, Reach DeskStep Free s t → ∀ k d, s.db.deals.row k = some d → isTerminal d.status = true →
        ∃ d', t.db.deals.row k = some d' ∧ d'.status = d.status ∧ d'.completed_at = d.completed_at := by
  have hinv : s.Inv := by
    refine inv_run ⟨hdb, ?_, ?_⟩ h
    · intro i w hw
      cases hw
    · intro i w hw
      cases hw
  refine ⟨hinv.wellFormed, ?_, ?_⟩
  · intro e t hstep k d hd
    obtain ⟨d', hd', hrow⟩ := desk_row hinv hstep hd
    refine ⟨d', hd', ?_, ?_⟩
    · intro hne
      rcases hrow with rfl | ⟨i, w, he, hw, hr⟩
      · exact absurd rfl hne
      · cases hr with
        | kept hst => exact absurd hst hne
        | moved hg => exact ⟨i, w, he, hw, hg⟩
    · intro ht
      obtain ⟨d₁, hd₁, hst, hc⟩ := desk_closed hinv hstep hd ht
      cases hd'.symm.trans hd₁
      refine ⟨hst, hc, ?_⟩
      rintro i w rfl hw
      cases hstep with
      | locked hw' hrun =>
        cases hw.symm.trans hw'
        rw [seen_eq (hinv.fresh _ _ hw)] at hrun
        exact passesOver (hinv.keeps _ _ hw) hd ht hrun
  · intro t hrun k d hd ht
    have hkept := hrun.invariant (I := fun u => u.Inv ∧
      ∃ d', u.db.deals.row k = some d' ∧ d'.status = d.status ∧ d'.completed_at = d.completed_at) ⟨hinv, d, hd, rfl, rfl⟩ (by
      rintro e t u ⟨ht', d₁, hd₁, hs₁, hc₁⟩ - hstep
      rw [← hs₁] at ht
      obtain ⟨d₂, hd₂, hs₂, hc₂⟩ := desk_closed ht' hstep hd₁ ht
      exact ⟨inv_step ht' hstep, d₂, hd₂, hs₂.trans hs₁, hc₂.trans hc₁⟩)
    exact hkept.2

/-- The seller's session, on its way to decline the sample deal. -/
def sampleDecline : Waiting where
  request := ⟨some 2, .declineDeal 1 2 0, fun _ h => h⟩
  actor := some (sampleUser false)
  held := fun _ => none
  guarded := by simp [Op.guard]

/-- Declined while a second call waits: that call finds the deal closed, and so does every later one. -/
theorem sampleDecline_final :
    ∃ s, Reach DeskStep Free (Desk.start (sampleDealDb 2 ⟨1000000000, by decide⟩)) s ∧
      (∃ w, s.waiting.row 2 = some w ∧ w.request.op = .declineDeal 1 2 0) ∧
      ∀ t, Reach DeskStep Free s t → ∃ d, t.db.deals.row 1 = some d ∧ d.status = .cancelled ∧ d.WellFormed := by
  have hrun : ∃ db', sampleDecline.request.op.run (sampleDealDb 2 ⟨1000000000, by decide⟩) = .ok db' ∧
      (db'.deals.row 1).any (fun d => d.status = .cancelled) = true := exists_ok (by decide +kernel)
  obtain ⟨db', hok, hclosed⟩ := hrun
  have hdb : ∀ k d, (sampleDealDb 2 ⟨1000000000, by decide⟩).deals.row k = some d → d.WellFormed := by
    intro k d hd
    simp only [sampleDealDb, Table.insert_row, Table.empty_row] at hd
    split at hd
    · cases hd
      exact (newDeal_new (by decide) (.inl rfl)).wellFormed
    · cases hd
  have harrived : sampleDecline.Arrived (sampleDealDb 2 ⟨1000000000, by decide⟩) := ⟨rfl, by simp [sampleDecline]⟩
  have hreach : Reach DeskStep Free (Desk.start (sampleDealDb 2 ⟨1000000000, by decide⟩))
      ⟨db', ((Table.empty.insert sampleDecline).insert sampleDecline).erase 1⟩ := by
    refine .step (a := .locked 1) (.step (a := .arrives sampleDecline) (.step (a := .arrives sampleDecline) .refl trivial
      (.arrives trivial harrived)) trivial (.arrives trivial harrived)) trivial (.locked (w := sampleDecline) rfl ?_)
    rw [seen_eq fun _ => rfl]
    exact hok
  obtain ⟨d, hd, hs⟩ := Option.any_eq_true _ _ |>.1 hclosed
  rw [decide_eq_true_eq] at hs
  refine ⟨_, hreach, ⟨sampleDecline, rfl, rfl⟩, ?_⟩
  intro t ht
  obtain ⟨hwf, -, -⟩ := deal_state_machine hdb (hreach.trans ht)
  obtain ⟨-, -, hlater⟩ := deal_state_machine hdb hreach
  obtain ⟨d', hd', hs', -⟩ := hlater t ht 1 d hd (by rw [hs]; rfl)
  exact ⟨d', hd', hs'.trans hs, hwf 1 d' hd'⟩

end Garant
