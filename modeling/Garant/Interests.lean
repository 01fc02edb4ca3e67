import Garant.DealLife
import Garant.Settlement
/-!
# Whose hand settles a deal

Who has to act before a party gets the principal of a deal. The user routes
need the other party; the admin and arbiter routes need a role, and none of
them asks whether its caller is a party to the deal.
-/
open Decimal

namespace Garant

/-! ## Who is paid -/

/-- The operations on the deal that can pay the seller. -/
def Op.PaysSeller (deal_id : ℕ) : Op → Prop
  | .finishDeal i .. | .resolveArbitration i .. | .forceRelease i .. | .splitDeal i .. => i = deal_id
  | _ => False

/-- The operations on the deal that can pay the buyer back. -/
def Op.PaysBuyer (deal_id : ℕ) : Op → Prop
  | .declineDeal i .. | .acceptCancel i .. | .resolveArbitration i .. | .forceRefund i .. | .splitDeal i ..
  | .deleteDeal i => i = deal_id
  | _ => False

/-- The user has more to spend than before. -/
def Grew (db db' : Db) (user_id currency_id : ℕ) : Prop :=
  (db.balance user_id currency_id).amount.val < (db'.balance user_id currency_id).amount.val

/-- The part of an operation that is about the deal: all of an operation on it, or its turn in a sweep. -/
inductive Op.Part (db : Db) (k : ℕ) : Op → Db → Db → Prop
  | whole {op : Op} {db' : Db} (hs : op.subject = some k) (h : op.run db = .ok db') : Part db k op db db'
  | swept {picked before after : List ℕ} {now : Time} {a b : Db}
      (hrows : (picked.dedup.filter fun i => (db.deals.row i).any (inactive db.app_settings now)) = before ++ k :: after)
      (ha : before.foldlM (sweepInactivityDeal now) db = .ok a) (hb : sweepInactivityDeal now a k = .ok b) :
      Part db k (.sweepInactivity picked now) a b

section
variable {db db₁ db' : Db} {i k u c : ℕ} {d : Deal} {flow : Flow} {op : Op} {now : Time}

theorem not_grew (h : db'.user_balances = db.user_balances) : ¬Grew db db' u c := by
  unfold Grew Db.balance
  rw [h]
  exact lt_irrefl _

theorem not_grew_self : ¬Grew db db u c := lt_irrefl _

theorem Moved.grew {silent : Prop} {v e : ℕ} {bal : UserBalance} (h : Moved silent db db' v e bal) (hg : Grew db db' u e) :
    u = v ∧ (db.balance v e).amount.val < bal.amount.val := by
  unfold Grew at hg
  rw [h.balance] at hg
  split at hg
  · rename_i hu
    rw [hu.1] at hg
    exact ⟨hu.1, hg⟩
  · exact absurd hg (lt_irrefl _)

/-- Who gains from a settlement. -/
theorem Settled.grew (h : Settled db db' k d flow) (hg : Grew db db' u d.currency_id) :
    (flow = .refund → u = d.buyer_id) ∧ (flow = .release → u = d.seller_id) := by
  obtain ⟨amt, db₁, -, hpay, hsame⟩ := h.paid
  have hg₁ : Grew db db₁ u d.currency_id := by
    unfold Grew at hg ⊢
    rwa [hsame.balance] at hg
  cases hpay with
  | refund hr h =>
    obtain ⟨bal, hm, -, -⟩ := unlockAndCredit_ok hr h
    exact ⟨fun _ => (hm.grew hg₁).1, nofun⟩
  | @release mid _ _ _ hr₁ hr₂ h₁ h₂ =>
    obtain ⟨bal, hm, ha, -⟩ := dropLocked_ok hr₁ h₁
    obtain ⟨bal', hm', -, -⟩ := creditAmount_ok hr₂ h₂
    refine ⟨nofun, ?_⟩
    intro _
    by_contra hu
    -- the debit leaves what the buyer can spend as it was
    have hg₂ : Grew db mid u d.currency_id := by
      unfold Grew at hg₁ ⊢
      rw [hm'.balance, if_neg fun hv => hu hv.1] at hg₁
      exact hg₁
    obtain ⟨-, hlt⟩ := hm.grew hg₂
    rw [ha] at hlt
    exact absurd hlt (lt_irrefl _)
  | split => exact ⟨nofun, nofun⟩

/-! ## Each operation -/

theorem cancelPendingTopup_balances (h : cancelPendingTopup db i u now = .ok db') : db'.user_balances = db.user_balances := by
  simp only [cancelPendingTopup, getDeal, bind_ok, orRaise_ok, pure_ok] at h
  obtain ⟨d, -, _, -, _, -, rfl⟩ := h
  obtain ⟨t, ht⟩ := expireTopupDeposit_eq db d
  rw [ht]
  rfl

theorem acceptDeal_balances (h : acceptDeal db i u now = .ok db') : db'.user_balances = db.user_balances := by
  simp only [acceptDeal, getDeal, bind_ok, pure_ok] at h
  obtain ⟨d, -, _, -, _, -, rfl⟩ := h
  rfl

theorem requestCancel_balances {reason : String} (h : requestCancel db i u reason now = .ok db') :
    db'.user_balances = db.user_balances := by
  simp only [requestCancel, getDeal, bind_ok, pure_ok] at h
  obtain ⟨d, -, _, -, _, -, rfl⟩ := h
  rfl

theorem revokeCancel_balances (h : revokeCancel db i u = .ok db') : db'.user_balances = db.user_balances := by
  simp only [revokeCancel, getDeal, bind_ok, pure_ok] at h
  obtain ⟨d, -, _, -, _, -, rfl⟩ := h
  rfl

theorem startArbitration_balances {reason : String} (h : startArbitration db i u reason = .ok db') :
    db'.user_balances = db.user_balances := by
  simp only [startArbitration, getDeal, bind_ok, pure_ok] at h
  obtain ⟨d, -, _, -, _, -, _, -, rfl⟩ := h
  rfl

theorem forceArbitration_balances {reason : Option String} (h : forceArbitration db i u reason = .ok db') :
    db'.user_balances = db.user_balances := by
  simp only [forceArbitration, getDeal, bind_ok] at h
  obtain ⟨d, -, _, -, h⟩ := h
  split at h
  · rw [pure_ok.1 h]
  · rw [← pure_ok.1 h]
    rfl

theorem assignArbiter_balances {a : Option ℕ} (h : assignArbiter db i a = .ok db') :
    db'.user_balances = db.user_balances := by
  have key {d : Deal} (h : (if d.arbitration_resolved_by = a then pure db
      else pure (db.setDeal i { d with arbitration_resolved_by := a }) : Result Db) = .ok db') :
      db'.user_balances = db.user_balances := by
    split at h
    · rw [pure_ok.1 h]
    · rw [← pure_ok.1 h]
      rfl
  simp only [assignArbiter, getDeal, bind_ok] at h
  obtain ⟨d, -, _, -, h⟩ := h
  split at h
  · exact key h
  · simp only [bind_ok] at h
    obtain ⟨_, -, _, -, h⟩ := h
    exact key h

/-- An operation on the deal pays a party only if it is on that party's list. -/
theorem pays (hp : d.buyer_id ≠ d.seller_id) (hr : db.deals.row k = some d) (hs : op.subject = some k)
    (h : op.run db = .ok db') :
    (Grew db db' d.seller_id d.currency_id → op.PaysSeller k) ∧
      (Grew db db' d.buyer_id d.currency_id → op.PaysBuyer k) := by
  have hidle {P Q : Prop} (hb : db'.user_balances = db.user_balances) :
      (Grew db db' d.seller_id d.currency_id → P) ∧ (Grew db db' d.buyer_id d.currency_id → Q) :=
    ⟨fun hg => absurd hg (not_grew hb), fun hg => absurd hg (not_grew hb)⟩
  have hrefund {P Q : Prop} {d' : Deal} (hset : Settled db db' k d' .refund) (hq : Q) :
      (Grew db db' d.seller_id d.currency_id → P) ∧ (Grew db db' d.buyer_id d.currency_id → Q) := by
    cases hr.symm.trans hset.row
    exact ⟨fun hg => absurd ((hset.grew hg).1 rfl).symm hp, fun _ => hq⟩
  have hrelease {P Q : Prop} {d' : Deal} (hset : Settled db db' k d' .release) (hq : P) :
      (Grew db db' d.seller_id d.currency_id → P) ∧ (Grew db db' d.buyer_id d.currency_id → Q) := by
    cases hr.symm.trans hset.row
    exact ⟨fun _ => hq, fun hg => absurd ((hset.grew hg).2 rfl) hp⟩
  cases op with
  | cancelPendingTopup i u now => exact hidle (cancelPendingTopup_balances h)
  | acceptDeal i u now => exact hidle (acceptDeal_balances h)
  | declineDeal i u now =>
    cases hs
    obtain ⟨d', hset⟩ := declineDeal_ok h
    exact hrefund hset rfl
  | finishDeal i u now =>
    cases hs
    obtain ⟨d', hset⟩ := finishDeal_ok h
    exact hrelease hset rfl
  | requestCancel i u reason now => exact hidle (requestCancel_balances h)
  | revokeCancel i u => exact hidle (revokeCancel_balances h)
  | acceptCancel i u now =>
    cases hs
    obtain ⟨d', hset⟩ := acceptCancel_ok h
    exact hrefund hset rfl
  | startArbitration i u reason => exact hidle (startArbitration_balances h)
  | resolveArbitration i a winner note now =>
    cases hs
    exact ⟨fun _ => rfl, fun _ => rfl⟩
  | forceRelease i a reason approval now =>
    cases hs
    rcases forceRelease_ok h with ⟨t, rfl⟩ | ⟨d', hset⟩
    · exact hidle rfl
    · exact hrelease hset rfl
  | forceRefund i a reason approval now =>
    cases hs
    rcases forceRefund_ok h with ⟨t, rfl⟩ | ⟨d', hset⟩
    · exact hidle rfl
    · exact hrefund hset rfl
  | splitDeal i a p reason approval now =>
    cases hs
    exact ⟨fun _ => rfl, fun _ => rfl⟩
  | forceArbitration i a reason => exact hidle (forceArbitration_balances h)
  | assignArbiter i a => exact hidle (assignArbiter_balances h)
  | deleteDeal i =>
    cases hs
    obtain ⟨d', hr', ⟨-, rfl⟩ | ⟨-, amt, bal, db₁, -, -, -, hm, rfl⟩⟩ := deleteDeal_ok h
    · exact hidle rfl
    · cases hr.symm.trans hr'
      have hgrew (hg : Grew db (removeDeal db₁ k) d.seller_id d.currency_id) : d.seller_id = d.buyer_id := by
        have hg₁ : Grew db db₁ d.seller_id d.currency_id := hg
        exact (hm.grew hg₁).1
      exact ⟨fun hg => absurd (hgrew hg).symm hp, fun _ => rfl⟩
  | _ => cases hs

/-- A sweep leaves the deals before its turn as they were. -/
theorem swept_row {rows : List ℕ} (hk : k ∉ rows) (h : rows.foldlM (sweepInactivityDeal now) db = .ok db') :
    db'.deals.row k = db.deals.row k := by
  induction rows generalizing db with
  | nil =>
    rw [List.foldlM_nil] at h
    rw [pure_ok.1 h]
  | cons i rows ih =>
    rw [List.foldlM_cons] at h
    obtain ⟨db₁, h₁, h⟩ := bind_ok.1 h
    rw [List.mem_cons, not_or] at hk
    obtain ⟨hki, hk⟩ := hk
    rw [ih hk h]
    simp only [sweepInactivityDeal, getDeal, bind_ok, orRaise_ok] at h₁
    obtain ⟨d, hr, h₁⟩ := h₁
    split at h₁
    · rw [pure_ok.1 h₁]
    · simp only [bind_ok, pure_ok] at h₁
      obtain ⟨amt, -, db₂, hp, rfl⟩ := h₁
      have hdeals : db₂.deals = db.deals := (refundPrincipal_ok hp).frame.1
      rw [setDeal_deals hdeals, Table.set_row_ne hki]

/-- A part of an operation pays a party only if it is on that party's list; a sweep pays only the buyer. -/
theorem part_pays {a b : Db} (hp : d.buyer_id ≠ d.seller_id) (hr : db.deals.row k = some d) (h : op.Part db k a b) :
    (Grew a b d.seller_id d.currency_id → op.PaysSeller k) ∧
      (Grew a b d.buyer_id d.currency_id → op.PaysBuyer k ∨
        ∃ picked now, op = .sweepInactivity picked now ∧ inactive db.app_settings now d = true) := by
  cases h with
  | whole hs h =>
    obtain ⟨hsel, hbuy⟩ := pays hp hr hs h
    exact ⟨hsel, fun hg => .inl (hbuy hg)⟩
  | @swept picked before after now a b hrows ha hb =>
    have hnodup : (before ++ k :: after).Nodup := by
      rw [← hrows]
      exact (List.nodup_dedup _).filter _
    have hbefore : k ∉ before := by
      intro hmem
      exact (List.nodup_append.1 hnodup).2.2 k hmem k List.mem_cons_self rfl
    have hpicked : k ∈ before ++ k :: after := List.mem_append_right _ List.mem_cons_self
    rw [← hrows] at hpicked
    have hina := (List.mem_filter.1 hpicked).2
    rw [hr, Option.any_some] at hina
    have hra : a.deals.row k = some d := by rw [swept_row hbefore ha, hr]
    rcases sweepInactivityDeal_ok hra (inactive_active hina) hb with hset | ⟨-, rfl⟩
    · exact ⟨fun hg => absurd ((hset.grew hg).1 rfl).symm hp, fun _ => .inr ⟨picked, now, rfl, hina⟩⟩
    · exact ⟨fun hg => absurd hg not_grew_self, fun hg => absurd hg not_grew_self⟩

end

/-! ## Runs of requests -/

/-- The database, and the requests that went through so far. -/
structure Docket where
  db : Db
  requests : List Request

/-- A request passes its guard and goes through. -/
structure Docket.Step (r : Request) (s t : Docket) : Prop where
  guarded : r.Guarded s.db
  run : r.op.run s.db = .ok t.db
  requests : t.requests = s.requests ++ [r]

/-- The request was issued by another user than `u`. -/
def Request.ByOther (r : Request) (u : ℕ) : Prop := ∃ a, r.actor = some a ∧ a ≠ u

/-- The request was issued by `u` on an admin or arbiter route, with a role it admits. -/
def Request.ByRole (r : Request) (u : ℕ) (db : Db) : Prop :=
  r.actor = some u ∧ ∃ g user, r.op.guard = some g ∧ db.users.row u = some user ∧ g.admits user = true

/-- `u` has asked to cancel the deal. -/
def Request.AsksCancel (r : Request) (deal_id u : ℕ) : Prop := ∃ reason now, r.op = .requestCancel deal_id u reason now

structure Docket.Inv (s : Docket) : Prop where
  parties : ∀ k d, s.db.deals.row k = some d → d.buyer_id ≠ d.seller_id
  wellFormed : ∀ k d, s.db.deals.row k = some d → d.WellFormed
  asked : ∀ k d, s.db.deals.row k = some d → d.status = .pending_cancellation →
    ∃ u q, d.cancellation_initiator_id = some u ∧ q ∈ s.requests ∧ q.AsksCancel k u

section
variable {s t : Docket} {r : Request} {db db' : Db} {k u : ℕ} {d d' : Deal} {op : Op}

/-- A row that stays through any operation takes a step and keeps its creation time; the others are new. -/
theorem entered_of (h : op.run db = .ok db') (hd : db'.deals.row k = some d') :
    (∃ d, db.deals.row k = some d ∧ RowStep db op k d d' ∧ d'.created_at = d.created_at) ∨
      (db.deals.row k = none ∧ d'.New ∧ op.Creates ∧ op.now = some d'.created_at) := by
  have hkeeps : op.Keeps → (∃ d, db.deals.row k = some d ∧ RowStep db op k d d' ∧ d'.created_at = d.created_at) ∨
      (db.deals.row k = none ∧ d'.New ∧ op.Creates ∧ op.now = some d'.created_at) := by
    intro hk
    obtain ⟨hdeals, hstamped⟩ := timed_of hk h
    obtain ⟨hrow, hnew⟩ := hdeals k
    rcases hstamped k d' hd with ⟨d, hr, hc⟩ | ⟨hr, hc⟩
    · obtain ⟨d₁, hd₁, hstep⟩ := hrow d hr
      cases hd.symm.trans hd₁
      exact .inl ⟨d, hr, hstep, hc⟩
    · exact .inr ⟨hr, hnew hr d' hd, hc⟩
  cases op with
  | deleteDeal i =>
    have hkept : db.deals.row k = some d' := by
      obtain ⟨d₀, -, ⟨-, rfl⟩ | ⟨-, amt, bal, db₁, -, -, -, hm, rfl⟩⟩ := deleteDeal_ok h
      · simp only [removeDeal, Table.erase_row] at hd
        split at hd
        · cases hd
        · exact hd
      · simp only [removeDeal, Table.erase_row, hm.deals] at hd
        split at hd
        · cases hd
        · exact hd
    exact .inl ⟨d', hkept, .refl d', rfl⟩
  | _ => exact hkeeps trivial

theorem row_of (h : op.run db = .ok db') (hd : db'.deals.row k = some d') :
    (∃ d, db.deals.row k = some d ∧ RowStep db op k d d') ∨ d'.New := by
  rcases entered_of h hd with ⟨d, hr, hstep, -⟩ | ⟨-, hnew, -⟩
  · exact .inl ⟨d, hr, hstep⟩
  · exact .inr hnew

/-- Only `request_cancel` leads to a pending cancellation, in the name of its caller and at its time. -/
theorem asks_of (h : op.run db = .ok db') (hd : db'.deals.row k = some d') (hg : Allows db k d op d'.status)
    (hs : d'.status = .pending_cancellation) :
    ∃ u reason now, op = .requestCancel k u reason now ∧ d'.cancellation_initiator_id = some u ∧
      d'.cancellation_requested_at = some now := by
  generalize hst : d'.status = st at hg
  cases hg with
  | @requestCancel u reason now hu hs₀ =>
    simp only [Op.run, requestCancel, getDeal, bind_ok, orRaise_ok, pure_ok] at h
    obtain ⟨d₀, hr, _, -, _, -, rfl⟩ := h
    have hrow : (db.deals.set k _).row k = some d' := hd
    rw [Table.set_row hr, if_pos rfl] at hrow
    cases hrow
    exact ⟨u, reason, now, rfl, rfl, rfl⟩
  | resolveArbitration | sweepInactivity | splitDeal =>
    rw [hs] at hst
    split at hst <;> cases hst
  | _ =>
    rw [hs] at hst
    cases hst

theorem Docket.Inv.step (hs : s.Inv) (h : Docket.Step r s t) : t.Inv where
  parties := by
    intro k d' hd'
    rcases row_of h.run hd' with ⟨d, hd, hstep⟩ | hnew
    · obtain ⟨hb, hsel, -, -⟩ := hstep.terms
      rw [hb, hsel]
      exact hs.parties k d hd
    · exact hnew.parties
  wellFormed := by
    intro k d' hd'
    rcases row_of h.run hd' with ⟨d, hd, hstep⟩ | hnew
    · exact hstep.wellFormed (hs.wellFormed k d hd)
    · exact hnew.wellFormed
  asked := by
    intro k d' hd' hst
    rw [h.requests]
    rcases row_of h.run hd' with ⟨d, hd, hstep⟩ | hnew
    · cases hstep with
      | kept hst' hc hi =>
        rw [hst] at hst'
        obtain ⟨u, q, hu, hq, hask⟩ := hs.asked k d hd hst'.symm
        exact ⟨u, q, hi.trans hu, List.mem_append_left _ hq, hask⟩
      | moved hg =>
        obtain ⟨u, reason, now, hop, hu, -⟩ := asks_of h.run hd' hg hst
        exact ⟨u, r, hu, List.mem_append_right _ List.mem_cons_self, reason, now, hop⟩
    · rcases hnew.status with hn | hn <;> rw [hst] at hn <;> cases hn

/-! ## Alone or not -/

theorem guarded_by {g : AdminGuard} (hg : r.op.guard = some g) (h : r.Guarded db) (u : ℕ) :
    r.ByOther u ∨ r.ByRole u db := by
  obtain ⟨a, user, ha, hrow, hadm⟩ := h g hg
  by_cases hau : a = u
  · subst hau
    exact .inr ⟨ha, g, user, hg, hrow, hadm⟩
  · exact .inl ⟨a, ha, hau⟩

theorem own_other {v : ℕ} (hv : r.op.user = some v) (hne : v ≠ u) : r.ByOther u := ⟨v, r.own v hv, hne⟩

/-- What pays the seller was issued by somebody else, or with a role. -/
theorem seller_not_alone (hp : d.buyer_id ≠ d.seller_id) (hr : db.deals.row k = some d) (hg : r.Guarded db)
    (hrun : r.op.run db = .ok db') (h : r.op.PaysSeller k) : r.ByOther d.seller_id ∨ r.ByRole d.seller_id db := by
  cases hop : r.op with
  | finishDeal i u now =>
    rw [hop] at h hrun
    cases h
    simp only [Op.run, finishDeal, getDeal, bind_ok, orRaise_ok, raiseIf_ok, not_not] at hrun
    obtain ⟨d', hr', _, hu, -⟩ := hrun
    cases hr.symm.trans hr'
    refine .inl (own_other (v := u) (by rw [hop]; rfl) ?_)
    rw [hu]
    exact hp
  | resolveArbitration | forceRelease | splitDeal => exact guarded_by (by rw [hop]; rfl) hg _
  | _ =>
    rw [hop] at h
    exact absurd h id

/-- What pays the buyer back was issued by somebody else, or with a role, or answers a request of the seller. -/
theorem buyer_not_alone (hs : s.Inv) (hr : s.db.deals.row k = some d) (hg : r.Guarded s.db)
    (hrun : r.op.run s.db = .ok db') (h : r.op.PaysBuyer k) :
    r.ByOther d.buyer_id ∨ r.ByRole d.buyer_id s.db ∨
      ∃ q u, q ∈ s.requests ∧ q.AsksCancel k u ∧ q.ByOther d.buyer_id := by
  have hp := hs.parties k d hr
  cases hop : r.op with
  | declineDeal i u now =>
    rw [hop] at h hrun
    cases h
    simp only [Op.run, declineDeal, getDeal, bind_ok, orRaise_ok, raiseIf_ok, not_not] at hrun
    obtain ⟨d', hr', _, hu, -⟩ := hrun
    cases hr.symm.trans hr'
    refine .inl (own_other (v := u) (by rw [hop]; rfl) ?_)
    rw [hu]
    exact hp.symm
  | acceptCancel i u now =>
    rw [hop] at h hrun
    cases h
    simp only [Op.run, acceptCancel, getDeal, bind_ok, orRaise_ok, raiseIf_ok] at hrun
    obtain ⟨d', hr', _, hst, _, -, _, hi, -⟩ := hrun
    cases hr.symm.trans hr'
    by_cases hu : u = d.buyer_id
    · -- the buyer agrees to the seller's request
      obtain ⟨v, q, hv, hq, hask⟩ := hs.asked k d hr (not_not.1 hst)
      obtain ⟨⟨w, hw, hparty⟩, -⟩ := (hs.wellFormed k d hr).cancellation (not_not.1 hst)
      cases hv.symm.trans hw
      have hvb : v ≠ d.buyer_id := by
        intro hvb
        rw [hv, hu, hvb] at hi
        exact hi rfl
      obtain ⟨reason, now', hqop⟩ := hask
      exact .inr (.inr ⟨q, v, hq, ⟨reason, now', hqop⟩, own_other (v := v) (by rw [hqop]; rfl) hvb⟩)
    · exact .inl (own_other (v := u) (by rw [hop]; rfl) hu)
  | resolveArbitration | forceRefund | splitDeal | deleteDeal =>
    exact (guarded_by (by rw [hop]; rfl) hg _).imp_right .inl
  | _ =>
    rw [hop] at h
    exact absurd h id

/-- A party gets the principal, or a part of it, only through another user's step or a role of its own; the
buyer also through the inactivity sweep. -/
theorem no_lone_settlement {db : Db} {s t : Docket} {r : Request} {k : ℕ} {d : Deal} {a b : Db}
    (hdb : ∀ k d, db.deals.row k = some d → d.New) (h : Reach Docket.Step Free ⟨db, []⟩ s) (hstep : Docket.Step r s t)
    (hr : s.db.deals.row k = some d) (hpart : r.op.Part s.db k a b) :
    (Grew a b d.seller_id d.currency_id →
        r.op.PaysSeller k ∧ (r.ByOther d.seller_id ∨ r.ByRole d.seller_id s.db)) ∧
      (Grew a b d.buyer_id d.currency_id →
        (∃ picked now, r.op = .sweepInactivity picked now ∧ inactive s.db.app_settings now d = true) ∨
          r.op.PaysBuyer k ∧ (r.ByOther d.buyer_id ∨ r.ByRole d.buyer_id s.db ∨
            ∃ q u, q ∈ s.requests ∧ q.AsksCancel k u ∧ q.ByOther d.buyer_id)) := by
  have hinv : s.Inv := by
    refine h.invariant ⟨?_, ?_, ?_⟩ fun _ _ _ ht _ hstep => ht.step hstep
    · exact fun k d hd => (hdb k d hd).parties
    · exact fun k d hd => (hdb k d hd).wellFormed
    · intro k d hd hst
      rcases (hdb k d hd).status with hn | hn <;> rw [hst] at hn <;> cases hn
  have hp := hinv.parties k d hr
  obtain ⟨hsel, hbuy⟩ := part_pays hp hr hpart
  refine ⟨?_, ?_⟩
  · intro hg
    exact ⟨hsel hg, seller_not_alone hp hr hstep.guarded hstep.run (hsel hg)⟩
  · intro hg
    rcases hbuy hg with hpays | hsweep
    · exact .inr ⟨hpays, buyer_not_alone hinv hr hstep.guarded hstep.run hpays⟩
    · exact .inl hsweep

/-- Nothing but an operation on the deal or the inactivity sweep ends its escrow. -/
theorem settled_by (h : op.run db = .ok db') (ha : ActiveDeal db k) (hn : ¬ActiveDeal db' k) :
    op.subject = some k ∨ ∃ picked now, op = .sweepInactivity picked now := by
  obtain ⟨d, hr, hact⟩ := ha
  by_cases hk : op.Keeps
  · obtain ⟨d', hr', hstep⟩ := (deals_of hk h k).1 d hr
    have hclosed : isActiveForMoneyMovement d'.status = false := by
      by_contra hact'
      exact hn ⟨d', hr', by simpa using hact'⟩
    cases hstep with
    | kept hs =>
      rw [hs, hact] at hclosed
      cases hclosed
    | moved hg =>
      generalize d'.status = st at hg hclosed
      cases hg with
      | pay _ hs =>
        rw [hs] at hact
        cases hact
      | sweepPendingTopup _ hs =>
        rw [hs] at hact
        cases hact
      | sweepInactivity => exact .inr ⟨_, _, rfl⟩
      | _ => exact .inl rfl
  · cases op with
    | deleteDeal i =>
      left
      by_contra hik
      have hki : k ≠ i := fun hki => hik (by rw [hki]; rfl)
      refine hn ⟨d, ?_, hact⟩
      obtain ⟨d₀, -, ⟨-, rfl⟩ | ⟨-, amt, bal, db₁, -, -, -, hm, rfl⟩⟩ := deleteDeal_ok h
      · simp only [removeDeal, Table.erase_row, if_neg hki, hr]
      · simp only [removeDeal, Table.erase_row, if_neg hki, hm.deals, hr]
    | _ => exact absurd trivial hk

end

/-- The sample deal, with an admin for its seller. -/
def sampleInterestedDb : Db :=
  { sampleDealDb 2 ⟨1000000000, money_ten_fits⟩ with
    users := ((Table.empty.insert (sampleUser false)).insert (sampleUser true)).insert (sampleUser true) }

def sampleDealRow : Deal :=
  newDeal 1 2 1 ⟨1000000000, money_ten_fits⟩ ⟨0, money_zero_fits⟩ .pending_confirmation "cryptobot" true 0

/-- The call of `force_release` by user `a`. -/
def sampleForceRelease (a : ℕ) : Request := ⟨some a, .forceRelease 1 a none none 0, fun _ h => h⟩

theorem sampleForceRelease_step {a : ℕ} {user : User} (hu : sampleInterestedDb.users.row a = some user)
    (ha : user.is_admin = true) {db' : Db} (h : forceRelease sampleInterestedDb 1 a none none 0 = .ok db') :
    Docket.Step (sampleForceRelease a) ⟨sampleInterestedDb, []⟩ ⟨db', [sampleForceRelease a]⟩ where
  guarded := by
    rintro g ⟨⟩
    exact ⟨a, user, rfl, hu, ha⟩
  run := h
  requests := rfl

/-- Released by admin 3, the sample deal pays its seller through another user's step. -/
theorem sampleForceRelease_other : ∃ db', forceRelease sampleInterestedDb 1 3 none none 0 = .ok db' ∧
    Grew sampleInterestedDb db' 2 1 ∧ (sampleForceRelease 3).op.PaysSeller 1 ∧
      ((sampleForceRelease 3).ByOther 2 ∨ (sampleForceRelease 3).ByRole 2 sampleInterestedDb) := by
  have hrun : ∃ db', forceRelease sampleInterestedDb 1 3 none none 0 = .ok db' ∧
      (sampleInterestedDb.balance 2 1).amount.val < (db'.balance 2 1).amount.val := exists_ok (by decide +kernel)
  obtain ⟨db', hok, hgrew⟩ := hrun
  have hdb : ∀ k d, sampleInterestedDb.deals.row k = some d → d.New := by
    intro k d hd
    simp only [sampleInterestedDb, sampleDealDb, Table.insert_row, Table.empty_row] at hd
    split at hd
    · cases hd
      exact newDeal_new (by decide) (.inl rfl)
    · cases hd
  obtain ⟨hsel, -⟩ := no_lone_settlement (k := 1) (d := sampleDealRow) hdb .refl
    (sampleForceRelease_step (a := 3) rfl rfl hok) rfl (.whole rfl hok)
  exact ⟨db', hok, hgrew, hsel hgrew⟩

/-- A seller who is an admin releases the deal to himself: no step of the run was anybody else's. -/
theorem seller_releases_to_himself : sampleInterestedDb.deals.row 1 = some sampleDealRow ∧ sampleDealRow.seller_id = 2 ∧
    ∃ t, Reach Docket.Step Free ⟨sampleInterestedDb, []⟩ t ∧
    (sampleForceRelease 2).op.Part sampleInterestedDb 1 sampleInterestedDb t.db ∧
    Grew sampleInterestedDb t.db 2 1 ∧ ∀ r ∈ t.requests, r.actor = some 2 := by
  have hrun : ∃ db', forceRelease sampleInterestedDb 1 2 none none 0 = .ok db' ∧
      (sampleInterestedDb.balance 2 1).amount.val < (db'.balance 2 1).amount.val := exists_ok (by decide +kernel)
  obtain ⟨db', hok, hgrew⟩ := hrun
  refine ⟨rfl, rfl, ⟨db', [sampleForceRelease 2]⟩, .step (a := sampleForceRelease 2) .refl trivial
    (sampleForceRelease_step rfl rfl hok),
    .whole rfl hok, hgrew, ?_⟩
  intro r hr
  rw [List.mem_singleton.1 hr]
  rfl

end Garant
