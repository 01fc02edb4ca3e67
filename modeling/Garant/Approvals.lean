import Garant.Requests
import Garant.Settlement
/-!
# The four-eyes rule

A forced settlement is a session: it locks its deal, reads the currency and its
rate for the approval gate, and settles. In between, other sessions go on, rates
change, and admins decide about the open requests. `Panel` keeps the executions
beside the database, and `Panel.Inv` is what ties them to the requests. The rule
holds at the rate the gate read (`four_eyes`); the rate may be another when the
settlement commits (`rate_moved`).
-/
open Decimal

namespace Garant

/-! ## One execution -/

/-- The estimate at the given rate is at or above the threshold, or there is no rate. -/
def Execution.LargeAt (e : Execution) (rate : Option CurrencyUsdRate) (threshold : ℚ) : Prop :=
  ∀ r, rate = some r → threshold ≤ times e.amount r.usd_rate.val

/-- An execution, and the rate of its currency when it was committed. -/
structure Executed where
  made : Execution
  rate : Option CurrencyUsdRate

/-- The three actions. -/
inductive Forced
  | release
  | refund
  | split (body : BodyDecimal)

def Forced.settlement : Forced → Result ForcedSettlement
  | .release => pure releaseSettlement
  | .refund => pure refundSettlement
  | .split body => do
    let buyer_percent ← percentOk body
    pure (splitSettlement buyer_percent (percentText body buyer_percent))

/-- What a request has read of the currencies when it comes to its gate. -/
structure RatesRead where
  currencies : Table Currency
  usd_rates : ℕ → Option CurrencyUsdRate

def Db.ratesRead (db : Db) : RatesRead := ⟨db.currencies, db.usd_rates⟩

/-- A request that holds its deal's lock, with what it has read so far. -/
structure ForcedSession where
  forced : Forced
  deal_id : ℕ
  admin_id : ℕ
  reason : Option String
  approval_id : Option ℕ
  read : Option RatesRead

/-- The rest of the request: the gate and the settlement, with the currency and the rate read before. -/
def ForcedSession.run (w : ForcedSession) (read : RatesRead) (db : Db) (now : Time) : Result (Db × Option Execution) := do
  let f ← w.forced.settlement
  let (db', e) ← forceSettleTraced f { db with currencies := read.currencies, usd_rates := read.usd_rates } w.deal_id
    w.admin_id w.reason w.approval_id now
  pure ({ db' with currencies := db.currencies, usd_rates := db.usd_rates }, e)

/-! ## The panel -/

/-- The database, the requests under way, the executions so far, and the users that passed the admin guard. -/
structure Panel where
  db : Db
  sessions : Table ForcedSession
  executions : List Executed
  admins : List ℕ

def Panel.start (db : Db) : Panel := ⟨db, .empty, [], []⟩

inductive PanelEvent
  /-- A request locks its deal. -/
  | opens (w : ForcedSession)
  /-- It reads the currency and the rate for its gate. -/
  | reads (session : ℕ)
  /-- It goes on to its commit. -/
  | settles (session : ℕ) (now : Time)
  /-- It is refused. -/
  | refused (session : ℕ)
  | approves (approval_id admin_id : ℕ) (now : Time)
  | rejects (approval_id admin_id : ℕ) (now : Time)
  | rate (currency_id : ℕ) (rate : Option CurrencyUsdRate)
  /-- Anything else that is committed meanwhile. -/
  | other (db : Db)

def Db.setRate (db : Db) (currency_id : ℕ) (rate : Option CurrencyUsdRate) : Db :=
  { db with usd_rates := fun c => if c = currency_id then rate else db.usd_rates c }

/-- The caller passes the guard of the admin routes. -/
def IsAdmin (db : Db) (user_id : ℕ) : Prop := ∃ user, db.users.row user_id = some user ∧ adminGuardTotp.admits user = true

inductive PanelStep : PanelEvent → Panel → Panel → Prop
  | opens {s : Panel} {w : ForcedSession} (hadmin : IsAdmin s.db w.admin_id)
      (hlock : ∀ j w', s.sessions.row j = some w' → w'.deal_id ≠ w.deal_id) (hread : w.read = none) :
      PanelStep (.opens w) s { s with sessions := s.sessions.insert w, admins := w.admin_id :: s.admins }
  | reads {s : Panel} {i : ℕ} {w : ForcedSession} (hw : s.sessions.row i = some w) (hread : w.read = none) :
      PanelStep (.reads i) s { s with sessions := s.sessions.set i { w with read := some s.db.ratesRead } }
  | settles {s : Panel} {i : ℕ} {now : Time} {w : ForcedSession} {read : RatesRead} {db' : Db} {e : Option Execution}
      (hw : s.sessions.row i = some w) (hread : w.read = some read) (hrun : w.run read s.db now = .ok (db', e)) :
      PanelStep (.settles i now) s
        { s with
          db := db', sessions := s.sessions.erase i,
          executions := s.executions ++ (e.map fun e => ⟨e, s.db.usd_rates e.currency_id⟩).toList }
  | refused {s : Panel} {i : ℕ} : PanelStep (.refused i) s { s with sessions := s.sessions.erase i }
  | approves {s : Panel} {i a : ℕ} {now : Time} {db' : Db} (hadmin : IsAdmin s.db a)
      (hrun : approveDealApproval s.db i a now = .ok db') :
      PanelStep (.approves i a now) s { s with db := db', admins := a :: s.admins }
  | rejects {s : Panel} {i a : ℕ} {now : Time} {db' : Db} (hadmin : IsAdmin s.db a)
      (hrun : rejectDealApproval s.db i now = .ok db') :
      PanelStep (.rejects i a now) s { s with db := db', admins := a :: s.admins }
  | rate {s : Panel} {c : ℕ} {r : Option CurrencyUsdRate} :
      PanelStep (.rate c r) s { s with db := s.db.setRate c r }
  -- no other operation touches the requests, and a locked deal waits
  | other {s : Panel} {db' : Db} (hset : db'.settings = s.db.settings)
      (hreq : db'.admin_approval_requests = s.db.admin_approval_requests)
      (hlock : ∀ j w, s.sessions.row j = some w → db'.deals.row w.deal_id = s.db.deals.row w.deal_id) :
      PanelStep (.other db') s { s with db := db' }

/-! ## What happens to the requests -/

/-- The two are for the same action, deal and payload. -/
def SameKey (a b : AdminApprovalRequest) : Prop :=
  a.action = b.action ∧ a.target_type = b.target_type ∧ a.target_id = b.target_id ∧ a.payload = b.payload

/-- The moves of a request's status. -/
inductive ApprovalStatus.Next : ApprovalStatus → ApprovalStatus → Prop
  | approve : Next .pending .approved
  | reject : Next .pending .rejected
  | execute : Next .approved .executed

/-- One move of a request: it stays what it was asked for, and an approval is another admin's. -/
structure ApprovalMove (admins : List ℕ) (a a' : AdminApprovalRequest) : Prop where
  key : SameKey a a'
  requester : a'.requested_by_id = a.requested_by_id
  next : a.status.Next a'.status
  second : a'.status = .approved → ∃ b, a'.approved_by_id = some b ∧ b ≠ a.requested_by_id ∧ b ∈ admins
  spent : a'.status = .executed → a'.approved_by_id = a.approved_by_id

/-- What a step does to the requests. -/
inductive RequestsStep (admins : List ℕ) (t t' : Table AdminApprovalRequest) : Prop
  | kept (h : t' = t)
  | asked {a : AdminApprovalRequest} (h : t' = t.insert a) (hp : a.status = .pending) (hr : a.requested_by_id ∈ admins)
      (hfirst : ∀ i b, t.row i = some b → b.status = .pending → ¬SameKey b a)
  | moved {i : ℕ} {a a' : AdminApprovalRequest} (hr : t.row i = some a) (h : t' = t.set i a')
      (hm : ApprovalMove admins a a')

/-- Neither the settings nor the requests changed. -/
structure SameRequests (db db' : Db) : Prop where
  settings : db'.settings = db.settings
  requests : db'.admin_approval_requests = db.admin_approval_requests

section
variable {db db₁ db' : Db} {u c : ℕ} {x y : ℚ} {ref : LedgerRef}

theorem SameRequests.trans (h : SameRequests db db₁) (h' : SameRequests db₁ db') : SameRequests db db' :=
  ⟨h'.settings.trans h.settings, h'.requests.trans h.requests⟩

theorem changeBalance_requests (h : changeBalance db u c x y ref = .ok db') : SameRequests db db' := by
  have hlock : SameRequests db (lockUserBalance db u c) := by
    unfold lockUserBalance
    split
    · exact ⟨rfl, rfl⟩
    · exact ⟨rfl, rfl⟩
  obtain ⟨db₁, hw, h⟩ := bind_ok.1 h
  obtain ⟨bal, -, -, rfl⟩ := writeBalance_ok hw
  have hwrite : SameRequests db ((lockUserBalance db u c).setBalance u c bal) := ⟨hlock.settings, hlock.requests⟩
  unfold recordBalanceLedger at h
  split at h
  · rw [← pure_ok.1 h]
    exact hwrite
  · simp only [bind_ok, pure_ok] at h
    obtain ⟨_, -, _, -, _, -, _, -, _, -, _, -, rfl⟩ := h
    exact ⟨hwrite.settings, hwrite.requests⟩

/-- The movements of the three actions leave the requests alone. -/
theorem move_requests {o : Forced} {f : ForcedSettlement} {k : ℕ} {d : Deal} {amt : ℚ} {n : ℕ}
    (hf : o.settlement = .ok f) (h : f.move db k d amt n = .ok db') : SameRequests db db' := by
  cases o with
  | release =>
    cases pure_ok.1 hf
    obtain ⟨db₁, h₁, h₂⟩ := bind_ok.1 h
    exact (changeBalance_requests h₁).trans (changeBalance_requests h₂)
  | refund =>
    cases pure_ok.1 hf
    exact changeBalance_requests h
  | split p =>
    obtain ⟨q, -, hf⟩ := bind_ok.1 hf
    cases pure_ok.1 hf
    obtain ⟨share, -, h⟩ := bind_ok.1 h
    obtain ⟨db₁, h₁, h₂⟩ := bind_ok.1 h
    exact (changeBalance_requests h₁).trans (changeBalance_requests h₂)

/-- Without a lookup that fails, a request is either found or made. -/
theorem requestApproval_ok {a k : ℕ} {action : String} {amt : ℚ} {reason : Option String} {payload : ApprovalPayload}
    {g : Gate} (h : requestApproval db a k c action amt reason payload = .ok (db', g)) :
    db'.settings = db.settings ∧ (∃ i, g = .held i) ∧
      RequestsStep [a] db.admin_approval_requests db'.admin_approval_requests := by
  simp only [requestApproval] at h
  split at h
  · cases pure_ok.1 h
    exact ⟨rfl, ⟨_, rfl⟩, .kept rfl⟩
  · cases throw_ok.1 h
  · rename_i hnone
    simp only [bind_ok, pure_ok] at h
    obtain ⟨amount, -, est, -, h⟩ := h
    cases h
    refine ⟨rfl, ⟨_, rfl⟩, .asked rfl rfl List.mem_cons_self ?_⟩
    rintro i b hb hp ⟨ha, ht, hk, hpay⟩
    have hpick : decide (b.action = action ∧ b.target_type = "deal" ∧ b.target_id = k ∧ b.status = .pending ∧
        b.payload = payload) = true := decide_eq_true ⟨ha, ht, hk, hp, hpay⟩
    have hmem := Table.mem_ids.2 (⟨b, hb, hpick⟩ : ∃ r, db.admin_approval_requests.row i = some r ∧
      (fun a : AdminApprovalRequest => decide (a.action = action ∧ a.target_type = "deal" ∧ a.target_id = k ∧
        a.status = .pending ∧ a.payload = payload)) r = true)
    rw [hnone] at hmem
    cases hmem

theorem checkApproval_ok {a k i : ℕ} {action : String} {payload : ApprovalPayload} {r : Unit}
    (h : checkApproval db a k action payload i = .ok r) :
    ∃ b, db.admin_approval_requests.row i = some b ∧ b.status = .approved ∧ b.action = action ∧ b.target_type = "deal" ∧
      b.target_id = k ∧ b.payload = payload := by
  simp only [checkApproval, bind_ok, orRaise_ok, raiseIf_ok, not_or, not_not] at h
  obtain ⟨b, hb, _, hs, _, ⟨ht, hk, ha⟩, _, hp, -⟩ := h
  exact ⟨b, hb, hs, ha, ht, hk, hp⟩

/-- The request an execution was let through with, as it was before. -/
def Execution.Matches (e : Execution) (b : AdminApprovalRequest) : Prop :=
  b.action = e.action ∧ b.target_type = "deal" ∧ b.target_id = e.deal_id ∧ b.payload = e.payload

/-- What a settlement with its gate does to the requests: it may ask, or use an approved one. -/
inductive Traced (admin_id : ℕ) (threshold : ℚ) (t t' : Table AdminApprovalRequest) : Option Execution → Prop
  | held (h : RequestsStep [admin_id] t t') : Traced admin_id threshold t t' none
  | small {e : Execution} (hn : e.approval = none) (hs : ¬e.LargeAt e.rate threshold) (h : t' = t) :
      Traced admin_id threshold t t' (some e)
  | approved {e : Execution} {i : ℕ} {b b' : AdminApprovalRequest} (hi : e.approval = some i) (hr : t.row i = some b)
      (hs : b.status = .approved) (hm : e.Matches b) (h : t' = t.set i b') (hs' : b'.status = .executed)
      (hk : SameKey b b') (hq : b'.requested_by_id = b.requested_by_id) (ha : b'.approved_by_id = b.approved_by_id) :
      Traced admin_id threshold t t' (some e)

theorem forceSettleTraced_ok {o : Forced} {f : ForcedSettlement} {k a : ℕ} {reason : Option String} {approval : Option ℕ}
    {now : Time} {e : Option Execution} (hthr : 0 < db.settings.admin_deal_approval_threshold_usd)
    (hf : o.settlement = .ok f) (h : forceSettleTraced f db k a reason approval now = .ok (db', e)) :
    db'.settings = db.settings ∧ Traced a db.settings.admin_deal_approval_threshold_usd db.admin_approval_requests
      db'.admin_approval_requests e := by
  simp only [forceSettleTraced, getDeal, bind_ok, orRaise_ok, raiseIf_ok] at h
  obtain ⟨d, hr, _, -, cur, -, amt, -, ⟨db₁, gate⟩, hgate, h⟩ := h
  simp only [ensureApprovalOrCreate, if_neg (not_le.2 hthr)] at hgate
  split at hgate
  · -- the estimate is below the threshold
    rename_i hsmall
    cases pure_ok.1 hgate
    simp only [bind_ok, pure_ok] at h
    obtain ⟨db₂, hm, h⟩ := h
    cases h
    obtain ⟨hset, hreq⟩ := move_requests hf hm
    refine ⟨hset, .small rfl ?_ hreq⟩
    obtain ⟨x, hx, hlt⟩ := Option.any_eq_true _ _ |>.1 hsmall
    intro hlarge
    simp only [estimateUsd] at hx
    split at hx
    · cases hx
    · rename_i r hrate
      cases hx
      exact absurd (hlarge r hrate) (not_le.2 (of_decide_eq_true hlt))
  split at hgate
  · obtain ⟨hset, ⟨i, rfl⟩, hstep⟩ := requestApproval_ok hgate
    cases pure_ok.1 h
    exact ⟨hset, .held hstep⟩
  · rename_i i
    simp only [bind_ok, pure_ok] at hgate
    obtain ⟨_, hc, hgate⟩ := hgate
    cases hgate
    obtain ⟨b, hb, hs, ha, ht, hk, hp⟩ := checkApproval_ok hc
    simp only [bind_ok, pure_ok] at h
    obtain ⟨db₂, hm, h⟩ := h
    obtain ⟨hset, hreq⟩ := move_requests hf hm
    have hrow (d' : Deal) : (db₂.setDeal k d').admin_approval_requests.row i = some b := by
      rw [show (db₂.setDeal k d').admin_approval_requests = db.admin_approval_requests from hreq, hb]
    simp only [markApprovalExecuted, hrow] at h
    obtain ⟨hdb, rfl⟩ := Prod.mk.inj h
    have hspent : db'.admin_approval_requests = db.admin_approval_requests.set i
        { b with status := .executed, executed_by_id := some a, executed_at := some now } := by
      rw [← hdb, ← hreq]
      rfl
    exact ⟨by rw [← hdb, ← hset]; rfl, .approved rfl hb hs ⟨ha, ht, hk, hp⟩ hspent rfl ⟨rfl, rfl, rfl, rfl⟩ rfl rfl⟩

theorem session_run {w : ForcedSession} {read : RatesRead} {now : Time} {e : Option Execution}
    (hthr : 0 < db.settings.admin_deal_approval_threshold_usd) (h : w.run read db now = .ok (db', e)) :
    db'.settings = db.settings ∧ Traced w.admin_id db.settings.admin_deal_approval_threshold_usd
      db.admin_approval_requests db'.admin_approval_requests e := by
  obtain ⟨f, hf, h⟩ := bind_ok.1 h
  obtain ⟨⟨db₁, e₁⟩, h, hret⟩ := bind_ok.1 h
  cases pure_ok.1 hret
  obtain ⟨hset, htraced⟩ := forceSettleTraced_ok (by exact hthr) hf h
  exact ⟨hset, htraced⟩

theorem approveDealApproval_step {i a : ℕ} {now : Time} (h : approveDealApproval db i a now = .ok db') :
    db'.settings = db.settings ∧ RequestsStep [a] db.admin_approval_requests db'.admin_approval_requests := by
  simp only [approveDealApproval, getApproval, bind_ok, orRaise_ok, raiseIf_ok, pure_ok, not_not] at h
  obtain ⟨b, ⟨_, hb, _, -, rfl⟩, _, hs, _, hne, rfl⟩ := h
  refine ⟨rfl, .moved hb rfl ⟨⟨rfl, rfl, rfl, rfl⟩, rfl, ?_, ?_, ?_⟩⟩
  · rw [hs]
    exact .approve
  · intro
    exact ⟨a, rfl, Ne.symm hne, List.mem_cons_self⟩
  · intro hx
    cases hx

theorem rejectDealApproval_step {i a : ℕ} {now : Time} (h : rejectDealApproval db i now = .ok db') :
    db'.settings = db.settings ∧ RequestsStep [a] db.admin_approval_requests db'.admin_approval_requests := by
  simp only [rejectDealApproval, getApproval, bind_ok, orRaise_ok, raiseIf_ok, pure_ok, not_not] at h
  obtain ⟨b, ⟨_, hb, _, -, rfl⟩, _, hs, rfl⟩ := h
  refine ⟨rfl, .moved hb rfl ⟨⟨rfl, rfl, rfl, rfl⟩, rfl, ?_, ?_, ?_⟩⟩
  · rw [hs]
    exact .reject
  · intro hx
    cases hx
  · intro hx
    cases hx

end

/-! ## The requests over a run -/

/-- Requests come from admins, approvals from another admin, and no two open ones are for the same. -/
structure RequestsInv (admins : List ℕ) (t : Table AdminApprovalRequest) : Prop where
  requester : ∀ i a, t.row i = some a → a.requested_by_id ∈ admins
  second : ∀ i a, t.row i = some a → a.status = .approved ∨ a.status = .executed →
    ∃ b, a.approved_by_id = some b ∧ b ≠ a.requested_by_id ∧ b ∈ admins
  pending_once : ∀ i j a b, t.row i = some a → t.row j = some b → a.status = .pending → b.status = .pending →
    SameKey a b → i = j

section
variable {admins admins' : List ℕ} {t t' : Table AdminApprovalRequest} {i : ℕ} {a a' b : AdminApprovalRequest}

theorem SameKey.symm (h : SameKey a b) : SameKey b a := ⟨h.1.symm, h.2.1.symm, h.2.2.1.symm, h.2.2.2.symm⟩

theorem ApprovalMove.mono (hsub : admins ⊆ admins') (h : ApprovalMove admins a a') : ApprovalMove admins' a a' := by
  refine { h with second := ?_ }
  intro hs
  obtain ⟨b, hb, hne, hmem⟩ := h.second hs
  exact ⟨b, hb, hne, hsub hmem⟩

theorem RequestsStep.mono (hsub : admins ⊆ admins') (h : RequestsStep admins t t') : RequestsStep admins' t t' := by
  cases h with
  | kept h => exact .kept h
  | asked h hp hr hfirst => exact .asked h hp (hsub hr) hfirst
  | moved hr h hm => exact .moved hr h (hm.mono hsub)

/-- A request stays, or moves once. -/
theorem RequestsStep.row (h : RequestsStep admins t t') (hr : t.row i = some a) :
    ∃ a', t'.row i = some a' ∧ (a' = a ∨ ApprovalMove admins a a') := by
  cases h with
  | kept h => exact ⟨a, by rw [h, hr], .inl rfl⟩
  | asked h =>
    refine ⟨a, ?_, .inl rfl⟩
    rw [h, Table.insert_row, if_neg (Table.lt_next hr).ne, hr]
  | @moved j b b' hb h hm =>
    rw [h, Table.set_row hb]
    by_cases hij : i = j
    · subst hij
      cases hr.symm.trans hb
      exact ⟨b', if_pos rfl, .inr hm⟩
    · exact ⟨a, by rw [if_neg hij, hr], .inl rfl⟩

/-- A request that has been used stays as it is. -/
theorem RequestsStep.executed (h : RequestsStep admins t t') (hr : t.row i = some a) (hs : a.status = .executed) :
    t'.row i = some a := by
  obtain ⟨a', hr', rfl | hm⟩ := h.row hr
  · exact hr'
  · -- nothing follows `executed`
    have hnext := hm.next
    rw [hs] at hnext
    cases hnext

theorem RequestsInv.mono (hsub : admins ⊆ admins') (h : RequestsInv admins t) : RequestsInv admins' t := by
  refine ⟨fun i a hr => hsub (h.requester i a hr), ?_, h.pending_once⟩
  intro i a hr hs
  obtain ⟨b, hb, hne, hmem⟩ := h.second i a hr hs
  exact ⟨b, hb, hne, hsub hmem⟩

theorem RequestsInv.step (hi : RequestsInv admins t) (h : RequestsStep admins t t') : RequestsInv admins t' := by
  cases h with
  | kept h =>
    rw [h]
    exact hi
  | @asked c h hp hr hfirst =>
    subst h
    refine ⟨?_, ?_, ?_⟩
    · intro i a ha
      rw [Table.insert_row] at ha
      split at ha
      · cases ha
        exact hr
      · exact hi.requester i a ha
    · intro i a ha hs
      rw [Table.insert_row] at ha
      split at ha
      · cases ha
        rw [hp] at hs
        rcases hs with hs | hs <;> cases hs
      · exact hi.second i a ha hs
    · -- the lookup before the insert found no open request for the same
      intro i j a b ha hb hpa hpb hkey
      rw [Table.insert_row] at ha hb
      split at ha <;> split at hb
      · rename_i hin hjn
        rw [hin, hjn]
      · cases ha
        exact absurd hkey.symm (hfirst j b hb hpb)
      · cases hb
        exact absurd hkey (hfirst i a ha hpa)
      · exact hi.pending_once i j a b ha hb hpa hpb hkey
  | @moved k c c' hc h hm =>
    subst h
    have hopen : c'.status ≠ .pending := by
      have hnext := hm.next
      intro hs
      rw [hs] at hnext
      generalize c.status = st at hnext
      cases hnext
    refine ⟨?_, ?_, ?_⟩
    · intro i a ha
      rw [Table.set_row hc] at ha
      split at ha
      · cases ha
        rw [hm.requester]
        exact hi.requester k c hc
      · exact hi.requester i a ha
    · intro i a ha hs
      rw [Table.set_row hc] at ha
      split at ha
      · cases ha
        rw [hm.requester]
        rcases hs with hs | hs
        · exact hm.second hs
        · -- executed only from approved, with the same approver
          have happroved : c.status = .approved := by
            have hnext := hm.next
            rw [hs] at hnext
            generalize c.status = st at hnext
            cases hnext
            rfl
          rw [hm.spent hs]
          exact hi.second k c hc (.inl happroved)
      · exact hi.second i a ha hs
    · intro i j a b ha hb hpa hpb hkey
      rw [Table.set_row hc] at ha hb
      split at ha
      · cases ha
        exact absurd hpa hopen
      split at hb
      · cases hb
        exact absurd hpb hopen
      exact hi.pending_once i j a b ha hb hpa hpb hkey

end

/-- The execution used a request for the same, asked for by one admin and approved by another. -/
def Execution.Approved (e : Execution) (admins : List ℕ) (t : Table AdminApprovalRequest) : Prop :=
  ∃ i a b, e.approval = some i ∧ t.row i = some a ∧ e.Matches a ∧ a.status = .executed ∧ a.requested_by_id ∈ admins ∧
    a.approved_by_id = some b ∧ b ∈ admins ∧ b ≠ a.requested_by_id

structure Panel.Inv (threshold : ℚ) (s : Panel) : Prop where
  setting : s.db.settings.admin_deal_approval_threshold_usd = threshold
  requests : RequestsInv s.admins s.db.admin_approval_requests
  sessions : ∀ i w, s.sessions.row i = some w → w.admin_id ∈ s.admins
  executions : ∀ x ∈ s.executions, (x.made.approval = none ∧ ¬x.made.LargeAt x.made.rate threshold) ∨
    x.made.Approved s.admins s.db.admin_approval_requests
  once : (s.executions.filterMap (·.made.approval)).Nodup

section
variable {threshold : ℚ} {s t : Panel} {ev : PanelEvent} {e : Execution} {admins admins' : List ℕ}
  {q q' : Table AdminApprovalRequest}

theorem Execution.Approved.step (hsub : admins ⊆ admins') (h : e.Approved admins q) (hs : RequestsStep admins' q q') :
    e.Approved admins' q' := by
  obtain ⟨i, a, b, hi, hr, hm, hst, hreq, hb, hmem, hne⟩ := h
  exact ⟨i, a, b, hi, hs.executed hr hst, hm, hst, hsub hreq, hb, hsub hmem, hne⟩

/-- A step of the panel that executes nothing. -/
theorem Panel.Inv.quiet (hs : s.Inv threshold) (hset : t.db.settings = s.db.settings) (hsub : s.admins ⊆ t.admins)
    (hstep : RequestsStep t.admins s.db.admin_approval_requests t.db.admin_approval_requests)
    (hsess : ∀ i w, t.sessions.row i = some w → w.admin_id ∈ t.admins) (hexec : t.executions = s.executions) :
    t.Inv threshold where
  setting := by rw [hset, hs.setting]
  requests := (hs.requests.mono hsub).step hstep
  sessions := hsess
  executions := by
    rw [hexec]
    intro e he
    rcases hs.executions e he with hsmall | ha
    · exact .inl hsmall
    · exact .inr (ha.step hsub hstep)
  once := by
    rw [hexec]
    exact hs.once

/-- A settlement with its gate. -/
theorem Panel.Inv.settles {i : ℕ} {w : ForcedSession} {db' : Db} {e : Option Execution}
    {rate : Execution → Option CurrencyUsdRate} (hs : s.Inv threshold)
    (hw : s.sessions.row i = some w) (hset : db'.settings = s.db.settings)
    (h : Traced w.admin_id threshold s.db.admin_approval_requests db'.admin_approval_requests e) :
    Panel.Inv threshold
      { s with
        db := db', sessions := s.sessions.erase i,
        executions := s.executions ++ (e.map fun e => ⟨e, rate e⟩).toList } := by
  have hsess : ∀ j w', (s.sessions.erase i).row j = some w' → w'.admin_id ∈ s.admins := by
    intro j w' hj
    rw [Table.erase_row] at hj
    split at hj
    · cases hj
    · exact hs.sessions j w' hj
  have hsub : [w.admin_id] ⊆ s.admins := by
    intro a ha
    rw [List.mem_singleton.1 ha]
    exact hs.sessions i w hw
  cases h with
  | held h =>
    exact hs.quiet (t := { s with db := db', sessions := s.sessions.erase i, executions := s.executions ++ [] }) hset
      (List.Subset.refl _) (h.mono hsub) hsess (List.append_nil _)
  | @small e hn hsmall h =>
    have hkept := hs.quiet (t := { s with db := db', sessions := s.sessions.erase i }) hset
      (List.Subset.refl _) (.kept h) hsess rfl
    refine { hkept with executions := ?_, once := ?_ }
    · intro e' he'
      rcases List.mem_append.1 he' with he' | he'
      · exact hkept.executions e' he'
      · cases List.mem_singleton.1 he'
        exact .inl ⟨hn, hsmall⟩
    · simpa [List.filterMap_append, hn] using hs.once
  | @approved e k b b' hi hr hst hm h hst' hk hq ha =>
    have hmove : ApprovalMove s.admins b b' := by
      refine ⟨hk, hq, ?_, ?_, fun _ => ha⟩
      · rw [hst, hst']
        exact .execute
      · rw [hst']
        intro hx
        cases hx
    have hkept := hs.quiet (t := { s with db := db', sessions := s.sessions.erase i }) hset
      (List.Subset.refl _) (.moved hr h hmove) hsess rfl
    have hr' : db'.admin_approval_requests.row k = some b' := by rw [h, Table.set_row hr, if_pos rfl]
    refine { hkept with executions := ?_, once := ?_ }
    · intro e' he'
      rcases List.mem_append.1 he' with he' | he'
      · exact hkept.executions e' he'
      · cases List.mem_singleton.1 he'
        obtain ⟨c, hc, hne, hmem⟩ := hs.requests.second k b hr (.inl hst)
        obtain ⟨hact, htype, htarget, hpay⟩ := hk
        refine .inr ⟨k, b', c, hi, hr', ?_, hst', ?_, ha.trans hc, hmem, by rwa [hq]⟩
        · exact ⟨hact.symm.trans hm.1, htype.symm.trans hm.2.1, htarget.symm.trans hm.2.2.1, hpay.symm.trans hm.2.2.2⟩
        · rw [hq]
          exact hs.requests.requester k b hr
    · -- the requests used before are executed, this one was still approved
      simp only [Option.map_some, Option.toList_some, List.filterMap_append, List.filterMap_cons, hi, List.filterMap_nil]
      refine List.Nodup.append hs.once (List.nodup_singleton _) ?_
      rw [List.disjoint_singleton]
      intro hmem
      obtain ⟨e', he', hk'⟩ := List.mem_filterMap.1 hmem
      rcases hs.executions e' he' with ⟨hn, -⟩ | ⟨j, a, -, hj, hrow, -, hstat, -⟩
      · rw [hn] at hk'
        cases hk'
      · rw [hj, Option.some.injEq] at hk'
        rw [hk', hr, Option.some.injEq] at hrow
        rw [← hrow, hst] at hstat
        cases hstat

theorem Panel.Inv.step (hthr : 0 < threshold) (hs : s.Inv threshold) (h : PanelStep ev s t) : t.Inv threshold := by
  have hself := List.Subset.refl s.admins
  cases h with
  | @opens _ w hadmin =>
    refine hs.quiet rfl (List.subset_cons_self _ _) (.kept rfl) ?_ rfl
    intro j w' hj
    simp only [Table.insert_row] at hj
    split at hj
    · cases hj
      exact List.mem_cons_self
    · exact List.mem_cons_of_mem _ (hs.sessions j w' hj)
  | @reads _ i w hw =>
    refine hs.quiet rfl hself (.kept rfl) ?_ rfl
    intro j w' hj
    rw [Table.set_row hw] at hj
    split at hj
    · cases hj
      exact hs.sessions i w hw
    · exact hs.sessions j w' hj
  | settles hw hread hrun =>
    rw [← hs.setting] at hthr
    obtain ⟨hset, htraced⟩ := session_run hthr hrun
    rw [hs.setting] at htraced
    exact hs.settles hw hset htraced
  | refused =>
    refine hs.quiet rfl hself (.kept rfl) ?_ rfl
    intro j w' hj
    simp only [Table.erase_row] at hj
    split at hj
    · cases hj
    · exact hs.sessions j w' hj
  | @approves _ i a now db' hadmin hrun =>
    obtain ⟨hset, hstep⟩ := approveDealApproval_step hrun
    exact hs.quiet hset (List.subset_cons_self _ _) (hstep.mono (by simp))
      (fun j w' hj => List.mem_cons_of_mem _ (hs.sessions j w' hj)) rfl
  | @rejects _ i a now db' hadmin hrun =>
    obtain ⟨hset, hstep⟩ := rejectDealApproval_step (a := a) hrun
    exact hs.quiet hset (List.subset_cons_self _ _) (hstep.mono (by simp))
      (fun j w' hj => List.mem_cons_of_mem _ (hs.sessions j w' hj)) rfl
  | rate => exact hs.quiet rfl hself (.kept rfl) hs.sessions rfl
  | other hset hreq => exact hs.quiet hset hself (.kept hreq) hs.sessions rfl

theorem Panel.Inv.start {db : Db} (hnew : ∀ i, db.admin_approval_requests.row i = none) :
    (Panel.start db).Inv db.settings.admin_deal_approval_threshold_usd where
  setting := rfl
  requests := by
    refine ⟨?_, ?_, ?_⟩
    · intro i a ha
      cases (hnew i).symm.trans ha
    · intro i a ha
      cases (hnew i).symm.trans ha
    · intro i j a b ha
      cases (hnew i).symm.trans ha
  sessions := by
    intro i w hw
    cases hw
  executions := by
    intro e he
    cases he
  once := List.nodup_nil

theorem panel_row (hthr : 0 < threshold) (hs : s.Inv threshold) (h : PanelStep ev s t) :
    RequestsStep t.admins s.db.admin_approval_requests t.db.admin_approval_requests := by
  cases h with
  | opens | reads | refused | rate => exact .kept rfl
  | @settles _ i now w read db' e hw hread hrun =>
    rw [← hs.setting] at hthr
    obtain ⟨-, htraced⟩ := session_run hthr hrun
    have hmem : w.admin_id ∈ s.admins := hs.sessions i w hw
    cases htraced with
    | held h => exact h.mono (by simpa using hmem)
    | small hn hsmall h => exact .kept h
    | approved hi hr hst hm h hst' hk hq ha =>
      refine .moved hr h ⟨hk, hq, by rw [hst, hst']; exact .execute, ?_, fun _ => ha⟩
      rw [hst']
      intro hx
      cases hx
  | @approves _ i a now db' hadmin hrun => exact (approveDealApproval_step hrun).2.mono (by simp)
  | @rejects _ i a now db' hadmin hrun => exact (rejectDealApproval_step (a := a) hrun).2.mono (by simp)
  | other hset hreq => exact .kept hreq

end

/-! ## The lookup -/

/-- With at most one open request for the same, the lookup finds at most one. -/
theorem lookup_ok {admins : List ℕ} {db : Db} (h : RequestsInv admins db.admin_approval_requests)
    (a k c : ℕ) (action : String) (amt : ℚ) (reason : Option String) (payload : ApprovalPayload) :
    requestApproval db a k c action amt reason payload ≠ .error .multiple_results := by
  intro hx
  simp only [requestApproval] at hx
  split at hx
  · cases hx
  · rename_i i j rest hids
    have hnodup := Table.nodup_ids (t := db.admin_approval_requests) fun a : AdminApprovalRequest =>
      decide (a.action = action ∧ a.target_type = "deal" ∧ a.target_id = k ∧ a.status = .pending ∧ a.payload = payload)
    have hrow {n : ℕ} (hn : n ∈ i :: j :: rest) : ∃ b, db.admin_approval_requests.row n = some b ∧ b.action = action ∧
        b.target_type = "deal" ∧ b.target_id = k ∧ b.status = .pending ∧ b.payload = payload := by
      rw [← hids] at hn
      obtain ⟨b, hb, hp⟩ := Table.mem_ids.1 hn
      exact ⟨b, hb, of_decide_eq_true hp⟩
    rw [hids] at hnodup
    obtain ⟨b, hb, ha, ht, hk, hp, hpay⟩ := hrow List.mem_cons_self
    obtain ⟨b', hb', ha', ht', hk', hp', hpay'⟩ := hrow (List.mem_cons_of_mem i List.mem_cons_self)
    have hkey : SameKey b b' := ⟨ha.trans ha'.symm, ht.trans ht'.symm, hk.trans hk'.symm, hpay.trans hpay'.symm⟩
    have hij : i = j := h.pending_once i j b b' hb hb' hp hp' hkey
    exact (List.nodup_cons.1 hnodup).1 (by rw [hij]; exact List.mem_cons_self)
  · -- a new request can only fail on its numbers
    cases hs : store amt with
    | error e =>
      rw [hs] at hx
      cases hx
      cases store_error hs
    | ok v =>
      rw [hs] at hx
      cases hest : (estimateUsd db c amt).1 with
      | none =>
        rw [hest] at hx
        cases hx
      | some y =>
        rw [hest] at hx
        cases hy : store y with
        | error e =>
          simp only [bind, Except.bind, storeOpt, hy] at hx
          cases hx
          cases store_error hy
        | ok z =>
          simp only [bind, Except.bind, storeOpt, hy] at hx
          cases hx

/-! ## The rule -/

/-- Every settlement that is large at the rate its gate read uses up a request for the same, asked
for by one admin and approved by another; no request is used twice, and none goes another way than
through its statuses. -/
theorem four_eyes {db : Db} {s : Panel} (hthr : 0 < db.settings.admin_deal_approval_threshold_usd)
    (hnew : ∀ i, db.admin_approval_requests.row i = none) (h : Reach PanelStep Free (Panel.start db) s) :
    (∀ x ∈ s.executions, x.made.LargeAt x.made.rate db.settings.admin_deal_approval_threshold_usd →
        x.made.Approved s.admins s.db.admin_approval_requests) ∧
      (s.executions.filterMap (·.made.approval)).Nodup ∧
      (∀ ev t, PanelStep ev s t → ∀ i a, s.db.admin_approval_requests.row i = some a →
        ∃ a', t.db.admin_approval_requests.row i = some a' ∧ (a' = a ∨ SameKey a a' ∧ a.status.Next a'.status)) ∧
      (∀ i j a b, s.db.admin_approval_requests.row i = some a → s.db.admin_approval_requests.row j = some b →
        a.status = .pending → b.status = .pending → SameKey a b → i = j) ∧
      ∀ a k c action amt reason payload, requestApproval s.db a k c action amt reason payload ≠ .error .multiple_results := by
  have hs : s.Inv db.settings.admin_deal_approval_threshold_usd :=
    h.invariant (.start hnew) fun _ _ _ ht _ hstep => ht.step hthr hstep
  refine ⟨?_, hs.once, ?_, hs.requests.pending_once, lookup_ok hs.requests⟩
  · intro x hx hlarge
    rcases hs.executions x hx with ⟨-, hsmall⟩ | happ
    · exact absurd hlarge hsmall
    · exact happ
  · intro ev t hstep i a ha
    obtain ⟨a', ha', rfl | hm⟩ := (panel_row hthr hs hstep).row ha
    · exact ⟨_, ha', .inl rfl⟩
    · exact ⟨a', ha', .inr ⟨hm.key, hm.next⟩⟩

/-- The sample deal of 10 with a threshold of 5, the given rate, and a second admin. -/
def samplePanelDb (rate : CurrencyUsdRate) : Db :=
  { sampleDealDb 2 ⟨1000000000, money_ten_fits⟩ with
    settings := ⟨"1:live", "", "", 1200, 600, 5⟩
    usd_rates := fun c => if c = 1 then some rate else none
    users := (sampleDb 2 ⟨0, money_zero_fits⟩).users.insert (sampleUser true) }

theorem money_one_fits : (100000000 : ℤ).natAbs < 10 ^ 28 := by decide

theorem money_tenth_fits : (10000000 : ℤ).natAbs < 10 ^ 28 := by decide

/-- A dollar. -/
def samplePanelRate : CurrencyUsdRate := ⟨1, ⟨100000000, money_one_fits⟩⟩

/-- Ten cents. -/
def sampleLowRate : CurrencyUsdRate := ⟨1, ⟨10000000, money_tenth_fits⟩⟩

/-- Admin 3 releases the sample deal. -/
def sampleRelease (approval_id : Option ℕ) : ForcedSession := ⟨.release, 1, 3, none, approval_id, none⟩

theorem isAdmin_of_row {db : Db} {a : ℕ} (h : (db.users.row a).any (·.is_admin) = true) : IsAdmin db a := by
  obtain ⟨user, hr, ha⟩ := Option.any_eq_true _ _ |>.1 h
  exact ⟨user, hr, ha⟩

/-- A request alone on the panel, with one change of a rate between its reading and its commit. -/
theorem panel_session {s₀ s : Panel} {w : ForcedSession} {c : ℕ} {rate : Option CurrencyUsdRate} {db' : Db}
    {e : Option Execution} (h : Reach PanelStep Free s₀ s) (hidle : ∀ j, s.sessions.row j = none) (hw : w.read = none)
    (hadmin : IsAdmin s.db w.admin_id) (hrun : w.run s.db.ratesRead (s.db.setRate c rate) 0 = .ok (db', e)) :
    ∃ t, Reach PanelStep Free s₀ t ∧ t.db = db' ∧ (∀ j, t.sessions.row j = none) ∧
      t.executions = s.executions ++ (e.map fun e => ⟨e, (s.db.setRate c rate).usd_rates e.currency_id⟩).toList := by
  have hopened := h.step (a := .opens w) trivial (.opens hadmin (fun j w' hj => by cases (hidle j).symm.trans hj) hw)
  have hrow : (s.sessions.insert w).row s.sessions.next = some w := by rw [Table.insert_row, if_pos rfl]
  have hread := hopened.step (a := .reads s.sessions.next) trivial (.reads hrow hw)
  have hrate := hread.step (a := .rate c rate) trivial .rate
  have hset (j : ℕ) (w' : ForcedSession) : ((s.sessions.insert w).set s.sessions.next w').row j =
      if j = s.sessions.next then some w' else (s.sessions.insert w).row j := Table.set_row hrow
  have hdone := hrate.step (a := .settles s.sessions.next 0) trivial
    (.settles ((hset _ _).trans (if_pos rfl)) rfl hrun)
  refine ⟨_, hdone, rfl, fun j => ?_, rfl⟩
  rw [Table.erase_row]
  split
  · rfl
  · rename_i hj
    rw [hset, if_neg hj, Table.insert_row, if_neg hj]
    exact hidle j

/-- Asked for by admin 3, approved by admin 4, and released. -/
theorem sampleRelease_approved : ∃ s x, Reach PanelStep Free (Panel.start (samplePanelDb samplePanelRate)) s ∧
    s.executions = [x] ∧ x.made.amount = 10 ∧ x.made.rate.map (·.usd_rate.val) = some 1 ∧
    x.made.Approved s.admins s.db.admin_approval_requests := by
  have hrun : ∃ x, (do
      let db := samplePanelDb samplePanelRate
      let (a, e₁) ← (sampleRelease none).run db.ratesRead (db.setRate 1 (some samplePanelRate)) 0
      let b ← approveDealApproval a 1 4 0
      let (c, e) ← (sampleRelease (some 1)).run b.ratesRead (b.setRate 1 (some samplePanelRate)) 0
      pure (a, e₁, b, c, e) : Result (Db × Option Execution × Db × Db × Option Execution)) = .ok x ∧
        x.2.1.isNone = true ∧
        x.2.2.2.2.any (fun e => e.amount = 10 ∧ e.rate.map (·.usd_rate.val) = some 1) = true ∧
        (x.1.users.row 4).any (·.is_admin) = true ∧ (x.2.2.1.users.row 3).any (·.is_admin) = true :=
    exists_ok (by decide +kernel)
  obtain ⟨⟨a, e₁, b, c, e⟩, hruns, hheld, hlarge, hfour, hthree⟩ := hrun
  obtain ⟨⟨a', e₁'⟩, ha, hruns⟩ := bind_ok.1 hruns
  obtain ⟨b', hb, hruns⟩ := bind_ok.1 hruns
  obtain ⟨⟨c', e'⟩, hc, hruns⟩ := bind_ok.1 hruns
  cases pure_ok.1 hruns
  cases Option.isNone_iff_eq_none.1 hheld
  obtain ⟨e, rfl, hnumbers⟩ := Option.any_eq_true _ _ |>.1 hlarge
  obtain ⟨hamount, hrate⟩ := of_decide_eq_true hnumbers
  obtain ⟨s₁, h₁, rfl, hidle₁, hnone⟩ :=
    panel_session (s := Panel.start (samplePanelDb samplePanelRate)) .refl (fun _ => rfl) rfl
    (isAdmin_of_row (by decide)) ha
  have h₂ := h₁.step (a := .approves 1 4 0) trivial (.approves (isAdmin_of_row hfour) hb)
  obtain ⟨s₃, h₃, rfl, -, hone⟩ := panel_session h₂ hidle₁ rfl (isAdmin_of_row hthree) hc
  obtain ⟨hrule, -⟩ := four_eyes (by decide) (fun _ => rfl) h₃
  simp only [hnone, Panel.start, Option.map_none, Option.toList_none, List.append_nil, List.nil_append, Option.map_some,
    Option.toList_some] at hone
  refine ⟨s₃, _, h₃, hone, hamount, hrate, hrule _ (by rw [hone]; exact List.mem_cons_self) ?_⟩
  -- ten times one is at least five
  intro r hr
  rw [hr, Option.map_some, Option.some.injEq] at hrate
  rw [hamount, hrate]
  decide +kernel

/-- The gate reads a rate of ten cents and asks nobody; the rate is a dollar when the release of 10 commits. -/
theorem rate_moved : ¬ ∀ (db : Db) (s : Panel), 0 < db.settings.admin_deal_approval_threshold_usd →
    (∀ i, db.admin_approval_requests.row i = none) → Reach PanelStep Free (Panel.start db) s →
    ∀ x ∈ s.executions, x.made.LargeAt x.rate db.settings.admin_deal_approval_threshold_usd →
      x.made.Approved s.admins s.db.admin_approval_requests := by
  intro hall
  have hrun : ∃ x, (sampleRelease none).run (samplePanelDb sampleLowRate).ratesRead
      ((samplePanelDb sampleLowRate).setRate 1 (some samplePanelRate)) 0 = .ok x ∧
        x.2.any (fun e => e.amount = 10 ∧ e.currency_id = 1 ∧ e.approval = none) = true :=
    exists_ok (by decide +kernel)
  obtain ⟨⟨db', e⟩, hrun, hmade⟩ := hrun
  obtain ⟨e, rfl, hmade⟩ := Option.any_eq_true _ _ |>.1 hmade
  obtain ⟨hamount, hcurrency, hnone⟩ := of_decide_eq_true hmade
  obtain ⟨s, hs, rfl, -, hone⟩ := panel_session (s := Panel.start (samplePanelDb sampleLowRate)) .refl (fun _ => rfl) rfl
    (isAdmin_of_row (by decide)) hrun
  have happ := hall _ s (by decide) (fun _ => rfl) hs ⟨e, _⟩ (by rw [hone]; exact List.mem_cons_self) ?_
  · obtain ⟨i, a, b, hi, -⟩ := happ
    cases hnone.symm.trans hi
  · -- ten times one is at least five
    intro r hr
    simp only [hcurrency, Db.setRate, if_true, Option.some.injEq] at hr
    rw [hamount, ← hr]
    decide +kernel

end Garant
