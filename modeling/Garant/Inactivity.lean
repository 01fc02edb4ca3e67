import Garant.Interests
/-!
# How long a deal waits before the inactivity sweep closes it

`sweep_inactivity` compares `created_at` with the cutoff for a deal that waits
for the seller, and `cancellation_requested_at` for one that waits for an answer
to a cancellation request. The second is the time the deal took its status. The
first is not when a payment has activated the deal: `inactivity_waits` says
exactly when a sweep closes no deal early.
-/
open Decimal

namespace Garant

/-- An operation, or any transaction that leaves the deals alone: a step of a
withdrawal request, an admin saving the settings. -/
inductive TimelineAct
  | op (op : Op)
  | elsewhere (after : Db)

def TimelineAct.run (db : Db) : TimelineAct → Result Db
  | .op o => o.run db
  | .elsewhere after => pure { after with deals := db.deals }

def TimelineAct.now : TimelineAct → Option Time
  | .op o => o.now
  | .elsewhere _ => none

/-- `since k` is the time at which deal `k` took the status it has, and
`activated k` says that it left `pending_topup` for `pending_confirmation`. -/
structure Timeline where
  db : Db
  since : ℕ → Time
  activated : ℕ → Bool

namespace Timeline

def start (db : Db) : Timeline := ⟨db, fun _ => 0, fun _ => false⟩

def observe (s : Timeline) (now : Time) (db : Db) : Timeline where
  db := db
  since k := if db.status k = s.db.status k then s.since k else now
  activated k := (s.db.status k).isSome &&
    (s.activated k || decide (s.db.status k = some .pending_topup ∧ db.status k = some .pending_confirmation))

def exec (s : Timeline) (a : Time × TimelineAct) : Result Timeline := do
  raiseIf (a.2.now.any (· ≠ a.1)) .no_result
  let db ← a.2.run s.db
  pure (s.observe a.1 db)

/-- What the records of a deal say about the times the sweep looks at. -/
structure Inv (s : Timeline) : Prop where
  created : ∀ k d, s.db.deals.row k = some d → d.status = .pending_confirmation → s.activated k = false →
    s.since k = d.created_at
  requested : ∀ k d, s.db.deals.row k = some d → d.status = .pending_cancellation →
    d.cancellation_requested_at = some (s.since k)

/-- Each deal the step has closed had waited for the whole of its window. -/
structure Waited (s : Timeline) (now : Time) (db' : Db) : Prop where
  confirmation : ∀ k, s.db.status k = some .pending_confirmation → db'.status k ≠ s.db.status k →
    s.since k ≤ now - days s.db.app_settings.inactivity_pending_confirmation_days
  cancellation : ∀ k, s.db.status k = some .pending_cancellation → db'.status k ≠ s.db.status k →
    s.since k ≤ now - days s.db.app_settings.inactivity_pending_cancellation_days

/-- A deal the sweep gets to that is old enough by `created_at` was also activated, if a payment did
that, a whole window ago. -/
def ActivatedEarly (s : Timeline) (picked : List ℕ) (now : Time) : Prop :=
  ∀ k ∈ picked, ∀ d, s.db.deals.row k = some d → (s.db.currencies.row d.currency_id).isSome →
    d.status = .pending_confirmation → s.activated k = true →
    d.created_at ≤ now - days s.db.app_settings.inactivity_pending_confirmation_days →
    s.since k ≤ now - days s.db.app_settings.inactivity_pending_confirmation_days

end Timeline

def TimelineStep (a : Time × TimelineAct) (s t : Timeline) : Prop := s.exec a = .ok t

section
variable {s t : Timeline} {a : Time × TimelineAct} {db db' : Db} {op : Op} {k : ℕ} {d d' : Deal} {now : Time}

theorem timelineStep_iff : TimelineStep a s t ↔
    (∀ now, a.2.now = some now → now = a.1) ∧ ∃ db, a.2.run s.db = .ok db ∧ t = s.observe a.1 db := by
  simp only [TimelineStep, Timeline.exec, bind_ok, raiseIf_ok, pure_ok]
  constructor
  · rintro ⟨_, hn, db, hrun, rfl⟩
    refine ⟨?_, db, hrun, rfl⟩
    intro now hnow
    by_contra hne
    rw [hnow] at hn
    exact hn (by simpa using hne)
  · rintro ⟨hn, db, hrun, rfl⟩
    refine ⟨(), ?_, db, hrun, rfl⟩
    intro hany
    obtain ⟨now, hnow, hne⟩ := (Option.any_eq_true _ _).1 hany
    exact absurd (hn now hnow) (by simpa using hne)

/-! ## Keeping time -/

/-- A step that leaves the status of a deal alone leaves its clock alone. -/
theorem observe_since_kept (h : db'.status k = s.db.status k) : (s.observe now db').since k = s.since k := if_pos h

theorem observe_since_moved (h : db'.status k ≠ s.db.status k) : (s.observe now db').since k = now := if_neg h

/-- Only a payment for a waiting deal leads from a status to `pending_confirmation`. -/
theorem confirms_of (hg : Allows db k d op d'.status) (hs : d'.status = .pending_confirmation) :
    d.status = .pending_topup := by
  generalize hst : d'.status = st at hg
  cases hg with
  | pay _ ht => exact ht
  | resolveArbitration | sweepInactivity | splitDeal =>
    rw [hs] at hst
    split at hst <;> cases hst
  | _ =>
    rw [hs] at hst
    cases hst

/-- The invariant through an operation that reads `now` where it reads the clock. -/
theorem Timeline.Inv.operation (hs : s.Inv) (hnow : ∀ t, op.now = some t → t = now) (h : op.run s.db = .ok db') :
    (s.observe now db').Inv where
  created := by
    intro k d' hd' hst hact
    have hd' : db'.deals.row k = some d' := hd'
    have hst' : db'.status k = some .pending_confirmation := by rw [status_of_row hd', hst]
    rcases entered_of h hd' with ⟨d, hd, hstep, hc⟩ | ⟨hn, hnew, -, hc⟩
    · have hold : s.db.status k = some d.status := status_of_row hd
      simp only [Timeline.observe, hold, Option.isSome_some, Bool.true_and, Bool.or_eq_false_iff] at hact
      obtain ⟨hact, hpaid⟩ := hact
      cases hstep with
      | kept hkept =>
        rw [hst] at hkept
        rw [observe_since_kept (by rw [hst', hold, ← hkept]), hs.created k d hd hkept.symm hact, hc]
      | moved hg =>
        -- activated by this payment, so there is nothing to show
        have htopup := confirms_of hg hst
        rw [htopup] at hpaid
        exact absurd ⟨rfl, hst'⟩ (of_decide_eq_false hpaid)
    · have hold : s.db.status k = none := by rw [Db.status, hn, Option.map_none]
      rw [observe_since_moved (by rw [hst', hold]; rintro ⟨⟩)]
      exact (hnow _ hc).symm
  requested := by
    intro k d' hd' hst
    have hd' : db'.deals.row k = some d' := hd'
    have hst' : db'.status k = some .pending_cancellation := by rw [status_of_row hd', hst]
    rcases entered_of h hd' with ⟨d, hd, hstep, -⟩ | ⟨-, hnew, -⟩
    · have hold : s.db.status k = some d.status := status_of_row hd
      cases hstep with
      | kept hkept _ _ hreq =>
        rw [hst] at hkept
        rw [observe_since_kept (by rw [hst', hold, ← hkept]), hreq]
        exact hs.requested k d hd hkept.symm
      | moved hg =>
        obtain ⟨u, reason, now', rfl, -, hreq⟩ := asks_of h hd' hg hst
        obtain rfl : now' = now := hnow _ rfl
        rw [hreq, observe_since_moved]
        rw [hst', hold]
        intro heq
        generalize d'.status = st at hg
        cases hg with
        | pay hp =>
          obtain ⟨i, dep, hpays, -⟩ := hp
          exact absurd hpays id
        | requestCancel _ hin =>
          rw [hin] at heq
          cases heq
    · rcases hnew.status with hs' | hs' <;> rw [hst] at hs' <;> cases hs'

theorem Timeline.Inv.step (hs : s.Inv) (h : TimelineStep a s t) : t.Inv := by
  obtain ⟨hnow, db, hrun, rfl⟩ := timelineStep_iff.1 h
  obtain ⟨now, act⟩ := a
  cases act with
  | op op => exact hs.operation hnow hrun
  | elsewhere after =>
    cases hrun
    refine ⟨?_, ?_⟩
    · intro k d hd hst hact
      have hold : s.db.status k = some d.status := status_of_row hd
      simp only [Timeline.observe, hold, Option.isSome_some, Bool.true_and, Bool.or_eq_false_iff] at hact
      exact (if_pos rfl).trans (hs.created k d hd hst hact.1)
    · intro k d hd hst
      rw [hs.requested k d hd hst]
      exact congrArg some (if_pos rfl).symm

theorem timeline_inv (h0 : ∀ k, db.deals.row k = none) (h : Reach TimelineStep Free (.start db) s) : s.Inv := by
  refine h.invariant ?_ fun _ _ _ ht _ hstep => ht.step hstep
  refine ⟨?_, ?_⟩
  · intro k d hd
    rw [show (Timeline.start db).db = db from rfl, h0] at hd
    cases hd
  · intro k d hd
    rw [show (Timeline.start db).db = db from rfl, h0] at hd
    cases hd

/-! ## The sweep -/

/-- A sweep closes the rows on its list whose currency is there, and no others. -/
theorem swept_iff {rows : List ℕ} (hn : rows.Nodup) (hr : db.deals.row k = some d)
    (h : rows.foldlM (sweepInactivityDeal now) db = .ok db') :
    if k ∈ rows ∧ (db.currencies.row d.currency_id).isSome then ∃ st, isTerminal st = true ∧ db'.status k = some st
    else db'.deals.row k = db.deals.row k := by
  induction rows generalizing db with
  | nil =>
    rw [List.foldlM_nil] at h
    rw [if_neg (by simp), pure_ok.1 h]
  | cons i rows ih =>
    rw [List.foldlM_cons] at h
    obtain ⟨db₁, h₁, hrest⟩ := bind_ok.1 h
    clear h
    obtain ⟨hi, hn⟩ := List.nodup_cons.1 hn
    simp only [sweepInactivityDeal, getDeal, bind_ok, orRaise_ok] at h₁
    obtain ⟨e, he, h₁⟩ := h₁
    by_cases hki : k = i
    · -- its turn; the rest of the sweep does not touch it
      subst hki
      cases hr.symm.trans he
      split at h₁
      · rename_i hc
        rw [if_neg (by simp [hc]), swept_row hi hrest, pure_ok.1 h₁]
      · rename_i cur hc
        simp only [bind_ok, pure_ok] at h₁
        obtain ⟨amt, -, db₂, hp, rfl⟩ := h₁
        have hdeals : db₂.deals = db.deals := (refundPrincipal_ok hp).frame.1
        rw [if_pos ⟨List.mem_cons_self, by simp [hc]⟩]
        refine ⟨_, ?_, by rw [Db.status, swept_row hi hrest, setDeal_deals hdeals, Table.set_row hr, if_pos rfl,
          Option.map_some]⟩
        simp only
        split <;> rfl
    · have hrow : db₁.deals.row k = db.deals.row k ∧ db₁.currencies = db.currencies := by
        split at h₁
        · rw [pure_ok.1 h₁]
          exact ⟨rfl, rfl⟩
        · simp only [bind_ok, pure_ok] at h₁
          obtain ⟨amt, -, db₂, hp, rfl⟩ := h₁
          obtain ⟨hdeals, -, -, hcur, -⟩ := (refundPrincipal_ok hp).frame
          exact ⟨by rw [setDeal_deals hdeals, Table.set_row_ne hki], hcur⟩
      obtain ⟨hrow, hcur⟩ := hrow
      have hlater := ih hn (by rw [hrow, hr]) hrest
      rw [hrow, hcur] at hlater
      simpa only [List.mem_cons, hki, false_or] using hlater

/-- The deals a sweep closes: those it gets to that are old enough and have a currency. -/
theorem closed_iff {picked : List ℕ} (hd : db.deals.row k = some d) (h : sweepInactivity db picked now = .ok db') :
    db'.status k ≠ db.status k ↔
      k ∈ picked ∧ inactive db.app_settings now d = true ∧ (db.currencies.row d.currency_id).isSome = true := by
  have hswept := swept_iff ((List.nodup_dedup _).filter _) hd h
  simp only [List.mem_filter, List.mem_dedup, hd, Option.any_some, and_assoc] at hswept
  split at hswept
  · rename_i hpicked
    obtain ⟨st, hterm, hst⟩ := hswept
    refine iff_of_true ?_ hpicked
    rw [hst, status_of_row hd]
    rintro ⟨⟩
    rw [active_nonterminal (inactive_active hpicked.2.1)] at hterm
    cases hterm
  · rename_i hpicked
    refine iff_of_false ?_ hpicked
    rw [Db.status, hswept, status_of_row hd]
    exact not_not.2 rfl

/-- A cancellation request is answered late enough in any case; a deal the seller has to confirm is
closed late enough exactly if no payment has activated it within the window. -/
theorem Timeline.Inv.waited_iff {picked : List ℕ} (hs : s.Inv) (h : sweepInactivity s.db picked now = .ok db') :
    s.Waited now db' ↔ s.ActivatedEarly picked now := by
  constructor
  · intro hw k hk d hd hcur hst hact hold
    have hina : inactive s.db.app_settings now d = true := by
      simp only [inactive, decide_eq_true_eq]
      exact .inl ⟨hst, hold⟩
    exact hw.confirmation k (by rw [status_of_row hd, hst]) ((closed_iff hd h).2 ⟨hk, hina, hcur⟩)
  · intro hearly
    refine ⟨?_, ?_⟩
    · intro k hst hne
      obtain ⟨d, hd, hst⟩ := row_of_status hst
      obtain ⟨hk, hina, hcur⟩ := (closed_iff hd h).1 hne
      simp only [inactive, decide_eq_true_eq, hst, true_and, reduceCtorEq, false_and, or_false] at hina
      cases hact : s.activated k with
      | false =>
        rw [hs.created k d hd hst hact]
        exact hina
      | true => exact hearly k hk d hd hcur hst hact hina
    · intro k hst hne
      obtain ⟨d, hd, hst⟩ := row_of_status hst
      obtain ⟨-, hina, -⟩ := (closed_iff hd h).1 hne
      simp only [inactive, decide_eq_true_eq, hst, true_and, reduceCtorEq, false_and, false_or,
        hs.requested k d hd hst, Option.any_some] at hina
      exact hina

/-- In every run, with any settings and any clock, a sweep closes no deal before its window is over
if and only if no payment has activated, within the window, a deal it finds old enough. -/
theorem inactivity_waits {picked : List ℕ} (h0 : ∀ k, db.deals.row k = none)
    (h : Reach TimelineStep Free (.start db) s) (hsweep : TimelineStep (now, .op (.sweepInactivity picked now)) s t) :
    s.Waited now t.db ↔ s.ActivatedEarly picked now := by
  obtain ⟨-, db', hrun, rfl⟩ := timelineStep_iff.1 hsweep
  exact (timeline_inv h0 h).waited_iff hrun

end

/-- A deal of 10.00 is requested at 0, kept waiting by its admin, and paid on the second day. -/
def samplePaidLate : List (Time × TimelineAct) :=
  [(0, .elsewhere { sampleDb 2 ⟨0, money_zero_fits⟩ with
      app_settings := { (sampleDb 2 ⟨0, money_zero_fits⟩).app_settings with pending_topup_expiry_hours := 240 } }),
    (0, .op (.createDealWithTopup 1 2 "USDT" (some 10) "cryptobot" (.invoice "IV1" "https://pay") 0)),
    (days 2, .op (.completeDealTopupPayment 1 (some (21 / 2)) (.error "") (days 2)))]

/-- Three days after the payment the sweep closes the deal in time. -/
theorem samplePaidLate_waits : ∃ s t, Reach TimelineStep Free (.start (sampleDb 2 ⟨0, by decide⟩)) s ∧
    TimelineStep (days 5, .op (.sweepInactivity [1] (days 5))) s t ∧
      t.db.status 1 = some .cancelled_for_inactivity ∧ s.Waited (days 5) t.db := by
  have hrun := Reach.free_of_check (s := Timeline.start (sampleDb 2 ⟨0, by decide⟩))
    (p := fun s => s.since 1 ≤ days 5 - days s.db.app_settings.inactivity_pending_confirmation_days ∧
      (s.exec (days 5, .op (.sweepInactivity [1] (days 5)))).toOption.any fun t =>
        t.db.status 1 = some .cancelled_for_inactivity) Timeline.exec samplePaidLate (by decide +kernel)
  obtain ⟨s, hreach, hsince, hsweep⟩ := hrun
  obtain ⟨t, hstep, hst⟩ := exists_ok hsweep
  refine ⟨s, t, hreach, hstep, hst, ?_⟩
  refine (inactivity_waits (fun _ => rfl) hreach hstep).2 ?_
  intro k hk _ _ _ _ _ _
  rw [List.mem_singleton.1 hk]
  exact hsince

/-- The deal is paid on the second day and closed on the third: the seller had one day of three. -/
theorem activated_deal_swept_early : ∃ s t, Reach TimelineStep Free (.start (sampleDb 2 ⟨0, by decide⟩)) s ∧
    TimelineStep (days 3, .op (.sweepInactivity [1] (days 3))) s t ∧
      s.db.app_settings.inactivity_pending_confirmation_days = 3 ∧ s.db.status 1 = some .pending_confirmation ∧
        s.since 1 = days 2 ∧ t.db.status 1 = some .cancelled_for_inactivity ∧ ¬s.Waited (days 3) t.db := by
  have hrun := Reach.free_of_check (s := Timeline.start (sampleDb 2 ⟨0, by decide⟩))
    (p := fun s => s.db.app_settings.inactivity_pending_confirmation_days = 3 ∧
      s.db.status 1 = some .pending_confirmation ∧ s.since 1 = days 2 ∧
        (s.exec (days 3, .op (.sweepInactivity [1] (days 3)))).toOption.any fun t =>
          t.db.status 1 = some .cancelled_for_inactivity) Timeline.exec samplePaidLate (by decide +kernel)
  obtain ⟨s, hreach, hwindow, hwaits, hsince, hsweep⟩ := hrun
  obtain ⟨t, hstep, hst⟩ := exists_ok hsweep
  refine ⟨s, t, hreach, hstep, hwindow, hwaits, hsince, hst, ?_⟩
  intro hw
  have hle := hw.confirmation 1 hwaits (by rw [hst, hwaits]; nofun)
  rw [hsince, hwindow] at hle
  exact absurd hle (by decide)

end Garant
