import Garant.Sessions
/-!
# Steps of the withdrawal requests

What a step of a request does to the whole system (`Turn`), that every step is
one, with the irregular effects `WithdrawalOp.flaws` names (`turn_of`), and
that every step of the system is a sequence of effects (`exec_effects`).
-/
open Decimal Relation

namespace Garant

/-! ## Steps -/

/-- The withdrawal's row is no longer open. -/
def Closed (db : Db) (i : ℕ) : Prop := ∃ w, db.wallet_withdrawals.row i = some w ∧ w.status.isOpen = false

/-- Taking the amount out of the locked funds leaves the same digits as taking
out the amount its row holds. It does whenever it has at most eight fractional digits. -/
def ReleasesAs (locked : Money) (x : ℚ) : Prop :=
  ∀ a, store x = .ok a → store (max 0 (minus locked.val x)) = store (max 0 (minus locked.val a.val))

theorem releasesAs_of_grid {x : ℚ} (hx : IsGrid 8 x) (locked : Money) : ReleasesAs locked x := by
  intro a ha
  rw [store_grid hx ha]

/-- No transfer for `i` has been executed, and none is under way in a session other than `j`. -/
def Settleable (s : Sys) (j : Option ℕ) (i : ℕ) : Prop :=
  s.executed i = false ∧
    ∀ k x, some k ≠ j → s.sessions.row k = some x → x.subject = i → x.transferring = false

/-- The irregular effects a step of a request can have in a given state. -/
def WithdrawalOp.flaws (s : Sys) : WithdrawalOp → Flaws
  | .create _ u code x _ _ =>
    { Flaws.none with
      coarse := ∃ c cur, getCurrencyByCode s.db code = .ok (c, cur) ∧ ¬LocksAs (s.db.balance u c).locked x }
  | .create_sent j _ _ =>
    { Flaws.none with
      coarse := ∃ i u c x b, s.sessions.row j = some (.creating i u c x b) ∧ ¬ReleasesAs (s.db.balance u c).locked x }
  | .create_failed j _ =>
    { Flaws.none with
      coarse := ∃ i u c x, s.sessions.row j = some (.creating i u c x false) ∧ ¬ReleasesAs (s.db.balance u c).locked x
      blurred := ∃ i u c x, s.sessions.row j = some (.creating i u c x false) ∧ ¬LocksAs (s.db.balance u c).amount x
      stale := ∃ i u c x, s.sessions.row j = some (.creating i u c x false) ∧ Closed s.db i
      overpaid := ∃ i u c x, s.sessions.row j = some (.creating i u c x false) ∧ ¬Settleable s (some j) i }
  | .approve_sent j _ _ =>
    { Flaws.none with stale := ∃ i seen, s.sessions.row j = some (.approving i seen) ∧ Closed s.db i }
  | .reject i _ _ => { Flaws.none with overpaid := ¬Settleable s none i }
  | .sweep_apply j _ =>
    { Flaws.none with
      stale := ∃ i seen m, s.sessions.row j = some (.reconciling i seen m) ∧ Closed s.db i
      overpaid := ∃ i seen, s.sessions.row j = some (.reconciling i seen none) ∧ ¬Settleable s (some j) i
      silent := ∃ i seen m, s.sessions.row j = some (.reconciling i seen m) ∧
        (s.db.balance seen.user_id seen.currency_id).Moves seen.amount.val (sweepCredit seen m) }
  | _ => Flaws.none

/-- The sessions after a step: none is new but for an approval under way. -/
def Kept (s : Sys) (db : Db) (ts : Table Session) : Prop :=
  ∀ k x, ts.row k = some x → s.sessions.row k = some x ∨
    ∃ i w w', x = .approving i w' ∧ s.db.wallet_withdrawals.row i = some w ∧ w.status = .pending ∧
      db.wallet_withdrawals.row i = some w' ∧ w'.status = .approved

/-- What a transaction did for withdrawal `i`. -/
inductive Did (F : Flaws) (s : Sys) (i : ℕ) (ts : Table Session) : Db → Prop
  | nothing : Did F s i ts s.db
  | noted {w w' : WalletWithdrawal} (hr : s.db.wallet_withdrawals.row i = some w) (ht : SameRequest w w')
      (hs : w'.status = w.status) : Did F s i ts (s.db.setWithdrawal i w')
  | approved {w w' : WalletWithdrawal} (hr : s.db.wallet_withdrawals.row i = some w) (ht : SameRequest w w')
      (hs : w.status = .pending) (hs' : w'.status = .approved) : Did F s i ts (s.db.setWithdrawal i w')
  | sent {w : WalletWithdrawal} {x : ℚ} {bal : UserBalance} {db' : Db}
      (h : Settles F.silent s.db i w x 0 .sent bal db') (ho : F.stale ∨ w.status.isOpen = true)
      (hx : store x = .ok w.amount) (hl : F.coarse ∨ ReleasesAs (s.db.balance w.user_id w.currency_id).locked x) :
      Did F s i ts db'
  | refunded {w : WalletWithdrawal} {x : ℚ} {bal : UserBalance} {db' : Db}
      (h : Settles F.silent s.db i w x x .rejected bal db') (ho : F.stale ∨ w.status.isOpen = true)
      (hx : store x = .ok w.amount) (hl : F.coarse ∨ ReleasesAs (s.db.balance w.user_id w.currency_id).locked x)
      (hb : F.blurred ∨ LocksAs (s.db.balance w.user_id w.currency_id).amount x)
      (hf : F.overpaid ∨ (s.executed i = false ∧ ∀ k x, ts.row k = some x → x.subject = i → x.transferring = false)) :
      Did F s i ts db'

/-- What a step of the requests does. -/
inductive Turn (F : Flaws) (s : Sys) : Sys → Prop
  | request {w : WalletWithdrawal} {x : ℚ} {bal : UserBalance} {db : Db} {ts : Table Session}
      (h : Requests s.db x w bal db) (hl : F.coarse ∨ LocksAs (s.db.balance w.user_id w.currency_id).locked x)
      (hts : ts = s.sessions ∨ ∃ b, ts = s.sessions.insert
        (.creating s.db.wallet_withdrawals.next w.user_id w.currency_id x b)) :
      Turn F s { s with db, sessions := ts }
  | transaction {i : ℕ} {db : Db} {ts : Table Session} (h : Did F s i ts db) (hts : Kept s db ts) :
      Turn F s { s.commit i db with sessions := ts }
  | watch {ts : Table Session} (hts : ∀ k x, ts.row k = some x → s.sessions.row k = some x ∨
      (x.transferring = false ∧ x.Ok s.db)) : Turn F s { s with sessions := ts }
  | execute {j : ℕ} {x : Session} (hj : s.sessions.row j = some x) (ht : x.transferring = true) :
      Turn F s { s with executed := fun k => decide (k = x.subject) || s.executed k }

section
variable {F : Flaws} {s t : Sys} {i j : ℕ}

theorem session_ok {x : Session} : s.session j = .ok x ↔ s.sessions.row j = some x := orRaise_ok

theorem kept_erase (s : Sys) (db : Db) (j : ℕ) : Kept s db (s.sessions.erase j) := by
  intro k x hx
  rw [Table.erase_row] at hx
  split at hx
  · cases hx
  · exact .inl hx

theorem kept_same (s : Sys) (db : Db) : Kept s db s.sessions := fun _ _ hx => .inl hx

theorem commit_sessions (s : Sys) (i : ℕ) (db : Db) : (s.commit i db).sessions = s.sessions := by
  unfold Sys.commit
  split <;> rfl

/-- A transaction that ends its session. -/
theorem Turn.closing {db : Db} (h : Did F s i (s.sessions.erase j) db) : Turn F s ((s.commit i db).close j) := by
  have := Turn.transaction h (kept_erase s db j)
  rw [Sys.close, commit_sessions]
  exact this

/-- A transaction that opens and ends no session. -/
theorem Turn.direct {db : Db} (h : Did F s i s.sessions db) : Turn F s (s.commit i db) := by
  have := Turn.transaction h (kept_same s db)
  rw [← commit_sessions s i db] at this
  exact this

theorem Turn.closed (F : Flaws) (s : Sys) (j : ℕ) : Turn F s (s.close j) := by
  refine .watch fun k x hx => ?_
  rw [Table.erase_row] at hx
  split at hx
  · cases hx
  · exact .inl hx

theorem settleable_erase (h : Settleable s (some j) i) :
    s.executed i = false ∧ ∀ k x, (s.sessions.erase j).row k = some x → x.subject = i → x.transferring = false := by
  refine ⟨h.1, fun k x hx hi => ?_⟩
  rw [Table.erase_row] at hx
  split at hx
  · cases hx
  · rename_i hk
    exact h.2 k x (fun he => hk (Option.some.inj he)) hx hi

/-- Every candidate of a sweep is pending. -/
theorem staleWithdrawals_pending {db : Db} (now : Time) (h : i ∈ staleWithdrawals db now) :
    ∃ w, db.wallet_withdrawals.row i = some w ∧ w.status = .pending := by
  unfold staleWithdrawals at h
  extract_lets stale at h
  split at h
  · cases h
  · obtain ⟨w, hw, hp⟩ := Table.mem_ids.1 h
    simp only [decide_eq_true_eq] at hp
    exact ⟨w, hw, hp.1⟩

/-- A sweep opens one session for each candidate, with the row as it is. -/
theorem openSweeps_ok {rows : List ℕ}
    (hrows : ∀ i ∈ rows, ∃ w, s.db.wallet_withdrawals.row i = some w ∧ w.status = .pending) :
    ∃ ts, s.openSweeps rows = { s with sessions := ts } ∧
      ∀ k x, ts.row k = some x → s.sessions.row k = some x ∨ (x.transferring = false ∧ x.Ok s.db) := by
  have key : ∀ (rows : List ℕ) (ts : Table Session),
      (∀ i ∈ rows, ∃ w, s.db.wallet_withdrawals.row i = some w ∧ w.status = .pending) →
      (∀ k x, ts.row k = some x → s.sessions.row k = some x ∨ (x.transferring = false ∧ x.Ok s.db)) →
      ∃ ts', Sys.openSweeps { s with sessions := ts } rows = { s with sessions := ts' } ∧
        ∀ k x, ts'.row k = some x → s.sessions.row k = some x ∨ (x.transferring = false ∧ x.Ok s.db) := by
    intro rows
    induction rows with
    | nil => exact fun ts _ hts => ⟨ts, rfl, hts⟩
    | cons i rows ih =>
      intro ts hr hts
      obtain ⟨w, hw, hp⟩ := hr i List.mem_cons_self
      have hstep : Sys.openSweeps { s with sessions := ts } (i :: rows) =
          Sys.openSweeps { s with sessions := ts.insert (.sweeping i w) } rows := by
        unfold Sys.openSweeps
        rw [List.foldl_cons, hw]
        rfl
      rw [hstep]
      refine ih (ts.insert (.sweeping i w)) (fun k hk => hr k (List.mem_cons_of_mem _ hk)) ?_
      intro k x hx
      rw [Table.insert_row] at hx
      split at hx
      · cases hx
        exact .inr ⟨rfl, hp, w, hw, .refl w⟩
      · exact hts k x hx
  exact key rows s.sessions hrows fun _ _ hx => .inl hx

end

/-! ## Every step is a turn -/

section
variable {s t : Sys} {i j : ℕ} {w : WalletWithdrawal} {x : ℚ} {now : Time}

theorem create_turn {fullmatch : String → String → Bool} {u : ℕ} {code : String} {address : Option String}
    (h : s.withdrawal (.create fullmatch u code x address now) = .ok t) :
    Turn ((WithdrawalOp.create fullmatch u code x address now).flaws s) s t := by
  simp only [Sys.withdrawal, bind_ok, orRaise_ok, pure_ok] at h
  obtain ⟨⟨k, db⟩, hc, w, hw, rfl⟩ := h
  obtain ⟨hk, w', bal, cur, hcur, hu, hreq⟩ := createWithdrawal_ok hc
  have hwr : w' = w := by
    obtain ⟨db₁, -, hdb⟩ := hreq.write
    simp only at hk hdb
    rw [hdb, hk, Table.insert_row, if_pos rfl] at hw
    exact Option.some.inj hw
  subst hwr
  simp only at hk
  subst hk hu
  have hl : ((WithdrawalOp.create fullmatch w'.user_id code x address now).flaws s).coarse ∨
      LocksAs (s.db.balance w'.user_id w'.currency_id).locked x := by
    by_cases hl : LocksAs (s.db.balance w'.user_id w'.currency_id).locked x
    · exact .inr hl
    · exact .inl ⟨_, cur, hcur, hl⟩
  split
  · exact .request hreq hl (.inr ⟨_, rfl⟩)
  · exact .request hreq hl (.inl rfl)

theorem create_sent_turn (hs : SessionsOk s) {tid : String} (h : s.withdrawal (.create_sent j tid now) = .ok t) :
    Turn ((WithdrawalOp.create_sent j tid now).flaws s) s t := by
  simp only [Sys.withdrawal, bind_ok, session_ok] at h
  obtain ⟨se, hj, h⟩ := h
  cases se with
  | creating i u c x b =>
    simp only [bind_ok, pure_ok] at h
    obtain ⟨_, -, db, hdb, rfl⟩ := h
    obtain ⟨hx, w, hw, rfl, rfl, hst⟩ := hs.sessions j _ hj
    rcases createWithdrawalSent_ok hx hdb with rfl | ⟨w', bal, hp, hset⟩
    · exact Turn.closing .nothing
    · obtain rfl : w = w' := Option.some.inj (hw.symm.trans hset.row)
      refine Turn.closing (.sent (hset.mono False.elim) (.inr (by rw [hp]; rfl)) hst ?_)
      by_cases hl : ReleasesAs (s.db.balance w.user_id w.currency_id).locked x
      · exact .inr hl
      · exact .inl ⟨i, _, _, x, b, hj, hl⟩
  | approving _ _ | sweeping _ _ | reconciling _ _ _ => cases throw_ok.1 h

theorem create_failed_turn (hs : SessionsOk s) (h : s.withdrawal (.create_failed j now) = .ok t) :
    Turn ((WithdrawalOp.create_failed j now).flaws s) s t := by
  simp only [Sys.withdrawal, bind_ok, session_ok] at h
  obtain ⟨se, hj, h⟩ := h
  cases se with
  | creating i u c x b =>
    cases b with
    | true =>
      simp only [if_true, pure_ok] at h
      rw [← h]
      exact Turn.closed _ s j
    | false =>
      simp only [Bool.false_eq_true, if_false, bind_ok, pure_ok] at h
      obtain ⟨db, hdb, rfl⟩ := h
      obtain ⟨hx, w, hw, rfl, rfl, hst⟩ := hs.sessions j _ hj
      have hrow : ∀ w', s.db.wallet_withdrawals.row i = some w' →
          w'.user_id = w.user_id ∧ w'.currency_id = w.currency_id := by
        intro w' hw'
        obtain rfl : w = w' := Option.some.inj (hw.symm.trans hw')
        exact ⟨rfl, rfl⟩
      rcases createWithdrawalAutoFailed_ok hrow hdb with rfl | ⟨w', bal, hset⟩
      · exact Turn.closing .nothing
      · obtain rfl : w = w' := Option.some.inj (hw.symm.trans hset.row)
        refine Turn.closing (.refunded (hset.mono False.elim) ?_ hst ?_ ?_ ?_)
        · by_cases ho : w.status.isOpen = true
          · exact .inr ho
          · exact .inl ⟨i, _, _, x, hj, w, hw, by simpa using ho⟩
        · by_cases hl : ReleasesAs (s.db.balance w.user_id w.currency_id).locked x
          · exact .inr hl
          · exact .inl ⟨i, _, _, x, hj, hl⟩
        · by_cases hl : LocksAs (s.db.balance w.user_id w.currency_id).amount x
          · exact .inr hl
          · exact .inl ⟨i, _, _, x, hj, hl⟩
        · by_cases hf : Settleable s (some j) i
          · exact .inr (settleable_erase hf)
          · exact .inl ⟨i, _, _, x, hj, hf⟩
  | approving _ _ | sweeping _ _ | reconciling _ _ _ => cases throw_ok.1 h

theorem approve_turn {note : Option String} (h : s.withdrawal (.approve i note) = .ok t) :
    Turn ((WithdrawalOp.approve i note).flaws s) s t := by
  simp only [Sys.withdrawal, bind_ok, orRaise_ok, pure_ok] at h
  obtain ⟨db, hdb, w₁, hw₁, rfl⟩ := h
  obtain ⟨w, w', rfl, hr, hp, ht, ha⟩ := decideApprove_ok hdb
  have hw : w' = w₁ := by
    rw [Db.setWithdrawal, Table.set_row hr, if_pos rfl] at hw₁
    exact Option.some.inj hw₁
  subst hw
  have hd {ts : Table Session} : Did ((WithdrawalOp.approve i note).flaws s) s i ts (s.db.setWithdrawal i w') :=
    .approved hr ht hp ha
  split
  · rw [Sys.opened, commit_sessions]
    refine .transaction hd ?_
    intro k x hx
    rw [Table.insert_row] at hx
    split at hx
    · cases hx
      exact .inr ⟨i, w, w', rfl, hr, hp, hw₁, ha⟩
    · exact .inl hx
  · exact Turn.direct hd

theorem approve_sent_turn (hs : SessionsOk s) {tid : String} (h : s.withdrawal (.approve_sent j tid now) = .ok t) :
    Turn ((WithdrawalOp.approve_sent j tid now).flaws s) s t := by
  simp only [Sys.withdrawal, bind_ok, session_ok] at h
  obtain ⟨se, hj, h⟩ := h
  cases se with
  | approving i seen =>
    simp only [bind_ok, pure_ok] at h
    obtain ⟨_, -, db, hdb, rfl⟩ := h
    have hok := hs.sessions j _ hj
    obtain ⟨hseen, w, hw, hreq⟩ := hok
    have hx : 0 ≤ seen.amount.val := by
      rw [hreq.2.2]
      exact hs.amounts i w hw
    obtain ⟨w', bal, hset⟩ := decideApproveSent_ok hseen (fun _ => Session.Ok.row (hs.sessions j _ hj)) hx hdb
    refine Turn.closing (.sent (hset.mono False.elim) ?_ (store_val _) (.inr (releasesAs_of_grid (Numeric.isGrid _) _)))
    by_cases ho : w'.status.isOpen = true
    · exact .inr ho
    · exact .inl ⟨i, seen, hj, w', hset.row, by simpa using ho⟩
  | creating _ _ _ _ _ | sweeping _ _ | reconciling _ _ _ => cases throw_ok.1 h

theorem approve_failed_turn {err : String} (h : s.withdrawal (.approve_failed j err) = .ok t) :
    Turn ((WithdrawalOp.approve_failed j err).flaws s) s t := by
  simp only [Sys.withdrawal, bind_ok, session_ok] at h
  obtain ⟨se, hj, h⟩ := h
  cases se with
  | approving i seen =>
    simp only [bind_ok, pure_ok] at h
    obtain ⟨db, hdb, rfl⟩ := h
    rcases decideApproveFailed_ok hdb with rfl | ⟨w, w', rfl, hr, ht, hst⟩
    · exact Turn.closing .nothing
    · exact Turn.closing (.noted hr ht hst)
  | creating _ _ _ _ _ | sweeping _ _ | reconciling _ _ _ => cases throw_ok.1 h

theorem reject_turn (hs : SessionsOk s) {note : Option String} (h : s.withdrawal (.reject i note now) = .ok t) :
    Turn ((WithdrawalOp.reject i note now).flaws s) s t := by
  simp only [Sys.withdrawal, bind_ok, pure_ok] at h
  obtain ⟨db, hdb, rfl⟩ := h
  obtain ⟨w, bal, ho, hset⟩ := decideReject_ok (hs.amounts i) hdb
  refine Turn.direct (.refunded (hset.mono False.elim) (.inr ho) (store_val _)
    (.inr (releasesAs_of_grid (Numeric.isGrid _) _)) (.inr (locksAs_of_grid (Numeric.isGrid _) _)) ?_)
  by_cases hf : Settleable s none i
  · exact .inr ⟨hf.1, fun k x => hf.2 k x (by simp)⟩
  · exact .inl hf

theorem mark_sent_turn (hs : SessionsOk s) {note : Option String} (h : s.withdrawal (.mark_sent i note now) = .ok t) :
    Turn ((WithdrawalOp.mark_sent i note now).flaws s) s t := by
  simp only [Sys.withdrawal, bind_ok, pure_ok] at h
  obtain ⟨db, hdb, rfl⟩ := h
  obtain ⟨w, bal, ho, hset⟩ := decideMarkSent_ok (hs.amounts i) hdb
  exact Turn.direct (.sent (hset.mono False.elim) (.inr ho) (store_val _)
    (.inr (releasesAs_of_grid (Numeric.isGrid _) _)))

theorem sweep_query_turn (hs : SessionsOk s) {tid : String} (h : s.withdrawal (.sweep_query j tid) = .ok t) :
    Turn ((WithdrawalOp.sweep_query j tid).flaws s) s t := by
  simp only [Sys.withdrawal, bind_ok, session_ok] at h
  obtain ⟨se, hj, h⟩ := h
  cases se with
  | sweeping i seen =>
    have hok := hs.sessions j _ hj
    rw [← pure_ok.1 h]
    refine .watch fun k x hx => ?_
    rw [Table.set_row hj] at hx
    split at hx
    · cases hx
      exact .inr ⟨rfl, hok⟩
    · exact .inl hx
  | creating _ _ _ _ _ | approving _ _ | reconciling _ _ _ => cases throw_ok.1 h

theorem sweep_error_turn (h : s.withdrawal (.sweep_error j) = .ok t) :
    Turn ((WithdrawalOp.sweep_error j).flaws s) s t := by
  simp only [Sys.withdrawal, bind_ok, session_ok] at h
  obtain ⟨se, hj, h⟩ := h
  cases se with
  | sweeping i seen =>
    rw [← pure_ok.1 h]
    exact Turn.closed _ s j
  | creating _ _ _ _ _ | approving _ _ | reconciling _ _ _ => cases throw_ok.1 h

theorem sweep_apply_turn (hs : SessionsOk s) (h : s.withdrawal (.sweep_apply j now) = .ok t) :
    Turn ((WithdrawalOp.sweep_apply j now).flaws s) s t := by
  simp only [Sys.withdrawal, bind_ok, session_ok] at h
  obtain ⟨se, hj, h⟩ := h
  cases se with
  | reconciling i seen m =>
    simp only [bind_ok, pure_ok] at h
    obtain ⟨db, hdb, rfl⟩ := h
    rcases sweepStaleWithdrawal_ok (hs.sessions j _ hj).1 (fun _ => Session.Ok.row (hs.sessions j _ hj)) hdb with
      rfl | ⟨w, bal, hset⟩
    · exact Turn.closing .nothing
    have hsil := fun hm => (⟨i, seen, m, hj, hm⟩ : ((WithdrawalOp.sweep_apply j now).flaws s).silent)
    have ho : ((WithdrawalOp.sweep_apply j now).flaws s).stale ∨ w.status.isOpen = true := by
      by_cases ho : w.status.isOpen = true
      · exact .inr ho
      · exact .inl ⟨i, seen, m, hj, w, hset.row, by simpa using ho⟩
    have ha : seen.amount = w.amount := (Session.Ok.row (hs.sessions j _ hj) hset.row).2.2
    cases m with
    | some tid =>
      simp only [sweepCredit, Option.isSome_some, if_true] at hset
      exact Turn.closing (.sent (hset.mono hsil) ho (store_val _) (.inr (releasesAs_of_grid (Numeric.isGrid _) _)))
    | none =>
      simp only [sweepCredit, Option.isSome_none, Bool.false_eq_true, if_false, ha] at hset
      refine Turn.closing (.refunded (hset.mono fun hm => hsil ?_) ho (store_val _)
        (.inr (releasesAs_of_grid (Numeric.isGrid _) _)) (.inr (locksAs_of_grid (Numeric.isGrid _) _)) ?_)
      · simpa [sweepCredit, ha] using hm
      · by_cases hf : Settleable s (some j) i
        · exact .inr (settleable_erase hf)
        · exact .inl ⟨i, seen, hj, hf⟩
  | creating _ _ _ _ _ | approving _ _ | sweeping _ _ => cases throw_ok.1 h

theorem execute_turn (h : s.withdrawal (.execute j) = .ok t) : Turn ((WithdrawalOp.execute j).flaws s) s t := by
  simp only [Sys.withdrawal, bind_ok, session_ok] at h
  obtain ⟨se, hj, h⟩ := h
  cases se with
  | creating i u c x b =>
    rw [← pure_ok.1 h]
    exact .execute hj rfl
  | approving i seen =>
    rw [← pure_ok.1 h]
    exact .execute hj rfl
  | sweeping _ _ | reconciling _ _ _ => cases throw_ok.1 h

/-- Every step of a request is a turn, with the irregular effects `WithdrawalOp.flaws` names. -/
theorem turn_of {op : WithdrawalOp} (hs : SessionsOk s) (h : s.withdrawal op = .ok t) : Turn (op.flaws s) s t := by
  cases op with
  | create fullmatch u code x address now => exact create_turn h
  | create_sent j tid now => exact create_sent_turn hs h
  | create_failed j now => exact create_failed_turn hs h
  | approve i note => exact approve_turn h
  | approve_sent j tid now => exact approve_sent_turn hs h
  | approve_failed j err => exact approve_failed_turn h
  | reject i note now => exact reject_turn hs h
  | mark_sent i note now => exact mark_sent_turn hs h
  | sweep_select now =>
    obtain ⟨ts, hts, hk⟩ := openSweeps_ok fun _ => staleWithdrawals_pending now
    rw [← pure_ok.1 h, hts]
    exact .watch hk
  | sweep_query j tid => exact sweep_query_turn hs h
  | sweep_error j => exact sweep_error_turn h
  | sweep_apply j now => exact sweep_apply_turn hs h
  | execute j => exact execute_turn h

end

/-! ## Turns as effects -/

section
variable {F : Flaws} {db db' : Db} {s t : Sys} {i : ℕ}

theorem Settles.effect {w : WalletWithdrawal} {x y : ℚ} {st : WalletWithdrawStatus} {bal : UserBalance}
    (h : Settles F.silent db i w x y st bal db') (hst : st.isOpen = false) (ho : F.stale ∨ w.status.isOpen = true)
    (hx : store x = .ok w.amount) (hl : F.coarse ∨ ReleasesAs (db.balance w.user_id w.currency_id).locked x) :
    Effect F db db' := by
  obtain ⟨w', db₁, rfl, hm, ht, rfl⟩ := h.write
  refine .paidOut hm rfl h.row ht hst ho (hl.imp_right fun hl => ?_)
  rw [← hl _ hx]
  exact h.locked

theorem Did.effects {ts : Table Session} (h : Did F s i ts db') : Effects F s.db db' := by
  cases h with
  | nothing => exact .refl
  | noted hr ht hs => exact Effect.effects (.annotated hr rfl ht (by rw [hs]))
  | approved hr ht hs hs' => exact Effect.effects (.annotated hr rfl ht (by rw [hs, hs']; rfl))
  | sent h ho hx hl => exact (h.effect rfl ho hx hl).effects
  | refunded h ho hx hl => exact (h.effect rfl ho hx hl).effects

theorem Requests.effect {x : ℚ} {w : WalletWithdrawal} {bal : UserBalance} (h : Requests db x w bal db')
    (hl : F.coarse ∨ LocksAs (db.balance w.user_id w.currency_id).locked x) : Effect F db db' := by
  obtain ⟨db₁, hm, rfl⟩ := h.write
  refine .requested hm rfl rfl hm.deals hm.currencies rfl (by rw [h.status]; rfl) (store_nonneg h.positive.le h.stored) ?_
  exact hl.imp_right fun hl => locked_backs hl h.stored h.locked

theorem commit_db (s : Sys) (i : ℕ) (db : Db) : (s.commit i db).db = db := by
  unfold Sys.commit
  split <;> rfl

theorem commit_executed (s : Sys) (i : ℕ) (db : Db) : (s.commit i db).executed = s.executed := by
  unfold Sys.commit
  split <;> rfl

theorem Turn.effects (h : Turn F s t) : Effects F s.db t.db := by
  cases h with
  | request h hl => exact (h.effect hl).effects
  | transaction h =>
    simp only [commit_db]
    exact h.effects
  | watch => exact .refl
  | execute => exact .refl

/-- What an effect can do to the withdrawals: nothing, one more, or another row for the same request. -/
theorem Effect.withdrawals (h : Effect F db db') :
    db'.wallet_withdrawals = db.wallet_withdrawals ∨
      (∃ w, 0 ≤ w.amount.val ∧ db'.wallet_withdrawals = db.wallet_withdrawals.insert w) ∨
      ∃ i w w', db.wallet_withdrawals.row i = some w ∧ SameRequest w w' ∧
        db'.wallet_withdrawals = db.wallet_withdrawals.set i w' := by
  cases h with
  | idle h => exact .inl h.withdrawals
  | credit h => exact .inl h.withdrawals
  | opened h h' => exact .inl (h'.withdrawals.trans h.withdrawals)
  | waiting h => exact .inl h.withdrawals
  | relabel h => exact .inl h.withdrawals
  | activated h h' => exact .inl (h'.withdrawals.trans h.withdrawals)
  | settled h =>
    obtain ⟨amt, db₁, -, hp, hs⟩ := h.paid
    exact .inl (hs.withdrawals.trans hp.frame.2.2.1)
  | removed h => exact .inl h.withdrawals
  | removedActive h h' => exact .inl (h'.withdrawals.trans h.withdrawals)
  | requested h _ _ _ _ hw _ hn => exact .inr (.inl ⟨_, hn, hw⟩)
  | annotated hr h ht =>
    subst h
    exact .inr (.inr ⟨_, _, _, hr, ht, rfl⟩)
  | paidOut h h' hr ht =>
    subst h'
    refine .inr (.inr ⟨_, _, _, hr, ht, ?_⟩)
    simp only [Db.setWithdrawal, h.withdrawals]

/-- Nothing changes a currency. -/
theorem Effect.currencies (h : Effect F db db') : db'.currencies = db.currencies := by
  cases h with
  | idle h => exact h.currencies
  | credit h => exact h.currencies
  | opened h h' => exact h'.currencies.trans h.currencies
  | waiting h => exact h.currencies
  | relabel h => exact h.currencies
  | activated h h' => exact h'.currencies.trans h.currencies
  | settled h =>
    obtain ⟨amt, db₁, -, hp, hs⟩ := h.paid
    exact hs.currencies.trans hp.frame.2.2.2.1
  | removed h => exact h.currencies
  | removedActive h h' => exact h'.currencies.trans h.currencies
  | requested _ _ _ _ hc => exact hc
  | annotated _ h =>
    subst h
    rfl
  | paidOut h h' =>
    subst h'
    exact h.currencies

/-- Withdrawals are never deleted, and keep the request they hold. -/
theorem Effect.persist (h : Effect F db db') : Persist db db' := by
  intro j v hv
  rcases h.withdrawals with he | ⟨w, -, he⟩ | ⟨i, w, w', hr, ht, he⟩ <;> rw [he]
  · exact ⟨v, hv, .refl v⟩
  · rw [Table.insert_row, if_neg (Table.lt_next hv).ne]
    exact ⟨v, hv, .refl v⟩
  · rw [Table.set_row hr]
    split
    · subst j
      cases hr.symm.trans hv
      exact ⟨w', rfl, ht⟩
    · exact ⟨v, hv, .refl v⟩

/-- No withdrawal is for a negative amount. -/
def AmountsOk (db : Db) : Prop := ∀ i w, db.wallet_withdrawals.row i = some w → 0 ≤ w.amount.val

theorem Effect.amounts (h : Effect F db db') (ha : AmountsOk db) : AmountsOk db' := by
  intro j v hv
  rcases h.withdrawals with he | ⟨w, hn, he⟩ | ⟨i, w, w', hr, ht, he⟩ <;> rw [he] at hv
  · exact ha j v hv
  · rw [Table.insert_row] at hv
    split at hv
    · cases hv
      exact hn
    · exact ha j v hv
  · rw [Table.set_row hr] at hv
    split at hv
    · cases hv
      rw [ht.2.2]
      exact ha i w hr
    · exact ha j v hv

theorem Effects.persist (h : Effects F db db') : Persist db db' := by
  induction h with
  | refl => exact .of_eq rfl
  | tail _ h ih =>
    intro i w hw
    obtain ⟨w₁, hw₁, h₁⟩ := ih i w hw
    obtain ⟨w₂, hw₂, h₂⟩ := h.persist i w₁ hw₁
    exact ⟨w₂, hw₂, h₁.trans h₂⟩

theorem Effects.amounts (h : Effects F db db') (ha : AmountsOk db) : AmountsOk db' := by
  induction h with
  | refl => exact ha
  | tail _ h ih => exact h.amounts ih

theorem Effects.currencies (h : Effects F db db') : db'.currencies = db.currencies := by
  induction h with
  | refl => rfl
  | tail _ h ih => exact h.currencies.trans ih

/-! ## Steps of the system -/

def Action.flaws (s : Sys) : Action → Flaws
  | .op o => o.flaws s.db
  | .withdrawal o => o.flaws s

/-- The sessions after a turn still fit their rows. -/
theorem Turn.sessionsOk (h : Turn F s t) (hs : SessionsOk s) : SessionsOk t := by
  have hp : Persist s.db t.db := h.effects.persist
  refine ⟨?_, h.effects.amounts hs.amounts⟩
  intro j x hj
  cases h with
  | @request w x₀ bal db ts hreq hl hts =>
    rcases hts with rfl | ⟨b, rfl⟩
    · exact (hs.sessions j x hj).persist hp
    · rw [Table.insert_row] at hj
      split at hj
      · cases hj
        obtain ⟨db₁, -, rfl⟩ := hreq.write
        refine ⟨hreq.positive.le, w, ?_, rfl, rfl, hreq.stored⟩
        simp
      · exact (hs.sessions j x hj).persist hp
  | transaction hd hts =>
    rcases hts j x hj with hj | ⟨i, w, w', rfl, hr, -, hr', ha⟩
    · exact (hs.sessions j x hj).persist hp
    · simp only [commit_db]
      exact ⟨ha, w', hr', .refl w'⟩
  | watch hts =>
    rcases hts j x hj with hj | ⟨-, hok⟩
    · exact hs.sessions j x hj
    · exact hok
  | execute => exact hs.sessions j x hj

theorem start_sessionsOk {db : Db} (h : AmountsOk db) : SessionsOk (Sys.start db) := by
  refine ⟨?_, h⟩
  intro j x hj
  cases hj

/-- Every step of the system is a sequence of effects. -/
theorem exec_effects {a : Action} (hs : SessionsOk s) (h : s.exec a = .ok t) : Effects (a.flaws s) s.db t.db := by
  cases a with
  | op op =>
    obtain ⟨db, hdb, ht⟩ := bind_ok.1 h
    rw [← pure_ok.1 ht]
    exact effects_of hdb
  | withdrawal op => exact (turn_of hs h).effects

theorem exec_sessionsOk {a : Action} (hs : SessionsOk s) (h : s.exec a = .ok t) : SessionsOk t := by
  cases a with
  | op op =>
    obtain ⟨db, hdb, ht⟩ := bind_ok.1 h
    rw [← pure_ok.1 ht]
    have he := effects_of hdb
    exact ⟨fun j x hj => (hs.sessions j x hj).persist he.persist, he.amounts hs.amounts⟩
  | withdrawal op => exact (turn_of hs h).sessionsOk hs

end

end Garant
