import Garant.Lib.Transactions
import Garant.System
/-!
# No lock during a call to CryptoBot

The three requests that call CryptoBot, statement by statement, with the rows of
`wallet_withdrawals` and `user_balances` they lock. `create_withdrawal` and
`decide_withdrawal` commit before their call. `sweep_stale_withdrawals` commits
once, after its loop, so from the first row it has settled on it calls with
locks held (`sweep_calls_with_locks`). `calls_hold_no_lock`: no call is made with
a lock held in any run in which a sweep locks no row but that of its last
candidate.
-/
open Transactions

namespace Garant

/-- A row these requests lock. -/
inductive WithdrawalLock
  | withdrawal (id : ℕ)
  | balance (user_id currency_id : ℕ)
deriving DecidableEq

/-- The database after a transaction, or as it was if it was rolled back. -/
def orRolledBack (tx : Db → Result Db) (db : Db) : Db := (tx db).toOption.getD db

/-- A call of `create_withdrawal`. `transfer` is CryptoBot's answer, if it is not an error. -/
structure CreateCall where
  fullmatch : String → String → Bool
  user_id : ℕ
  currency_code : String
  amount : ℚ
  address : Option String
  transfer : Option String
  now : Time

/-- A call of `decide_withdrawal` that approves; `transfer` is an answer or an error. -/
structure ApproveCall where
  withdrawal_id : ℕ
  note : Option String
  transfer : Except String String
  now : Time

/-- A run of `sweep_stale_withdrawals`. `transfers` is what CryptoBot answers
for each withdrawal: an error, or the completed transfer if there is one. -/
structure SweepCall where
  transfers : ℕ → Option (Option String)
  now : Time

/-- Where a request is. -/
inductive CallPc
  | create (c : CreateCall)
  | createLock (c : CreateCall) (currency_id : ℕ)
  | createCommit (c : CreateCall) (currency_id : ℕ)
  /-- In the call. -/
  | createCall (c : CreateCall) (currency_id withdrawal_id : ℕ)
  | approve (c : ApproveCall)
  | approveCommit (c : ApproveCall)
  /-- In the call. -/
  | approveCall (c : ApproveCall) (seen : WalletWithdrawal)
  /-- Locks the rows and commits: what follows a transfer call. -/
  | settle (rows : List WithdrawalLock) (tx : Db → Result Db)
  | sweep (c : SweepCall)
  /-- The loop over the candidates; in the call for the first of them, if there
  is one left. `write` is what the session has flushed so far. -/
  | sweepCall (c : SweepCall) (todo : List (ℕ × WalletWithdrawal)) (write : Db → Db)
  | sweepRow (c : SweepCall) (i : ℕ) (seen : WalletWithdrawal) (matched : Option String)
      (todo : List (ℕ × WalletWithdrawal)) (write : Db → Db)
  | sweepBalance (c : SweepCall) (i : ℕ) (seen : WalletWithdrawal) (matched : Option String)
      (todo : List (ℕ × WalletWithdrawal)) (write : Db → Db)
  | finished

/-- The next statement. -/
def CallPc.move : CallPc → Move Db WithdrawalLock CallPc
  | .create c => .read fun db => match getCurrencyByCode db c.currency_code with
    | .error _ => .finished
    | .ok (currency_id, _) => .createLock c currency_id
  | .createLock c currency_id => .lock (.balance c.user_id currency_id) (.createCommit c currency_id)
  | .createCommit c currency_id => .commit
      (orRolledBack fun db => (·.2) <$> createWithdrawal db c.fullmatch c.user_id c.currency_code c.amount c.address c.now)
      fun db => match createWithdrawal db c.fullmatch c.user_id c.currency_code c.amount c.address c.now with
        | .error _ => .finished
        | .ok (i, _) => if db.autoWithdraw then .createCall c currency_id i else .finished
  | .createCall c currency_id i => .read fun db => match c.transfer with
    | some transfer_id => .settle [.withdrawal i, .balance c.user_id currency_id]
        fun db => createWithdrawalSent db i c.amount transfer_id c.now
    | none =>
      if db.adminExists then .finished
      else .settle [.withdrawal i, .balance c.user_id currency_id]
        fun db => createWithdrawalAutoFailed db i c.user_id currency_id c.amount c.now
  | .approve c => .lock (.withdrawal c.withdrawal_id) (.approveCommit c)
  | .approveCommit c => .commit (orRolledBack fun db => decideApprove db c.withdrawal_id c.note)
      fun db => match decideApprove db c.withdrawal_id c.note, db.wallet_withdrawals.row c.withdrawal_id with
        | .ok _, some w =>
          if isCryptopayConfigured db.settings then
            .approveCall c { w with status := .approved, admin_note := c.note.getD "" }
          else .finished
        | _, _ => .finished
  | .approveCall c seen => .read fun _ => match c.transfer with
    | .ok transfer_id => .settle [.withdrawal c.withdrawal_id, .balance seen.user_id seen.currency_id]
        fun db => decideApproveSent db c.withdrawal_id seen transfer_id c.now
    | .error err => .settle [.withdrawal c.withdrawal_id] fun db => decideApproveFailed db c.withdrawal_id err
  | .settle (r :: rows) tx => .lock r (.settle rows tx)
  | .settle [] tx => .commit (orRolledBack tx) fun _ => .finished
  | .sweep c => .read fun db => .sweepCall c
      ((staleWithdrawals db c.now).filterMap fun i => (db.wallet_withdrawals.row i).map fun w => (i, w)) id
  | .sweepCall c ((i, seen) :: todo) write => .read fun db => match c.transfers i with
    -- `get_transfers` failed, or the row is gone: on to the next
    | none => .sweepCall c todo write
    | some matched =>
      if (db.wallet_withdrawals.row i).isNone then .sweepCall c todo write else .sweepRow c i seen matched todo write
  | .sweepRow c i seen matched todo write => .lock (.withdrawal i)
      (if seen.status ≠ .pending then .sweepCall c todo write else .sweepBalance c i seen matched todo write)
  | .sweepBalance c i seen matched todo write => .lock (.balance seen.user_id seen.currency_id)
      (.sweepCall c todo fun db => orRolledBack (fun db => sweepStaleWithdrawal db i seen matched c.now) (write db))
  | .sweepCall _ [] write => .commit write fun _ => .finished
  | .finished => .done

inductive CallOp
  | create (c : CreateCall)
  | approve (c : ApproveCall)
  | sweep (c : SweepCall)

def CallOp.entry : CallOp → CallPc
  | .create c => .create c
  | .approve c => .approve c
  | .sweep c => .sweep c

/-- The request is in a `transfer` or `get_transfers` call. -/
def CallPc.inCall : CallPc → Prop
  | .createCall .. | .approveCall .. | .sweepCall _ (_ :: _) _ => True
  | _ => False

abbrev CallSys := Transactions.Sys Db WithdrawalLock CallPc

/-- The requests, among other requests that change the database as they like. -/
def CallStep : Event CallOp → CallSys → CallSys → Prop := Transactions.Step CallPc.move CallOp.entry fun _ _ => True

/-- A sweep locks the row of a candidate only if none is left after it. -/
def LastOnly : Event CallOp → CallSys → Prop
  | .move i, s => ∀ x c k seen matched todo write, s.sessions.row i = some x →
      x.pc = .sweepRow c k seen matched todo write → todo = []
  | _, _ => True

/-- What a session has locked: nothing until its first lock and in a call; a
sweep nothing as long as a candidate is left. -/
def CallPc.Unlocked (held : List WithdrawalLock) : CallPc → Prop
  | .createCommit .. | .approveCommit .. | .settle .. | .finished | .sweepCall _ [] _ => True
  | .sweepBalance _ _ _ _ todo _ => todo = []
  | _ => held = []

theorem CallPc.Unlocked.of_call {pc : CallPc} {held : List WithdrawalLock} (h : pc.Unlocked held) (hc : pc.inCall) :
    held = [] := by
  cases pc with
  | createCall | approveCall => exact h
  | sweepCall c todo write =>
    cases todo with
    | nil => exact hc.elim
    | cons => exact h
  | _ => exact hc.elim

theorem CallPc.unlocked_nil {c : SweepCall} {todo : List (ℕ × WalletWithdrawal)} {write : Db → Db} :
    (CallPc.sweepCall c todo write).Unlocked [] := by
  cases todo with
  | nil => trivial
  | cons => rfl

theorem CallPc.unlocked_move {s : CallSys} {i : ℕ} {x y : Transactions.Session WithdrawalLock CallPc} {u : Db}
    (h : Moves CallPc.move s i x y u) (hx : x.pc.Unlocked x.held)
    (hok : ∀ c k seen matched todo write, x.pc = .sweepRow c k seen matched todo write → todo = []) :
    y.pc.Unlocked y.held := by
  obtain ⟨pc, held⟩ := x
  cases pc with
  | create c =>
    obtain ⟨rfl, rfl⟩ := h.of_read rfl
    simp only
    split
    · trivial
    · exact hx
  | createLock c currency_id =>
    obtain ⟨rfl, rfl⟩ := h.of_lock rfl
    trivial
  | createCommit c currency_id =>
    obtain ⟨rfl, rfl⟩ := h.of_commit rfl
    simp only
    split
    · trivial
    · split
      · exact rfl
      · trivial
  | createCall c currency_id k =>
    obtain ⟨rfl, rfl⟩ := h.of_read rfl
    simp only
    split
    · trivial
    · split <;> trivial
  | approve c =>
    obtain ⟨rfl, rfl⟩ := h.of_lock rfl
    trivial
  | approveCommit c =>
    obtain ⟨rfl, rfl⟩ := h.of_commit rfl
    simp only
    split
    · split
      · exact rfl
      · trivial
    · trivial
  | approveCall c seen =>
    obtain ⟨rfl, rfl⟩ := h.of_read rfl
    simp only
    split <;> trivial
  | settle rows tx =>
    cases rows with
    | cons r rows =>
      obtain ⟨rfl, rfl⟩ := h.of_lock rfl
      trivial
    | nil =>
      obtain ⟨rfl, rfl⟩ := h.of_commit rfl
      trivial
  | sweep c =>
    obtain ⟨rfl, rfl⟩ := h.of_read rfl
    obtain rfl : held = [] := hx
    exact unlocked_nil
  | sweepCall c todo write =>
    cases todo with
    | nil =>
      obtain ⟨rfl, rfl⟩ := h.of_commit rfl
      trivial
    | cons p todo =>
      obtain ⟨rfl, rfl⟩ := h.of_read rfl
      obtain rfl : held = [] := hx
      simp only
      split
      · exact unlocked_nil
      · split
        · exact unlocked_nil
        · exact rfl
  | sweepRow c k seen matched todo write =>
    obtain ⟨rfl, rfl⟩ := h.of_lock rfl
    obtain rfl := hok c k seen matched todo write rfl
    simp only
    split <;> trivial
  | sweepBalance c k seen matched todo write =>
    obtain ⟨rfl, rfl⟩ := h.of_lock rfl
    obtain rfl : todo = [] := hx
    trivial
  | finished => exact (h.of_done rfl).elim

/-- No call to CryptoBot is made with a row of `wallet_withdrawals` or
`user_balances` locked, in any run in which the sweeps lock no row but that of
their last candidate. -/
theorem calls_hold_no_lock {start : Db} {t : CallSys} (h : Reach CallStep LastOnly (.idle start) t) {i : ℕ}
    {x : Transactions.Session WithdrawalLock CallPc} (hx : t.sessions.row i = some x) (hc : x.pc.inCall) : x.held = [] := by
  refine CallPc.Unlocked.of_call ?_ hc
  refine (outline (I := fun _ => True) (L := fun _ _ x => x.pc.Unlocked x.held) h trivial ?_ ?_ ?_).2 i x hx
  · intro op s i _
    cases op <;> exact rfl
  · intro s i x y u _ hL hok hx hm
    refine ⟨trivial, CallPc.unlocked_move hm (hL i x hx) ?_, fun j z _ hj => hL j z hj⟩
    exact fun c k seen matched todo write hpc => hok x c k seen matched todo write hx hpc
  · exact fun s u _ _ _ => ⟨trivial, fun _ _ _ hz => hz⟩

/-! ## Two stale withdrawals -/

/-- A pending withdrawal of user 1. -/
def samplePending : WalletWithdrawal where
  user_id := 1
  currency_id := 1
  amount := ⟨1000000000, by decide⟩
  address := none
  status := .pending
  admin_note := ""
  created_at := 0
  processed_at := none

/-- Two of them, ten minutes old. -/
def samplePendingDb : Db :=
  { sampleDb 2 ⟨0, money_zero_fits⟩ with wallet_withdrawals := (Table.empty.insert samplePending).insert samplePending }

/-- A sweep that CryptoBot tells of no transfer. -/
def sampleSweepCall : SweepCall := ⟨fun _ => some none, seconds 600⟩

def sampleApproveCall : ApproveCall := ⟨1, none, .ok "TX1", 0⟩

/-- A sweep that cannot ask about the first withdrawal. -/
def sampleLastSweep : SweepCall := ⟨fun i => if i = 1 then none else some none, seconds 600⟩

/-- The sweep settles its last candidate, and the approval of the first one is in
its call: the sweep holds its locks, the approval none. -/
theorem sampleApprove_unlocked : ∃ t, Reach CallStep LastOnly (.idle samplePendingDb) t ∧
    (t.sessions.row 1).map (·.held) = some [.balance 1 1, .withdrawal 2] ∧
    ∃ x, t.sessions.row 2 = some x ∧ x.pc.inCall ∧ x.held = [] := by
  have h₀ : Reach CallStep LastOnly (.idle samplePendingDb) (.idle samplePendingDb) := .refl
  have h₁ := run_start h₀ (.sweep sampleLastSweep) trivial
  have h₂ := run_start h₁ (.approve sampleApproveCall) trivial
  have h₃ := run_read (p := .sweepCall sampleLastSweep [(1, samplePending), (2, samplePending)] id) h₂ 1 rfl rfl rfl
    (by rintro x c k seen matched todo write hx hpc; cases hx; cases hpc)
  have h₄ := run_read (p := .sweepCall sampleLastSweep [(2, samplePending)] id) h₃ 1 rfl rfl rfl
    (by rintro x c k seen matched todo write hx hpc; cases hx; cases hpc)
  have h₅ := run_read (p := .sweepRow sampleLastSweep 2 samplePending none [] id) h₄ 1 rfl rfl rfl
    (by rintro x c k seen matched todo write hx hpc; cases hx; cases hpc)
  have h₆ := run_lock h₅ 1 rfl rfl (Transactions.Sys.freeFor_of_check (by decide))
    (by rintro x c k seen matched todo write hx hpc; cases hx; cases hpc; rfl)
  have h₇ := run_lock h₆ 1 rfl rfl (Transactions.Sys.freeFor_of_check (by decide))
    (by rintro x c k seen matched todo write hx hpc; cases hx; cases hpc)
  have h₈ := run_lock h₇ 2 rfl rfl (Transactions.Sys.freeFor_of_check (by decide))
    (by rintro x c k seen matched todo write hx hpc; cases hx; cases hpc)
  have h₉ := run_commit (p := .approveCall sampleApproveCall { samplePending with status := .approved }) h₈ 2 rfl rfl rfl
    (by rintro x c k seen matched todo write hx hpc; cases hx; cases hpc)
  exact ⟨_, h₉, rfl, _, rfl, trivial, calls_hold_no_lock h₉ (i := 2) rfl trivial⟩

/-- The sweep asks CryptoBot about the second withdrawal while it holds the locks on the first. -/
theorem sweep_calls_with_locks : ¬ ∀ (start : Db) (t : CallSys), Reach CallStep Free (.idle start) t →
    ∀ i x, t.sessions.row i = some x → x.pc.inCall → x.held = [] := by
  intro hall
  have h₀ : Reach CallStep Free (.idle samplePendingDb) (.idle samplePendingDb) := .refl
  have h₁ := run_start h₀ (.sweep sampleSweepCall) trivial
  have h₂ := run_read (p := .sweepCall sampleSweepCall [(1, samplePending), (2, samplePending)] id) h₁ 1 rfl rfl rfl trivial
  have h₃ := run_read (p := .sweepRow sampleSweepCall 1 samplePending none [(2, samplePending)] id) h₂ 1 rfl rfl rfl trivial
  have h₄ := run_lock h₃ 1 rfl rfl (Transactions.Sys.freeFor_of_check (by decide)) trivial
  have h₅ := run_lock h₄ 1 rfl rfl (Transactions.Sys.freeFor_of_check (by decide)) trivial
  cases hall _ _ h₅ 1 _ rfl trivial

end Garant
