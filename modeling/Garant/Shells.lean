import Garant.LastAdmin
import Garant.Money
import Garant.PinSessions
import Garant.Reviews
import Garant.Services
/-!
# Account transfers onto a clean shell

`confirm_transfer` deletes its target, and first makes sure that it is an empty
account. Here it runs table by table against the requests that give an account
something to lose: a PIN, a trust deposit, a row of another table, money.

`transfer_destroys_nothing`: what is deleted was empty when the commit was made, in
every run in which the PIN and the trust balance of the target are still those it was
loaded with and no balance of it is negative; and no other statement of a transfer
changes a user. Rows of other tables cannot slip in: an `INSERT` that references a
user waits for the lock on it. `transfer_destroys_pin`: the lock does not load the
target again.
-/
open Transactions

namespace Garant

/-- `user_balances`. -/
structure BalanceRow where
  user_id : ℕ
  currency_id : ℕ
  amount : Money
  locked : Money
deriving DecidableEq

/-- The tables that `_has_tradable_data` queries, in its order. -/
inductive ShellTable
  | deals
  | services
  | reviews
  | deposits
  | withdrawals
  | balances
deriving DecidableEq

def ShellTable.all : List ShellTable := [.deals, .services, .reviews, .deposits, .withdrawals, .balances]

structure ShellStore where
  accounts : AccountStore
  deals : Table Deal
  services : Table Service
  reviews : Table Review
  wallet_deposits : Table WalletDeposit
  wallet_withdrawals : Table WalletWithdrawal
  user_balances : Table BalanceRow

/-- A row that a statement locks. -/
inductive ShellLock
  | account (r : AccountLock)
  | deposit (id : ℕ)
  | balance (user_id currency_id : ℕ)
deriving DecidableEq

/-! ## What an account has to lose -/

/-- The columns that `_has_tradable_data` reads of the row it is given. -/
def UserAccount.tradable (user : UserAccount) : Bool := present user.pin_hash || 0 < user.trust_deposit_balance.val

def BalanceRow.positive (b : BalanceRow) : Bool := 0 < b.amount.val || 0 < b.locked.val

namespace ShellStore
variable (s : ShellStore) (u : ℕ)

/-- The rows of the user that the query of one table finds. -/
def rows : ShellTable → List ℕ
  | .deals => s.deals.ids fun d => d.buyer_id = u || d.seller_id = u
  | .services => s.services.ids fun x => x.owner_id = u
  | .reviews => s.reviews.ids fun r => r.author_id = u || r.target_id = u
  | .deposits => s.wallet_deposits.ids fun d => d.user_id = u
  | .withdrawals => s.wallet_withdrawals.ids fun w => w.user_id = u
  | .balances => s.user_balances.ids fun b => b.user_id = u && b.positive

/-- The row is that of the user in the currency. -/
def balance (currency_id : ℕ) : Option ℕ := (s.user_balances.ids fun b => b.user_id = u && b.currency_id = currency_id).head?

/-- Deletes what `ON DELETE CASCADE` deletes with the user. -/
def cascade : ShellStore :=
  { s with
    services := s.services.eraseAll (s.rows u .services)
    reviews := s.reviews.eraseAll (s.rows u .reviews)
    wallet_deposits := s.wallet_deposits.eraseAll (s.rows u .deposits)
    wallet_withdrawals := s.wallet_withdrawals.eraseAll (s.rows u .withdrawals)
    user_balances := s.user_balances.eraseAll (s.user_balances.ids fun b => b.user_id = u) }

/-- The last commit of `confirm_transfer` goes through. Deals and transfer codes do
not cascade: with one of the target it rolls back. -/
def lands (f : FoundCode) (source : UserAccount) : Bool :=
  f.lands source s.accounts && (s.rows f.target_id .deals).isEmpty &&
    ((s.accounts.transfer_codes.eraseAll f.purged).ids fun c => c.source_user_id = f.target_id).isEmpty

def commitTransfer (f : FoundCode) (source : UserAccount) : ShellStore :=
  if s.lands f source then { s.cascade f.target_id with accounts := f.commit source s.accounts } else s

end ShellStore

/-! ## What gives an account something to lose -/

deriving instance DecidableEq for WalletWithdrawal

/-- A row that a request inserts. -/
inductive ShellRow
  | deal (d : Deal)
  | service (x : Service)
  | review (r : Review)
  | deposit (d : WalletDeposit)
  | withdrawal (w : WalletWithdrawal)
deriving DecidableEq

/-- The users it references. -/
def ShellRow.users : ShellRow → List ℕ
  | deal d => [d.buyer_id, d.seller_id]
  | service x => [x.owner_id]
  | review r => [r.author_id, r.target_id]
  | deposit d => [d.user_id]
  | withdrawal w => [w.user_id]

def ShellStore.add (s : ShellStore) : ShellRow → ShellStore
  | .deal d => { s with deals := s.deals.insert d }
  | .service x => { s with services := s.services.insert x }
  | .review r => { s with reviews := s.reviews.insert r }
  | .deposit d => { s with wallet_deposits := s.wallet_deposits.insert d }
  | .withdrawal w => { s with wallet_withdrawals := s.wallet_withdrawals.insert w }

/-- The `INSERT`; a reference to a user that is gone rolls it back. -/
def ShellStore.insertRow (s : ShellStore) (row : ShellRow) : ShellStore :=
  if row.users.all fun u => (s.accounts.users.row u).isSome then s.add row else s

/-- `pin_setup` and `set_trust_deposit`, which change the user as loaded without a lock. -/
inductive UserChange
  | pinSetup (user_id : ℕ) (pin : String)
  | setTrustDeposit (user_id : ℕ) (amount : Money)
deriving DecidableEq

def UserChange.user_id : UserChange → ℕ
  | pinSetup u _ | setTrustDeposit u _ => u

def UserChange.apply (hashes : PinHashes) (a : AccountStore) (user : UserAccount) : UserChange → Option UserAccount
  | pinSetup _ pin => (Garant.pinSetup hashes a user pin).map (·.new)
  | setTrustDeposit _ amount =>
    if user.trust_deposit_balance = amount then none else some { user with trust_deposit_balance := amount }

/-- Writes the amount of a balance, under a reference to its user (its ledger
entry has one), and with it the deposit that was credited. -/
def ShellStore.setAmount (s : ShellStore) (u currency_id : ℕ) (amount : Money) (deposit_id : Option ℕ) : ShellStore :=
  if (s.accounts.users.row u).isSome then
    { s with
      user_balances := match s.balance u currency_id with
        | some i => s.user_balances.mapRows fun j b => if j = i then { b with amount } else b
        | none => s.user_balances.insert ⟨u, currency_id, amount, Decimal.Numeric.zero 28 8⟩
      wallet_deposits := s.wallet_deposits.mapRows fun j d =>
        if some j = deposit_id then { d with status := .paid, paid_at := some s.accounts.now } else d }
  else s

def ShellStore.amount (s : ShellStore) (u currency_id : ℕ) : ℚ :=
  ((s.balance u currency_id).bind s.user_balances.row).elim 0 (·.amount.val)

/-- Marks the deposit whose trust credit is committed. -/
def ShellStore.creditTrust (s : ShellStore) (w : UserWrite) (deposit_id : ℕ) : ShellStore :=
  if (s.accounts.users.row w.user_id).isSome then
    { s with
      accounts := w.commit s.accounts
      wallet_deposits := s.wallet_deposits.mapRows fun j d =>
        if j = deposit_id then { d with status := .paid, paid_at := some s.accounts.now } else d }
  else s

/-! ## The requests -/

/-- The requests that insert a row have decided on it, and the amount of a credit is settled. -/
inductive ShellOp
  | transfer (op : TransferOp)
  | change (c : UserChange)
  | insert (row : ShellRow)
  | adjust (user_id currency_id : ℕ) (delta : ℚ)
  | credit (deposit_id : ℕ) (credit_amount : Money)

/-- Where a request is. -/
inductive ShellPc
  | transfer (pc : TransferPc)
  /-- `_has_tradable_data`, with the tables it has yet to query. -/
  | probe (f : FoundCode) (source : UserAccount) (todo : List ShellTable)
  | change (c : UserChange)
  | lockChange (w : UserWrite)
  | commitChange (w : UserWrite)
  | insert (row : ShellRow) (todo : List ℕ)
  /-- `adjust_user_balance`. -/
  | adjust (u currency_id : ℕ) (delta : ℚ)
  | adjustLock (u currency_id : ℕ) (delta : ℚ)
  | adjustRead (u currency_id : ℕ) (delta : ℚ)
  /-- `credit_deposit` of a wallet or a trust deposit. -/
  | credit (deposit_id : ℕ) (credit_amount : Money)
  | creditLoad (deposit_id : ℕ) (credit_amount : Money)
  | creditLock (deposit_id u currency_id : ℕ) (credit_amount : Money)
  | creditRead (deposit_id u currency_id : ℕ) (credit_amount : Money)
  | trustLock (deposit_id u : ℕ) (credit_amount : Money)
  | trustRead (deposit_id u : ℕ) (credit_amount : Money)
  | trustCommit (w : UserWrite) (deposit_id : ℕ)
  /-- The ledger entry, which references the user, and the commit. -/
  | ledger (u currency_id : ℕ) (amount : Money) (deposit_id : Option ℕ)
  | commitAmount (u currency_id : ℕ) (amount : Money) (deposit_id : Option ℕ)
  | finished
deriving DecidableEq

def ShellOp.entry : ShellOp → ShellPc
  | .transfer op => .transfer op.entry
  | .change c => .change c
  | .insert row => .insert row row.users
  | .adjust u c delta => .adjust u c delta
  | .credit d credit_amount => .credit d credit_amount

section
variable (hashes : PinHashes) (hashCode : String → String)

/-- The next statement. Locks between two statements that insert would exclude
each other here and do not in the database; each is taken next to its commit,
where that makes no difference. -/
def ShellPc.move : ShellPc → Move ShellStore ShellLock ShellPc
  | .transfer (.checks f code) => .read fun s => match s.accounts.users.row f.code.source_user_id with
    | none => .transfer (.orphan f)
    | some source =>
      if f.code.source_user_id = f.target_id ∨ hashCode code ≠ f.code.code_hash ∨ f.target.tradable then .transfer .finished
      -- rows loaded before keep the values they were loaded with
      else .probe f (f.source.getD source) ShellTable.all
  | .transfer (.commit f source) => .commit (fun s => s.commitTransfer f source) fun _ => .transfer .finished
  | .transfer pc => (pc.move hashCode).on ShellStore.accounts (fun a s => { s with accounts := a }) .account .transfer
  | .probe f source (table :: todo) => .read fun s =>
    if s.rows f.target_id table = [] then .probe f source todo else .transfer .finished
  | .probe f source [] => .read fun _ => .transfer (.swap f source)
  | .change c => .read fun s => match s.accounts.users.row c.user_id with
    | none => .finished
    | some user => match c.apply hashes s.accounts user with
      | none => .finished
      | some new => .lockChange ⟨c.user_id, user, new, [], []⟩
  | .lockChange w => .lock (.account (.user w.user_id)) (.commitChange w)
  | .commitChange w => .commit (fun s => { s with accounts := w.commit s.accounts }) fun _ => .finished
  | .insert row (u :: todo) => .lock (.account (.user u)) (.insert row todo)
  | .insert row [] => .commit (fun s => s.insertRow row) fun _ => .finished
  | .adjust u c delta => .read fun s => if (s.accounts.users.row u).isSome then .adjustLock u c delta else .finished
  | .adjustLock u c delta => .lock (.balance u c) (.adjustRead u c delta)
  | .adjustRead u c delta => .read fun s =>
    let new_amount := plus (s.amount u c) delta
    if new_amount < 0 then .finished
    else match store new_amount with
      | .error _ => .finished
      | .ok amount => .ledger u c amount none
  | .credit d credit_amount => .lock (.deposit d) (.creditLoad d credit_amount)
  | .creditLoad d credit_amount => .read fun s => match s.wallet_deposits.row d with
    | none => .finished
    | some deposit =>
      if deposit.status = .paid then .finished
      else match deposit.purpose with
        | .wallet => .creditLock d deposit.user_id deposit.currency_id credit_amount
        | .trust => .trustLock d deposit.user_id credit_amount
        | .deal_topup => .finished
  | .creditLock d u c credit_amount => .lock (.balance u c) (.creditRead d u c credit_amount)
  | .creditRead d u c credit_amount => .read fun s => match store (plus (s.amount u c) credit_amount.val) with
    | .error _ => .finished
    | .ok amount => .ledger u c amount (some d)
  | .trustLock d u credit_amount => .lock (.account (.user u)) (.trustRead d u credit_amount)
  | .trustRead d u credit_amount => .read fun s => match s.accounts.users.row u with
    | none => .finished
    | some user => match store (plus user.trust_deposit_balance.val credit_amount.val) with
      | .error _ => .finished
      | .ok trust_deposit_balance => .trustCommit ⟨u, user, { user with trust_deposit_balance }, [], []⟩ d
  | .trustCommit w d => .commit (fun s => s.creditTrust w d) fun _ => .finished
  | .ledger u c amount d => .lock (.account (.user u)) (.commitAmount u c amount d)
  | .commitAmount u c amount d => .commit (fun s => s.setAmount u c amount d) fun _ => .finished
  | .finished => .done

/-- Time passes. -/
def ShellTimePasses (s t : ShellStore) : Prop :=
  ∃ now, s.accounts.now ≤ now ∧ t = { s with accounts := { s.accounts with now } }

abbrev ShellSys := Transactions.Sys ShellStore ShellLock ShellPc

def ShellStep : Event ShellOp → ShellSys → ShellSys → Prop :=
  Transactions.Step (ShellPc.move hashes hashCode) ShellOp.entry ShellTimePasses

end

/-! ## What a statement does -/

/-- The account has nothing to lose. -/
structure ShellStore.Empty (s : ShellStore) (u : ℕ) : Prop where
  pin : ∀ row, s.accounts.users.row u = some row → present row.pin_hash = false
  trust : ∀ row, s.accounts.users.row u = some row → row.trust_deposit_balance.val = 0
  deals : ∀ i d, s.deals.row i = some d → d.buyer_id ≠ u ∧ d.seller_id ≠ u
  services : ∀ i x, s.services.row i = some x → x.owner_id ≠ u
  reviews : ∀ i r, s.reviews.row i = some r → r.author_id ≠ u ∧ r.target_id ≠ u
  deposits : ∀ i d, s.wallet_deposits.row i = some d → d.user_id ≠ u
  withdrawals : ∀ i w, s.wallet_withdrawals.row i = some w → w.user_id ≠ u
  balances : ∀ i b, s.user_balances.row i = some b → b.user_id = u → b.amount.val = 0 ∧ b.locked.val = 0

/-- The emptiness check has passed, but for the tables still to query, and the user is locked. -/
structure FoundCode.Checked (f : FoundCode) (s : ShellStore) (held : List ShellLock) (todo : List ShellTable) : Prop where
  locked : .account (.user f.target_id) ∈ held
  columns : f.target.tradable = false
  tables : ∀ table, table ∉ todo → s.rows f.target_id table = []

/-- What a request relies on: a transfer on its lock and what it has checked, the others on the locks of the users
that they are about to reference. -/
def ShellPc.Keeps (s : ShellStore) (held : List ShellLock) : ShellPc → Prop
  | .transfer (.lockSecond f _) => .account (.user (min f.code.source_user_id f.target_id)) ∈ held
  | .transfer (.checks f _) => .account (.user f.target_id) ∈ held
  | .probe f _ todo => f.Checked s held todo
  | .transfer (.swap f _) | .transfer (.commit f _) => f.Checked s held []
  | .insert row todo => ∀ u ∈ row.users, u ∈ todo ∨ .account (.user u) ∈ held
  | .commitAmount u _ _ _ => .account (.user u) ∈ held
  | _ => True

/-- A user whose row nobody locked gets no row in any table. -/
def GivesNothing (held : List ShellLock) (s t : ShellStore) : Prop :=
  ∀ u table, .account (.user u) ∉ held → s.rows u table = [] → t.rows u table = []

section
variable {hashes : PinHashes} {hashCode : String → String} {s t : ShellStore} {a : AccountStore} {held : List ShellLock}
  {u c d i : ℕ} {row : ShellRow} {f : FoundCode} {source : UserAccount} {w : UserWrite} {amount : Money}

theorem givesNothing_refl : GivesNothing held s s := fun _ _ _ h => h

theorem givesNothing_accounts : GivesNothing held s { s with accounts := a } := by
  intro u table _ h
  cases table <;> exact h

theorem givesNothing_transfer : GivesNothing held s (s.commitTransfer f source) := by
  unfold ShellStore.commitTransfer
  split
  · intro u table _ h
    cases table with
    | deals => exact h
    | services | reviews | deposits | withdrawals | balances => exact Table.ids_eraseAll_nil _ h
  · exact givesNothing_refl

theorem givesNothing_insert (h : ∀ u ∈ row.users, .account (.user u) ∈ held) : GivesNothing held s (s.insertRow row) := by
  unfold ShellStore.insertRow
  split
  · intro u table hu hnil
    have hnot : u ∉ row.users := fun hmem => hu (h u hmem)
    -- only the table of the row changes, and the row is of others
    cases row with
    | deal d =>
      simp only [ShellRow.users, List.mem_cons, List.not_mem_nil, or_false, not_or] at hnot
      cases table with
      | deals => exact Table.ids_insert_nil hnil (by simp [Ne.symm hnot.1, Ne.symm hnot.2])
      | _ => exact hnil
    | review r =>
      simp only [ShellRow.users, List.mem_cons, List.not_mem_nil, or_false, not_or] at hnot
      cases table with
      | reviews => exact Table.ids_insert_nil hnil (by simp [Ne.symm hnot.1, Ne.symm hnot.2])
      | _ => exact hnil
    | service x =>
      cases table with
      | services => exact Table.ids_insert_nil hnil (decide_eq_false (Ne.symm (List.ne_of_not_mem_cons hnot)))
      | _ => exact hnil
    | deposit d =>
      cases table with
      | deposits => exact Table.ids_insert_nil hnil (decide_eq_false (Ne.symm (List.ne_of_not_mem_cons hnot)))
      | _ => exact hnil
    | withdrawal w =>
      cases table with
      | withdrawals => exact Table.ids_insert_nil hnil (decide_eq_false (Ne.symm (List.ne_of_not_mem_cons hnot)))
      | _ => exact hnil
  · exact givesNothing_refl

/-- A row of a balance looked up is one of that user. -/
theorem ShellStore.balance_user (h : s.balance u c = some i) : ∃ b, s.user_balances.row i = some b ∧ b.user_id = u := by
  obtain ⟨b, hb, hp⟩ := Table.mem_ids.1 (List.mem_of_mem_head? h)
  simp only [Bool.and_eq_true, decide_eq_true_eq] at hp
  exact ⟨b, hb, hp.1⟩

theorem givesNothing_setAmount {deposit_id : Option ℕ} (h : .account (.user u) ∈ held) :
    GivesNothing held s (s.setAmount u c amount deposit_id) := by
  unfold ShellStore.setAmount
  split
  · intro v table hv hnil
    have hne : v ≠ u := by
      rintro rfl
      exact hv h
    cases table with
    | deals | services | reviews | withdrawals => exact hnil
    | deposits =>
      refine Table.ids_mapRows_nil hnil fun j d _ hd => ?_
      split <;> exact hd
    | balances =>
      simp only [ShellStore.rows]
      split
      · rename_i k hk
        obtain ⟨b, hb, hbu⟩ := ShellStore.balance_user hk
        refine Table.ids_mapRows_nil hnil fun j b' hj hb' => ?_
        split
        · rename_i hjk
          subst hjk
          rw [hb] at hj
          cases hj
          simp [hbu, Ne.symm hne]
        · exact hb'
      · exact Table.ids_insert_nil hnil (by simp [Ne.symm hne])
  · exact givesNothing_refl

theorem givesNothing_creditTrust : GivesNothing held s (s.creditTrust w d) := by
  unfold ShellStore.creditTrust
  split
  · intro v table _ hnil
    cases table with
    | deals | services | reviews | withdrawals | balances => exact hnil
    | deposits =>
      refine Table.ids_mapRows_nil hnil fun j d _ hd => ?_
      split <;> exact hd
  · exact givesNothing_refl

/-- A statement of `confirm_transfer`, `cancel_active` or `issue_code`. -/
def ShellPc.isTransfer : ShellPc → Bool
  | .transfer _ | .probe .. => true
  | _ => false

/-- What a statement does: the others' empty tables stay empty, and of the
transfers only the commit that deletes the target changes a user. -/
structure ShellEffect (held : List ShellLock) (s t : ShellStore) (pc : ShellPc) : Prop where
  nothing : GivesNothing held s t
  users : pc.isTransfer = true → t.accounts.users ≠ s.accounts.users →
    ∃ f source, pc = .transfer (.commit f source) ∧ s.lands f source = true

theorem ShellEffect.refl {pc : ShellPc} : ShellEffect held s s pc := ⟨givesNothing_refl, fun _ h => (h rfl).elim⟩

theorem ShellEffect.of_users {pc : ShellPc} (h : a.users = s.accounts.users) :
    ShellEffect held s { s with accounts := a } pc := ⟨givesNothing_accounts, fun _ hne => (hne h).elim⟩

theorem FoundCode.Checked.lock {todo : List ShellTable} {r : ShellLock} (h : f.Checked s held todo) :
    f.Checked s (r :: held) todo := ⟨List.mem_cons_of_mem _ h.locked, h.columns, h.tables⟩

/-- One statement of a transfer. -/
theorem transfer_move {S : ShellSys} {x y : Transactions.Session ShellLock ShellPc} {pc : TransferPc}
    (h : Moves (ShellPc.move hashes hashCode) S i x y t) (hpc : x.pc = .transfer pc) (hx : x.pc.Keeps S.store x.held) :
    y.pc.Keeps t y.held ∧ ShellEffect x.held S.store t x.pc := by
  obtain ⟨_, held⟩ := x
  cases hpc
  cases pc with
  | confirm v code p =>
    obtain ⟨rfl, rfl⟩ := h.of_read rfl
    refine ⟨?_, .refl⟩
    simp only
    split <;> trivial
  | purging v target code todo purged =>
    cases todo with
    | cons k todo =>
      obtain ⟨rfl, rfl⟩ := h.of_lock rfl
      exact ⟨trivial, .refl⟩
    | nil =>
      obtain ⟨rfl, rfl⟩ := h.of_read rfl
      refine ⟨?_, .refl⟩
      simp only
      split <;> trivial
  | lockFirst f code =>
    obtain ⟨rfl, rfl⟩ := h.of_lock rfl
    exact ⟨List.mem_cons_self, .refl⟩
  | lockSecond f code =>
    obtain ⟨rfl, rfl⟩ := h.of_lock rfl
    refine ⟨?_, .refl⟩
    -- the target is the smaller or the larger of the two
    rcases le_total f.code.source_user_id f.target_id with hle | hle
    · exact List.mem_cons.2 (.inl (by rw [max_eq_right hle]))
    · exact List.mem_cons_of_mem _ (by simpa [ShellPc.Keeps, min_eq_right hle] using hx)
  | checks f code =>
    obtain ⟨rfl, rfl⟩ := h.of_read rfl
    refine ⟨?_, .refl⟩
    simp only
    split
    · trivial
    · split
      · trivial
      · rename_i hpass
        refine ⟨hx, by simpa using fun htrade => hpass (.inr (.inr htrade)), fun table hnot => absurd ?_ hnot⟩
        cases table <;> decide
  | orphan f =>
    obtain ⟨rfl, rfl⟩ := h.of_lock rfl
    exact ⟨trivial, .refl⟩
  | swap f source =>
    obtain ⟨rfl, rfl⟩ := h.of_lock rfl
    exact ⟨FoundCode.Checked.lock hx, .refl⟩
  | commitOrphan f =>
    obtain ⟨rfl, rfl⟩ := h.of_commit rfl
    exact ⟨trivial, .of_users FoundCode.commitOrphan_users⟩
  | commit f source =>
    obtain ⟨rfl, rfl⟩ := h.of_commit rfl
    refine ⟨trivial, givesNothing_transfer, fun _ hne => ⟨f, source, rfl, ?_⟩⟩
    by_contra hlands
    exact hne (by rw [ShellStore.commitTransfer, if_neg hlands])
  | cancel v | issue v hash =>
    obtain ⟨rfl, rfl⟩ := h.of_read rfl
    exact ⟨trivial, .refl⟩
  | cancelling todo locked =>
    cases todo with
    | cons k todo =>
      obtain ⟨rfl, rfl⟩ := h.of_lock rfl
      exact ⟨trivial, .refl⟩
    | nil =>
      obtain ⟨rfl, rfl⟩ := h.of_commit rfl
      exact ⟨trivial, .of_users AccountStore.stamp_users⟩
  | issuePurging v hash todo purged =>
    cases todo with
    | cons k todo =>
      obtain ⟨rfl, rfl⟩ := h.of_lock rfl
      exact ⟨trivial, .refl⟩
    | nil =>
      obtain ⟨rfl, rfl⟩ := h.of_read rfl
      exact ⟨trivial, .refl⟩
  | issueStamping v hash purged todo locked =>
    cases todo with
    | cons k todo =>
      obtain ⟨rfl, rfl⟩ := h.of_lock rfl
      exact ⟨trivial, .refl⟩
    | nil =>
      obtain ⟨rfl, rfl⟩ := h.of_commit rfl
      exact ⟨trivial, .of_users commitIssue_users⟩
  | finished => exact (h.of_done rfl).elim

theorem shell_move {S : ShellSys} {x y : Transactions.Session ShellLock ShellPc}
    (h : Moves (ShellPc.move hashes hashCode) S i x y t) (hx : x.pc.Keeps S.store x.held) :
    y.pc.Keeps t y.held ∧ ShellEffect x.held S.store t x.pc := by
  obtain ⟨pc, held⟩ := x
  cases pc with
  | transfer pc => exact transfer_move h rfl hx
  | probe f source todo =>
    cases todo with
    | nil =>
      obtain ⟨rfl, rfl⟩ := h.of_read rfl
      exact ⟨hx, .refl⟩
    | cons table todo =>
      obtain ⟨rfl, rfl⟩ := h.of_read rfl
      refine ⟨?_, .refl⟩
      simp only
      split
      · rename_i hnil
        refine ⟨hx.locked, hx.columns, fun table' hnot => ?_⟩
        by_cases heq : table' = table
        · rw [heq]
          exact hnil
        · exact hx.tables table' (by simp [heq, hnot])
      · trivial
  | change c =>
    obtain ⟨rfl, rfl⟩ := h.of_read rfl
    refine ⟨?_, .refl⟩
    simp only
    split
    · trivial
    · split <;> trivial
  | lockChange w | adjustLock u c delta | credit d credit_amount | creditLock d u c credit_amount
  | trustLock d u credit_amount =>
    obtain ⟨rfl, rfl⟩ := h.of_lock rfl
    exact ⟨trivial, .refl⟩
  | commitChange w =>
    obtain ⟨rfl, rfl⟩ := h.of_commit rfl
    exact ⟨trivial, givesNothing_accounts, nofun⟩
  | insert row todo =>
    cases todo with
    | nil =>
      obtain ⟨rfl, rfl⟩ := h.of_commit rfl
      exact ⟨trivial, givesNothing_insert fun u hu => (hx u hu).resolve_left nofun, nofun⟩
    | cons v todo =>
      obtain ⟨rfl, rfl⟩ := h.of_lock rfl
      refine ⟨fun u hu => ?_, .refl⟩
      rcases hx u hu with hmem | hheld
      · rcases List.mem_cons.1 hmem with rfl | hmem
        · exact .inr List.mem_cons_self
        · exact .inl hmem
      · exact .inr (List.mem_cons_of_mem _ hheld)
  | adjust u c delta =>
    obtain ⟨rfl, rfl⟩ := h.of_read rfl
    refine ⟨?_, .refl⟩
    simp only
    split <;> trivial
  | adjustRead u c delta =>
    obtain ⟨rfl, rfl⟩ := h.of_read rfl
    refine ⟨?_, .refl⟩
    simp only
    split
    · trivial
    · split <;> trivial
  | creditLoad d credit_amount =>
    obtain ⟨rfl, rfl⟩ := h.of_read rfl
    refine ⟨?_, .refl⟩
    simp only
    split
    · trivial
    · split
      · trivial
      · split <;> trivial
  | creditRead d u c credit_amount =>
    obtain ⟨rfl, rfl⟩ := h.of_read rfl
    refine ⟨?_, .refl⟩
    simp only
    split <;> trivial
  | trustRead d u credit_amount =>
    obtain ⟨rfl, rfl⟩ := h.of_read rfl
    refine ⟨?_, .refl⟩
    simp only
    split
    · trivial
    · split <;> trivial
  | trustCommit w d =>
    obtain ⟨rfl, rfl⟩ := h.of_commit rfl
    exact ⟨trivial, givesNothing_creditTrust, nofun⟩
  | ledger u c amount d =>
    obtain ⟨rfl, rfl⟩ := h.of_lock rfl
    exact ⟨List.mem_cons_self, .refl⟩
  | commitAmount u c amount d =>
    obtain ⟨rfl, rfl⟩ := h.of_commit rfl
    exact ⟨trivial, givesNothing_setAmount hx, nofun⟩
  | finished => exact (h.of_done rfl).elim

/-- What a request has checked stays so while nobody else holds its locks. -/
theorem ShellPc.Keeps.stable {pc : ShellPc} {other : List ShellLock} (h : pc.Keeps s held) (hgives : GivesNothing other s t)
    (hapart : ∀ r ∈ held, r ∉ other) : pc.Keeps t held := by
  have hchecked : ∀ {f : FoundCode} {todo : List ShellTable}, f.Checked s held todo → f.Checked t held todo := fun hf =>
    ⟨hf.locked, hf.columns, fun table hnot => hgives _ table (hapart _ hf.locked) (hf.tables table hnot)⟩
  cases pc with
  | transfer pc =>
    cases pc with
    | swap f source | commit f source => exact hchecked h
    | _ => exact h
  | probe f source todo => exact hchecked h
  | _ => exact h

/-! ## Runs -/

/-- When a transfer deletes its target, the PIN and the trust balance are those the
target was loaded with, and neither it nor a balance is negative. -/
def SeenAsCommitted : Event ShellOp → ShellSys → Prop
  | .move i, S => ∀ x f source, S.sessions.row i = some x → x.pc = .transfer (.commit f source) →
      S.store.lands f source = true →
      (∀ row, S.store.accounts.users.row f.target_id = some row → row.pin_hash = f.target.pin_hash ∧
        row.trust_deposit_balance = f.target.trust_deposit_balance ∧ 0 ≤ row.trust_deposit_balance.val) ∧
      ∀ j b, S.store.user_balances.row j = some b → b.user_id = f.target_id → 0 ≤ b.amount.val ∧ 0 ≤ b.locked.val
  | _, _ => True

/-- What every session relies on holds in every state reached. -/
theorem shell_keeps {Ok : Event ShellOp → ShellSys → Prop} {start : ShellStore} {S : ShellSys}
    (h : Reach (ShellStep hashes hashCode) Ok (.idle start) S) :
    ∀ i x, S.sessions.row i = some x → x.pc.Keeps S.store x.held := by
  have hx := h.with_invariant (I := fun S => S.Exclusive) fun S hS => exclusive hS
  refine (outline (I := fun _ => True) (L := fun s _ x => x.pc.Keeps s x.held) hx trivial ?_ ?_ ?_).2
  · rintro op s i -
    cases op with
    | transfer op => cases op <;> trivial
    | insert row => exact fun u hu => .inl hu
    | change | adjust | credit => trivial
  · rintro S i x y t - hL ⟨-, hexcl⟩ hx hmove
    obtain ⟨hy, heffect⟩ := shell_move hmove (hL i x hx)
    exact ⟨trivial, hy, fun j z hj hz => (hL j z hz).stable heffect.nothing fun r hr hr' =>
      hexcl j z hz r hr i x (Ne.symm hj) hx hr'⟩
  · rintro S t - - ⟨now, -, rfl⟩
    exact ⟨trivial, fun j z _ hz => hz.stable (givesNothing_accounts : GivesNothing [] _ _) nofun⟩

theorem FoundCode.Checked.empty (h : f.Checked s held [])
    (hrow : ∀ row, s.accounts.users.row f.target_id = some row → row.pin_hash = f.target.pin_hash ∧
      row.trust_deposit_balance = f.target.trust_deposit_balance ∧ 0 ≤ row.trust_deposit_balance.val)
    (hbal : ∀ j b, s.user_balances.row j = some b → b.user_id = f.target_id → 0 ≤ b.amount.val ∧ 0 ≤ b.locked.val) :
    s.Empty f.target_id := by
  have hcolumns := h.columns
  simp only [UserAccount.tradable, Bool.or_eq_false_iff, decide_eq_false_iff_not, not_lt] at hcolumns
  have hnil : ∀ table, s.rows f.target_id table = [] := fun table => h.tables table List.not_mem_nil
  refine ⟨fun row hr => ?_, fun row hr => ?_, fun j d hd => ?_, fun j x hx => ?_, fun j r hr => ?_, fun j d hd => ?_,
    fun j w hw => ?_, fun j b hb hu => ?_⟩
  · rw [(hrow row hr).1]
    exact hcolumns.1
  · obtain ⟨-, htrust, hnonneg⟩ := hrow row hr
    exact le_antisymm (htrust ▸ hcolumns.2) hnonneg
  · simpa using Table.ids_eq_nil.1 (hnil .deals) j d hd
  · simpa using Table.ids_eq_nil.1 (hnil .services) j x hx
  · simpa using Table.ids_eq_nil.1 (hnil .reviews) j r hr
  · simpa using Table.ids_eq_nil.1 (hnil .deposits) j d hd
  · simpa using Table.ids_eq_nil.1 (hnil .withdrawals) j w hw
  · have hpos := Table.ids_eq_nil.1 (hnil .balances) j b hb
    simp only [hu, decide_true, Bool.true_and, BalanceRow.positive, Bool.or_eq_false_iff, decide_eq_false_iff_not,
      not_lt] at hpos
    exact ⟨le_antisymm hpos.1 (hbal j b hb hu).1, le_antisymm hpos.2 (hbal j b hb hu).2⟩

/-- The account that a transfer deletes has nothing to lose; and only the commit
that deletes it changes a user, so a transfer that raises has changed none. -/
theorem transfer_destroys_nothing {start : ShellStore} {S : ShellSys} {x y : Transactions.Session ShellLock ShellPc}
    (h : Reach (ShellStep hashes hashCode) SeenAsCommitted (.idle start) S) (hx : S.sessions.row i = some x)
    (hok : SeenAsCommitted (.move i) S) (hmove : Moves (ShellPc.move hashes hashCode) S i x y t)
    (hpc : x.pc.isTransfer = true) :
    (∀ f source, x.pc = .transfer (.commit f source) → S.store.lands f source = true → S.store.Empty f.target_id) ∧
      (t.accounts.users ≠ S.store.accounts.users →
        ∃ f source, x.pc = .transfer (.commit f source) ∧ S.store.lands f source = true) := by
  have hkeeps := shell_keeps h i x hx
  refine ⟨fun f source heq hlands => ?_, (shell_move hmove hkeeps).2.users hpc⟩
  obtain ⟨hrow, hbal⟩ := hok x f source hx heq hlands
  rw [heq] at hkeeps
  exact FoundCode.Checked.empty hkeeps hrow hbal

end

/-! ## A PIN set meanwhile -/

/-- The accounts of `sampleAccounts`, with nothing in the other tables. -/
def sampleShells : ShellStore :=
  ⟨sampleAccounts, Table.empty, Table.empty, Table.empty, Table.empty, Table.empty, Table.empty⟩

def samplePinHashes : PinHashes := ⟨id, fun pin hash => pin = hash, fun code hash => code = hash⟩

/-- The emptiness check of the second user's transfer. -/
def sampleProbe (todo : List ShellTable) : ShellPc := .probe (sampleFound 2 102) (sampleAccount 101) todo

def sampleNewPin : UserAccount := { sampleAccount 102 with pin_hash := some "7391", pin_last_activity_at := some 0 }

/-- A transfer deletes a clean shell. -/
theorem sampleShell_empty : ∃ S x y t, Reach (ShellStep samplePinHashes id) SeenAsCommitted (.idle sampleShells) S ∧
    S.sessions.row 1 = some x ∧ Moves (ShellPc.move samplePinHashes id) S 1 x y t ∧
    (t.accounts.users.row 2).isNone ∧ S.store.Empty 2 := by
  have h₀ : Reach (ShellStep samplePinHashes id) SeenAsCommitted (.idle sampleShells) (.idle sampleShells) := .refl
  have h₁ := run_start h₀ (.transfer (.confirm 2 "123456" false)) trivial
  have h₂ := run_read (p := .transfer (.purging 2 (sampleAccount 102) "123456" [] [])) h₁ 1 rfl rfl (by decide +kernel)
    (by rintro x f source hx hf; cases hx; cases hf)
  have h₃ := run_read (p := .transfer (.lockFirst (sampleFound 2 102) "123456")) h₂ 1 rfl rfl (by decide +kernel)
    (by rintro x f source hx hf; cases hx; cases hf)
  have h₄ := run_lock h₃ 1 rfl rfl (Sys.freeFor_of_check (by decide))
    (by rintro x f source hx hf; cases hx; cases hf)
  have h₅ := run_lock h₄ 1 rfl rfl (Sys.freeFor_of_check (by decide))
    (by rintro x f source hx hf; cases hx; cases hf)
  have h₆ := run_read (p := sampleProbe ShellTable.all) h₅ 1 rfl rfl (by decide +kernel)
    (by rintro x f source hx hf; cases hx; cases hf)
  have h₇ := run_read (p := sampleProbe (ShellTable.all.drop 1)) h₆ 1 rfl rfl (by decide +kernel)
    (by rintro x f source hx hf; cases hx; cases hf)
  have h₈ := run_read (p := sampleProbe (ShellTable.all.drop 2)) h₇ 1 rfl rfl (by decide +kernel)
    (by rintro x f source hx hf; cases hx; cases hf)
  have h₉ := run_read (p := sampleProbe (ShellTable.all.drop 3)) h₈ 1 rfl rfl (by decide +kernel)
    (by rintro x f source hx hf; cases hx; cases hf)
  have h₁₀ := run_read (p := sampleProbe (ShellTable.all.drop 4)) h₉ 1 rfl rfl (by decide +kernel)
    (by rintro x f source hx hf; cases hx; cases hf)
  have h₁₁ := run_read (p := sampleProbe (ShellTable.all.drop 5)) h₁₀ 1 rfl rfl (by decide +kernel)
    (by rintro x f source hx hf; cases hx; cases hf)
  have h₁₂ := run_read (p := sampleProbe []) h₁₁ 1 rfl rfl (by decide +kernel)
    (by rintro x f source hx hf; cases hx; cases hf)
  have h₁₃ := run_read (p := .transfer (.swap (sampleFound 2 102) (sampleAccount 101))) h₁₂ 1 rfl rfl (by decide +kernel)
    (by rintro x f source hx hf; cases hx; cases hf)
  have h₁₄ := run_lock h₁₃ 1 rfl rfl (Sys.freeFor_of_check (by decide))
    (by rintro x f source hx hf; cases hx; cases hf)
  refine ⟨_, _, _, _, h₁₄, rfl, .commit rfl, by decide +kernel, ?_⟩
  refine (transfer_destroys_nothing (i := 1) (x := ⟨.transfer (.commit (sampleFound 2 102) (sampleAccount 101)),
    [.account (.code 1), .account (.user 2), .account (.user 1)]⟩) h₁₄ rfl ?_ (.commit rfl) rfl).1 (sampleFound 2 102)
    (sampleAccount 101) rfl (by decide +kernel)
  rintro x f source hx hf -
  cases hx
  cases hf
  refine ⟨fun row hrow => ?_, fun j b hb => ?_⟩
  · cases hrow
    exact ⟨rfl, rfl, by decide +kernel⟩
  · cases hb

/-- The target has been loaded and has no PIN; it sets one; and the transfer deletes it. -/
theorem transfer_destroys_pin : ¬ ∀ (hashes : PinHashes) (hashCode : String → String) (start : ShellStore) (S : ShellSys)
    (i : ℕ) (x : Transactions.Session ShellLock ShellPc) (f : FoundCode) (source : UserAccount),
    Reach (ShellStep hashes hashCode) Free (.idle start) S → S.sessions.row i = some x →
    x.pc = .transfer (.commit f source) → S.store.lands f source = true → S.store.Empty f.target_id := by
  intro hall
  have h₀ : Reach (ShellStep samplePinHashes id) Free (.idle sampleShells) (.idle sampleShells) := .refl
  -- the transfer loads its target
  have h₁ := run_start h₀ (.transfer (.confirm 2 "123456" false)) trivial
  have h₂ := run_read (p := .transfer (.purging 2 (sampleAccount 102) "123456" [] [])) h₁ 1 rfl rfl (by decide +kernel)
    trivial
  -- `pin_setup` of the target runs to its end
  have h₃ := run_start h₂ (.change (.pinSetup 2 "7391")) trivial
  have h₄ := run_read (p := .lockChange ⟨2, sampleAccount 102, sampleNewPin, [], []⟩) h₃ 2 rfl rfl (by decide +kernel)
    trivial
  have h₅ := run_lock h₄ 2 rfl rfl (Sys.freeFor_of_check (by decide)) trivial
  have h₆ := run_commit (p := .finished) h₅ 2 rfl rfl rfl trivial
  -- and the transfer goes on
  have h₇ := run_read (p := .transfer (.lockFirst (sampleFound 2 102) "123456")) h₆ 1 rfl rfl (by decide +kernel) trivial
  have h₈ := run_lock h₇ 1 rfl rfl (Sys.freeFor_of_check (by decide)) trivial
  have h₉ := run_lock h₈ 1 rfl rfl (Sys.freeFor_of_check (by decide)) trivial
  have h₁₀ := run_read (p := sampleProbe ShellTable.all) h₉ 1 rfl rfl (by decide +kernel) trivial
  have h₁₁ := run_read (p := sampleProbe (ShellTable.all.drop 1)) h₁₀ 1 rfl rfl (by decide +kernel) trivial
  have h₁₂ := run_read (p := sampleProbe (ShellTable.all.drop 2)) h₁₁ 1 rfl rfl (by decide +kernel) trivial
  have h₁₃ := run_read (p := sampleProbe (ShellTable.all.drop 3)) h₁₂ 1 rfl rfl (by decide +kernel) trivial
  have h₁₄ := run_read (p := sampleProbe (ShellTable.all.drop 4)) h₁₃ 1 rfl rfl (by decide +kernel) trivial
  have h₁₅ := run_read (p := sampleProbe (ShellTable.all.drop 5)) h₁₄ 1 rfl rfl (by decide +kernel) trivial
  have h₁₆ := run_read (p := sampleProbe []) h₁₅ 1 rfl rfl (by decide +kernel) trivial
  have h₁₇ := run_read (p := .transfer (.swap (sampleFound 2 102) (sampleAccount 101))) h₁₆ 1 rfl rfl (by decide +kernel)
    trivial
  have h₁₈ := run_lock h₁₇ 1 rfl rfl (Sys.freeFor_of_check (by decide)) trivial
  have hempty := hall _ _ _ _ 1 _ (sampleFound 2 102) (sampleAccount 101) h₁₈ rfl rfl (by decide +kernel)
  have hpin := hempty.pin sampleNewPin rfl
  revert hpin
  decide +kernel

end Garant
