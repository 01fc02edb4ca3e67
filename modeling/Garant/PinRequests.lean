import Garant.PinSessions
/-!
# The PIN requests and what they commit

All the requests that write the PIN columns of `users`: those of `PinSessions`,
and the two that send a reset code, `pin_reset_request` and `pin_reset_paid`. The
tokens they hand out are the business of `PinSessions` and left out here.

`checks` and `commits` are not in the program: every verification of a PIN or of
a reset code with the row it met, and every commit with the row before and after
it. `pin_outline` is the proof rule: a request that locks its user commits over
the row it decided on.
-/
open Transactions

namespace Garant

/-- `users.pin_reset_window_started_at` and `users.pin_reset_attempts`. -/
structure ResetThrottle where
  pin_reset_window_started_at : Option Time
  pin_reset_attempts : ℕ
deriving DecidableEq

/-- A request. Those that send a code come with the code they draw. -/
inductive PinRequest
  | pin (op : PinOp)
  | resetRequest (user_id : ℕ) (code : String)
  | resetPaid (user_id : ℕ) (code : String)
deriving DecidableEq

/-- The hashes of `pin.py`, with the one of reset codes. -/
structure ResetHashes extends PinHashes where
  hash_reset_code : String → String

/-- A verification, and the committed row at that moment. -/
structure PinCheck where
  user_id : ℕ
  time : Time
  row : UserAccount
  passed : Bool
deriving DecidableEq

/-- A commit: the request, when it decided, what the verification it made gave, and the row. -/
structure PinCommit where
  request : PinRequest
  time : Time
  verified : Option Bool
  before : UserAccount
  after : UserAccount
deriving DecidableEq

/-- What the requests share. `balances` is `user_balances.amount` by user and currency. -/
structure PinStore where
  accounts : AccountStore
  throttles : ℕ → ResetThrottle
  pin_reset_code_ttl_seconds : ℤ
  pin_reset_price_usd : Option ℚ
  usd : Option ℕ
  balances : ℕ → ℕ → Option ℚ
  checks : List PinCheck
  commits : List PinCommit

inductive PinLock
  | user (id : ℕ)
  | balance (user_id currency_id : ℕ)
deriving DecidableEq

/-! ## What the requests decide -/

def pinResetWindowSeconds : ℤ := 24 * 60 * 60

def pinResetMaxPerWindow : ℕ := 3

/-- `_mint_and_send_reset_code`. -/
def mintResetCode (hashes : ResetHashes) (s : PinStore) (code : String) (user : UserAccount) : UserAccount :=
  { user with
    pin_reset_code_hash := some (hashes.hash_reset_code code)
    pin_reset_expires := some (s.accounts.now + seconds s.pin_reset_code_ttl_seconds) }

/-- The throttle of `pin_reset_request`; a window that is over starts anew. -/
def countReset (now : Time) (throttle : ResetThrottle) : Option ResetThrottle :=
  let throttle :=
    if throttle.pin_reset_window_started_at.all fun window_start => seconds pinResetWindowSeconds ≤ now - window_start
    then ⟨some now, 0⟩ else throttle
  if pinResetMaxPerWindow ≤ throttle.pin_reset_attempts then none
  else some { throttle with pin_reset_attempts := throttle.pin_reset_attempts + 1 }

namespace PinRequest

def user_id : PinRequest → ℕ
  | pin op => op.user_id
  | resetRequest u _ | resetPaid u _ => u

/-- Goes through `_lock_user_for_pin`. -/
def locks : PinRequest → Bool
  | pin op => op.locks
  | _ => true

def precheck (user : UserAccount) : PinRequest → Bool
  | pin op => op.precheck user
  | _ => true

/-- The verification it makes on the row. -/
def verified (hashes : PinHashes) (s : AccountStore) (user : UserAccount) : PinRequest → Option Bool
  | pin op => (op.decision hashes s user).verified
  | _ => none

end PinRequest

/-- What a request is about to commit: the row, the throttle as loaded and as it
is now, and the balance it charges. -/
structure PinWrite where
  request : PinRequest
  time : Time
  verified : Option Bool
  write : UserWrite
  throttle : ResetThrottle × ResetThrottle
  charge : Option (ℕ × ℚ)
deriving DecidableEq

def flushThrottle (seen new cur : ResetThrottle) : ResetThrottle where
  pin_reset_window_started_at :=
    column seen.pin_reset_window_started_at new.pin_reset_window_started_at cur.pin_reset_window_started_at
  pin_reset_attempts := column seen.pin_reset_attempts new.pin_reset_attempts cur.pin_reset_attempts

/-- The commit; if the user is gone the transaction rolls back. -/
def PinWrite.commit (w : PinWrite) (s : PinStore) : PinStore :=
  match s.accounts.users.row w.write.user_id with
  | none => s
  | some cur =>
    { s with
      accounts := w.write.commit s.accounts
      throttles := Function.update s.throttles w.write.user_id
        (flushThrottle w.throttle.1 w.throttle.2 (s.throttles w.write.user_id))
      balances := w.charge.elim s.balances fun charge =>
        Function.update s.balances w.write.user_id
          (Function.update (s.balances w.write.user_id) charge.1 (some charge.2))
      commits := s.commits ++ [⟨w.request, w.time, w.verified, cur, flush w.write.seen w.write.new cur⟩] }

/-! ## The requests -/

/-- Where a request is. -/
inductive RequestPc
  /-- Loads the user without a lock. -/
  | load (r : PinRequest)
  | lockUser (r : PinRequest)
  /-- Loads the user again under the lock, and verifies. -/
  | reload (r : PinRequest)
  /-- `pin_reset_paid` from here on: the price, the currency, the balance. -/
  | readPrice (user_id : ℕ) (code : String) (user : UserAccount)
  | readCurrency (user_id : ℕ) (code : String) (user : UserAccount) (price : ℚ)
  | lockBalance (user_id : ℕ) (code : String) (user : UserAccount) (price : ℚ) (usd : ℕ)
  | charge (user_id : ℕ) (code : String) (user : UserAccount) (price : ℚ) (usd : ℕ)
  /-- The `UPDATE`, which locks the row if the request has not. -/
  | update (w : PinWrite)
  | commit (w : PinWrite)
  | finished
deriving DecidableEq

section
variable (hashes : ResetHashes)

/-- `pin_reset_paid` with what it charges. -/
def paidWrite (s : PinStore) (user_id : ℕ) (code : String) (user : UserAccount) (charge : Option (ℕ × ℚ)) : PinWrite where
  request := .resetPaid user_id code
  time := s.accounts.now
  verified := none
  write := ⟨user_id, user, mintResetCode hashes s code user, [], []⟩
  throttle := (s.throttles user_id, s.throttles user_id)
  charge := charge

/-- On with the row that the request has loaded last. -/
def PinRequest.decided (s : PinStore) (user : UserAccount) : PinRequest → RequestPc
  | .pin op =>
    let d := op.decision hashes.toPinHashes s.accounts user
    match d.outcome with
    | none => .finished
    | some o => .update
      ⟨.pin op, s.accounts.now, d.verified, ⟨op.user_id, user, o.new, o.deeds, []⟩,
        (s.throttles op.user_id, s.throttles op.user_id), none⟩
  | .resetRequest u code => match countReset s.accounts.now (s.throttles u) with
    | none => .finished
    | some throttle => .update
      ⟨.resetRequest u code, s.accounts.now, none, ⟨u, user, mintResetCode hashes s code user, [], []⟩,
        (s.throttles u, throttle), none⟩
  | .resetPaid u code => .readPrice u code user

/-- Notes the verification that the request makes. -/
def PinStore.noteCheck (s : PinStore) (r : PinRequest) : PinStore :=
  match s.accounts.users.row r.user_id with
  | none => s
  | some row => match r.verified hashes.toPinHashes s.accounts row with
    | none => s
    | some passed => { s with checks := s.checks ++ [⟨r.user_id, s.accounts.now, row, passed⟩] }

/-- The next statement. -/
def RequestPc.move : RequestPc → Move PinStore PinLock RequestPc
  | .load r => .read fun s => match s.accounts.users.row r.user_id with
    | none => .finished
    | some user =>
      if r.locks then if r.precheck user then .lockUser r else .finished
      else r.decided hashes s user
  | .lockUser r => .lock (.user r.user_id) (.reload r)
  | .reload r => .exchange (fun s => s.noteCheck hashes r) fun s => match s.accounts.users.row r.user_id with
    | none => .finished
    | some user => r.decided hashes s user
  | .readPrice u code user => .read fun s => .readCurrency u code user (s.pin_reset_price_usd.getD 3)
  | .readCurrency u code user price => .read fun s => match s.usd with
    | none => .finished
    | some usd => if price ≤ 0 then .update (paidWrite hashes s u code user none) else .lockBalance u code user price usd
  | .lockBalance u code user price usd => .lock (.balance u usd) (.charge u code user price usd)
  | .charge u code user price usd => .read fun s =>
    -- a balance that is missing is inserted with 0, and rolled back with the refusal
    let current := (s.balances u usd).getD 0
    if current < price then .finished else .update (paidWrite hashes s u code user (some (usd, current - price)))
  | .update w => .lock (.user w.write.user_id) (.commit w)
  | .commit w => .commit w.commit fun _ => .finished
  | .finished => .done

/-- Time passes, and prices and balances change. -/
structure Elsewhere (s t : PinStore) : Prop where
  users : t.accounts.users = s.accounts.users
  settings : t.accounts.settings = s.accounts.settings
  now : s.accounts.now ≤ t.accounts.now
  checks : t.checks = s.checks
  commits : t.commits = s.commits

abbrev PinSys := Transactions.Sys PinStore PinLock RequestPc

def PinStep : Event PinRequest → PinSys → PinSys → Prop :=
  Transactions.Step (RequestPc.move hashes) RequestPc.load Elsewhere

end

/-! ## What a request is about to commit -/

/-- What justifies another `pin_hash` over the committed row: the old PIN, a live reset code, or an admin. -/
def PinRequest.Proves (hashes : PinHashes) (time : Time) (row : UserAccount) : PinRequest → Prop
  | pin (.change _ old_pin _) => ∃ pin_hash, row.pin_hash = some pin_hash ∧ hashes.verify_pin old_pin pin_hash = true
  | pin (.resetConfirm _ code _) => ∃ code_hash expires, row.pin_reset_code_hash = some code_hash ∧
      row.pin_reset_expires = some expires ∧ time ≤ expires ∧ hashes.verify_reset_code code code_hash = true
  | pin (.resetPin _) => True
  | _ => False

/-- What the row to be committed owes to the row loaded. -/
structure PinWrite.Justified (hashes : ResetHashes) (settings : AccountSettings) (w : PinWrite) : Prop where
  user : w.write.user_id = w.request.user_id
  failed : w.verified = some false → w.write.new = wrongAttempt settings w.time w.write.seen
  passed : w.verified = some true → w.write.new.pin_attempts = 0 ∧ w.write.new.pin_locked_until = none
  unlocked : w.verified ≠ none → isLocked w.time w.write.seen = false
  plain : w.verified = none → w.request.locks = true →
    w.write.new.pin_attempts = w.write.seen.pin_attempts ∧ w.write.new.pin_locked_until = w.write.seen.pin_locked_until
  hash : w.write.new.pin_hash ≠ w.write.seen.pin_hash →
    w.request.Proves hashes.toPinHashes w.time w.write.seen ∨ ∃ u pin, w.request = .pin (.setup u pin)
  setup : (∃ u pin, w.request = .pin (.setup u pin)) → present w.write.seen.pin_hash = false

/-- What comes of an operation that verifies: `proof` is what it takes to write another PIN. -/
inductive PinDecision.Made (s : AccountStore) (user : UserAccount) (proof : Prop) : PinDecision → Prop
  | refused : Made s user proof .refused
  | expired : Made s user proof ⟨none, some ⟨{ user with pin_reset_code_hash := none, pin_reset_expires := none }, [], false⟩⟩
  | passed {o : Option PinOutcome} (hopen : isLocked s.now user = false)
      (hnew : ∀ x, o = some x → x.new.pin_attempts = 0 ∧ x.new.pin_locked_until = none ∧
        (x.new.pin_hash = user.pin_hash ∨ proof)) : Made s user proof ⟨some true, o⟩
  | failed (hopen : isLocked s.now user = false) : Made s user proof (.failed s user)

section
variable {hashes : ResetHashes} {settings : AccountSettings} {s t : PinStore} {user cur row : UserAccount} {o : PinOutcome}
  {op : PinOp} {r : PinRequest} {w : PinWrite} {throttle : ResetThrottle × ResetThrottle} {charge : Option (ℕ × ℚ)}

@[simp] theorem wrongAttempt_hash {now : Time} : (wrongAttempt settings now user).pin_hash = user.pin_hash := by
  unfold wrongAttempt
  split <;> rfl

/-- The three operations that verify do so on a row that is not locked. -/
theorem PinOp.decision_made {a : AccountStore} (hl : op.locks = true) :
    (op.decision hashes.toPinHashes a user).Made a user ((PinRequest.pin op).Proves hashes.toPinHashes a.now user) := by
  cases op with
  | check u pin =>
    simp only [decision, pinCheck]
    split
    · exact .refused
    rename_i hlocked
    split
    · exact .refused
    split
    · refine .passed (Bool.eq_false_iff.2 hlocked) ?_
      rintro x ⟨⟩
      exact ⟨rfl, rfl, .inl rfl⟩
    · exact .failed (Bool.eq_false_iff.2 hlocked)
  | change u old_pin new_pin =>
    simp only [decision, pinChange]
    split
    · exact .refused
    rename_i hlocked
    split
    · exact .refused
    rename_i pin_hash hhash
    split
    · rename_i hpin
      refine .passed (Bool.eq_false_iff.2 hlocked) fun x hx => ?_
      split at hx <;> cases hx
      exact ⟨rfl, rfl, .inr ⟨pin_hash, hhash, hpin⟩⟩
    · exact .failed (Bool.eq_false_iff.2 hlocked)
  | resetConfirm u code new_pin =>
    simp only [decision, pinResetConfirm]
    split
    · exact .refused
    rename_i hlocked
    split
    · rename_i code_hash expires hcode hexpires
      split
      · exact .refused
      split
      · exact .expired
      rename_i hlive
      split
      · rename_i hmatch
        refine .passed (Bool.eq_false_iff.2 hlocked) fun x hx => ?_
        split at hx <;> cases hx
        exact ⟨rfl, rfl, .inr ⟨code_hash, expires, hcode, hexpires, not_lt.1 hlive, hmatch⟩⟩
      · exact .failed (Bool.eq_false_iff.2 hlocked)
    · exact .refused
  | setup | resetPin | invalidateSessions => cases hl

theorem PinOp.decision_justified {a : AccountStore} (h : (op.decision hashes.toPinHashes a user).outcome = some o) :
    PinWrite.Justified hashes a.settings ⟨.pin op, a.now, (op.decision hashes.toPinHashes a user).verified,
      ⟨op.user_id, user, o.new, o.deeds, []⟩, throttle, charge⟩ := by
  cases hl : op.locks with
  | true =>
    have hsetup : ¬∃ u pin, PinRequest.pin op = .pin (.setup u pin) := by
      rintro ⟨u, pin, hr⟩
      cases hr
      cases hl
    have hmade : (op.decision hashes.toPinHashes a user).Made a user _ := op.decision_made hl
    generalize op.decision hashes.toPinHashes a user = made at h hmade ⊢
    cases hmade with
    | refused => cases h
    | expired =>
      cases h
      exact ⟨rfl, nofun, nofun, fun hv => (hv rfl).elim, fun _ _ => ⟨rfl, rfl⟩, fun hne => (hne rfl).elim,
        fun hr => (hsetup hr).elim⟩
    | passed hopen hnew =>
      obtain ⟨hattempts, huntil, hhash⟩ := hnew o h
      exact ⟨rfl, nofun, fun _ => ⟨hattempts, huntil⟩, fun _ => hopen, nofun,
        fun hne => .inl (hhash.resolve_left hne), fun hr => (hsetup hr).elim⟩
    | failed hopen =>
      cases h
      exact ⟨rfl, fun _ => rfl, nofun, fun _ => hopen, nofun, fun hne => (hne wrongAttempt_hash).elim,
        fun hr => (hsetup hr).elim⟩
  | false =>
    cases op with
    | setup u pin =>
      simp only [decision, pinSetup] at h
      split at h
      · cases h
      rename_i hnone
      exact ⟨rfl, nofun, nofun, fun hv => (hv rfl).elim, nofun, fun _ => .inr ⟨u, pin, rfl⟩,
        fun _ => Bool.eq_false_iff.2 hnone⟩
    | check | change | resetConfirm => cases hl
    | resetPin u => exact ⟨rfl, nofun, nofun, fun hv => (hv rfl).elim, nofun, fun _ => .inl trivial, nofun⟩
    | invalidateSessions u =>
      cases h
      exact ⟨rfl, nofun, nofun, fun hv => (hv rfl).elim, nofun, fun hne => (hne rfl).elim, nofun⟩

/-- A request that sends a code changes nothing but the code. -/
theorem mint_justified {code : String} {time : Time} {u : ℕ} (hr : r = .resetRequest u code ∨ r = .resetPaid u code) :
    PinWrite.Justified hashes settings
      ⟨r, time, none, ⟨u, user, mintResetCode hashes s code user, [], []⟩, throttle, charge⟩ where
  user := by rcases hr with rfl | rfl <;> rfl
  failed := nofun
  passed := nofun
  unlocked hv := (hv rfl).elim
  plain _ _ := ⟨rfl, rfl⟩
  hash hne := (hne rfl).elim
  setup hs := by
    obtain ⟨v, pin, hs⟩ := hs
    rcases hr with rfl | rfl <;> cases hs

/-! ## One move -/

/-- A request under the lock of its user commits over the row it loaded. -/
def PinWrite.Fresh (w : PinWrite) (s : PinStore) (held : List PinLock) : Prop :=
  w.request.locks = true → .user w.write.user_id ∈ held ∧ s.accounts.users.row w.write.user_id = some w.write.seen

/-- What a request relies on. -/
def RequestPc.Keeps (hashes : ResetHashes) (settings : AccountSettings) (s : PinStore) (held : List PinLock) :
    RequestPc → Prop
  | .reload r => .user r.user_id ∈ held
  | .readPrice u _ user | .readCurrency u _ user _ | .lockBalance u _ user _ _ | .charge u _ user _ _ =>
    .user u ∈ held ∧ s.accounts.users.row u = some user
  | .update w => w.Justified hashes settings ∧ w.Fresh s held
  | .commit w => w.Justified hashes settings ∧ w.Fresh s held ∧ .user w.write.user_id ∈ held
  | _ => True

/-- The request that is at this place. -/
def RequestPc.request : RequestPc → Option PinRequest
  | .load r | .lockUser r | .reload r => some r
  | .readPrice u code _ | .readCurrency u code _ _ | .lockBalance u code _ _ _ | .charge u code _ _ _ =>
    some (.resetPaid u code)
  | .update w | .commit w => some w.request
  | .finished => none

/-- A step that commits no user; a verification it makes is of an unlocked row. -/
structure UsersKept (s t : PinStore) : Prop where
  users : t.accounts.users = s.accounts.users
  settings : t.accounts.settings = s.accounts.settings
  commits : t.commits = s.commits
  checks : ∀ c ∈ t.checks, c ∈ s.checks ∨ isLocked c.time c.row = false

theorem UsersKept.refl : UsersKept s s := ⟨rfl, rfl, rfl, fun _ hc => .inl hc⟩

theorem Elsewhere.kept (h : Elsewhere s t) : UsersKept s t :=
  ⟨h.users, h.settings, h.commits, fun _ hc => .inl (h.checks ▸ hc)⟩

theorem PinOp.verified_unlocked {a : AccountStore} {passed : Bool}
    (h : (op.decision hashes.toPinHashes a user).verified = some passed) : isLocked a.now user = false := by
  cases hl : op.locks with
  | true =>
    have hmade : (op.decision hashes.toPinHashes a user).Made a user _ := op.decision_made hl
    generalize op.decision hashes.toPinHashes a user = made at h hmade
    cases hmade with
    | refused | expired => cases h
    | passed hopen | failed hopen => exact hopen
  | false =>
    cases op with
    | setup | resetPin | invalidateSessions => cases h
    | check | change | resetConfirm => cases hl

theorem noteCheck_kept : UsersKept s (s.noteCheck hashes r) := by
  unfold PinStore.noteCheck
  split
  · exact .refl
  rename_i row hrow
  split
  · exact .refl
  rename_i passed hv
  refine ⟨rfl, rfl, rfl, fun c hc => ?_⟩
  rcases List.mem_append.1 hc with hc | hc
  · exact .inl hc
  · cases List.mem_singleton.1 hc
    refine .inr ?_
    cases r with
    | pin op => exact PinOp.verified_unlocked hv
    | resetRequest | resetPaid => cases hv

theorem PinWrite.commit_eq (h : s.accounts.users.row w.write.user_id = some cur) :
    (w.commit s).commits = s.commits ++ [⟨w.request, w.time, w.verified, cur, flush w.write.seen w.write.new cur⟩] ∧
      (w.commit s).checks = s.checks ∧ (w.commit s).accounts.settings = s.accounts.settings ∧
      ∀ u, (w.commit s).accounts.users.row u =
        if u = w.write.user_id then some (flush w.write.seen w.write.new cur) else s.accounts.users.row u := by
  simp only [PinWrite.commit, UserWrite.commit, AccountStore.flushUser, AccountStore.note, h]
  exact ⟨trivial, trivial, trivial, fun u => Table.set_row h⟩

theorem PinWrite.commit_gone (h : s.accounts.users.row w.write.user_id = none) : w.commit s = s := by
  rw [PinWrite.commit, h]

/-- A request relies on the rows it has locked, and on no others. -/
theorem RequestPc.Keeps.stable {pc : RequestPc} {held : List PinLock} (h : pc.Keeps hashes settings s held)
    (hrows : ∀ u, .user u ∈ held → t.accounts.users.row u = s.accounts.users.row u) : pc.Keeps hashes settings t held := by
  cases pc with
  | load | lockUser | reload | finished => exact h
  | readPrice u | readCurrency u | lockBalance u | charge u => exact ⟨h.1, (hrows u h.1).trans h.2⟩
  | update w => exact ⟨h.1, fun hl => ⟨(h.2 hl).1, (hrows _ (h.2 hl).1).trans (h.2 hl).2⟩⟩
  | commit w => exact ⟨h.1, fun hl => ⟨(h.2.1 hl).1, (hrows _ (h.2.1 hl).1).trans (h.2.1 hl).2⟩, h.2.2⟩

variable (hashes) in
/-- On the row it has just loaded, under the lock if it takes one. -/
theorem decided_keeps {held : List PinLock} (hrow : s.accounts.users.row r.user_id = some user)
    (hheld : r.locks = true → .user r.user_id ∈ held) :
    (r.decided hashes s user).Keeps hashes s.accounts.settings s held ∧
      ∀ r', (r.decided hashes s user).request = some r' → r' = r := by
  cases r with
  | pin op =>
    simp only [PinRequest.decided]
    split
    · exact ⟨trivial, nofun⟩
    · rename_i o ho
      exact ⟨⟨op.decision_justified ho, fun hl => ⟨hheld hl, hrow⟩⟩, fun r' hr => (Option.some_inj.1 hr).symm⟩
  | resetRequest u code =>
    simp only [PinRequest.decided]
    split
    · exact ⟨trivial, nofun⟩
    · exact ⟨⟨mint_justified (.inl rfl), fun hl => ⟨hheld hl, hrow⟩⟩, fun r' hr => (Option.some_inj.1 hr).symm⟩
  | resetPaid u code => exact ⟨⟨hheld rfl, hrow⟩, fun r' hr => (Option.some_inj.1 hr).symm⟩

/-- A statement keeps what its request relies on, and commits nothing or the row it is about to. -/
theorem pin_move {S : PinSys} {i : ℕ} {x y : Transactions.Session PinLock RequestPc}
    (h : Moves (RequestPc.move hashes) S i x y t) (hx : x.pc.Keeps hashes S.store.accounts.settings S.store x.held) :
    y.pc.Keeps hashes S.store.accounts.settings t y.held ∧ (∀ r, y.pc.request = some r → x.pc.request = some r) ∧
      (UsersKept S.store t ∨ ∃ w, x.pc = .commit w ∧ t = w.commit S.store) := by
  obtain ⟨pc, held⟩ := x
  cases pc with
  | load r =>
    obtain ⟨rfl, rfl⟩ := h.of_read rfl
    simp only
    split
    · exact ⟨trivial, nofun, .inl .refl⟩
    rename_i user hrow
    split
    · split
      · exact ⟨trivial, fun r' hr => hr, .inl .refl⟩
      · exact ⟨trivial, nofun, .inl .refl⟩
    · rename_i hl
      obtain ⟨hkeeps, hreq⟩ := decided_keeps hashes hrow fun hl' => absurd hl' hl
      exact ⟨hkeeps, fun r' hr => (hreq r' hr) ▸ rfl, .inl .refl⟩
  | lockUser r =>
    obtain ⟨rfl, rfl⟩ := h.of_lock rfl
    exact ⟨List.mem_cons_self, fun r' hr => hr, .inl .refl⟩
  | reload r =>
    obtain ⟨rfl, rfl⟩ := h.of_exchange rfl
    have hquiet : UsersKept S.store (S.store.noteCheck hashes r) := noteCheck_kept
    simp only
    split
    · exact ⟨trivial, nofun, .inl hquiet⟩
    · rename_i user hrow
      obtain ⟨hkeeps, hreq⟩ := decided_keeps hashes hrow fun _ => hx
      exact ⟨hkeeps.stable fun u _ => by rw [hquiet.users], fun r' hr => (hreq r' hr) ▸ rfl, .inl hquiet⟩
  | readPrice u code user =>
    obtain ⟨rfl, rfl⟩ := h.of_read rfl
    exact ⟨hx, fun r' hr => hr, .inl .refl⟩
  | readCurrency u code user price =>
    obtain ⟨rfl, rfl⟩ := h.of_read rfl
    simp only
    split
    · exact ⟨trivial, nofun, .inl .refl⟩
    split
    · exact ⟨⟨mint_justified (.inr rfl), fun _ => hx⟩, fun r' hr => hr, .inl .refl⟩
    · exact ⟨hx, fun r' hr => hr, .inl .refl⟩
  | lockBalance u code user price usd =>
    obtain ⟨rfl, rfl⟩ := h.of_lock rfl
    exact ⟨⟨List.mem_cons_of_mem _ hx.1, hx.2⟩, fun r' hr => hr, .inl .refl⟩
  | charge u code user price usd =>
    obtain ⟨rfl, rfl⟩ := h.of_read rfl
    simp only
    split
    · exact ⟨trivial, nofun, .inl .refl⟩
    · exact ⟨⟨mint_justified (.inr rfl), fun _ => hx⟩, fun r' hr => hr, .inl .refl⟩
  | update w =>
    obtain ⟨rfl, rfl⟩ := h.of_lock rfl
    exact ⟨⟨hx.1, fun hl => ⟨List.mem_cons_self, (hx.2 hl).2⟩, List.mem_cons_self⟩, fun r' hr => hr, .inl .refl⟩
  | commit w =>
    obtain ⟨rfl, rfl⟩ := h.of_commit rfl
    exact ⟨trivial, nofun, .inr ⟨w, rfl, rfl⟩⟩
  | finished => exact (h.of_done rfl).elim

/-- The proof rule for these requests: an invariant kept by steps that commit no
user, and by the justified commits of the requests that were started, over the
row they loaded if they lock it. -/
theorem pin_outline {Ok : Event PinRequest → PinSys → Prop} {P : PinRequest → Prop} {I : PinStore → Prop}
    {start : PinStore} {T : PinSys} (h : Reach (PinStep hashes) Ok (.idle start) T) (h0 : I start)
    (hstart : ∀ S r, Ok (.start r) S → P r) (hquiet : ∀ s t, I s → UsersKept s t → I t)
    (hcommit : ∀ (S : PinSys) i x w cur, I S.store → Ok (.move i) S → S.sessions.row i = some x → x.pc = .commit w →
      P w.request → w.Justified hashes start.accounts.settings →
      S.store.accounts.users.row w.write.user_id = some cur → (w.request.locks = true → cur = w.write.seen) →
      I (w.commit S.store)) : I T.store := by
  have hx := h.with_invariant (I := fun S => S.Exclusive) fun S hS => exclusive hS
  have hI := (outline_started (I := fun s => I s ∧ s.accounts.settings = start.accounts.settings)
    (L := fun s _ x => x.pc.Keeps hashes start.accounts.settings s x.held ∧ ∀ r, x.pc.request = some r → P r)
    hx ⟨h0, rfl⟩ ?_ ?_ ?_).1
  · exact hI.1
  · rintro S r i - ⟨hok, -⟩
    exact ⟨trivial, fun r' hr => Option.some_inj.1 hr ▸ hstart S r hok⟩
  · rintro S i x y t ⟨hI, hset⟩ hL ⟨hok, hexcl⟩ hx hmove
    obtain ⟨hkeeps, hP⟩ := hL i x hx
    obtain ⟨hy, hreq, hdo⟩ := pin_move hmove (hset ▸ hkeeps)
    rcases hdo with hq | ⟨w, hpc, rfl⟩
    · refine ⟨⟨hquiet _ _ hI hq, hq.settings.trans hset⟩, ⟨hset ▸ hy, fun r hr => hP r (hreq r hr)⟩, fun j z _ hz => ?_⟩
      exact ⟨(hL j z hz).1.stable fun u _ => by rw [hq.users], (hL j z hz).2⟩
    · rw [hpc] at hkeeps
      obtain ⟨hjust, hfresh, hheld⟩ := hkeeps
      cases hcur : S.store.accounts.users.row w.write.user_id with
      | none =>
        rw [PinWrite.commit_gone hcur] at hy ⊢
        exact ⟨⟨hI, hset⟩, ⟨hset ▸ hy, fun r hr => hP r (hreq r hr)⟩, fun j z _ hz => hL j z hz⟩
      | some cur =>
        obtain ⟨-, -, hsettings, hrows⟩ := PinWrite.commit_eq hcur
        refine ⟨⟨hcommit S i x w cur hI hok hx hpc (hP _ (hpc ▸ rfl)) hjust hcur fun hl => ?_, hsettings.trans hset⟩,
          ⟨hset ▸ hy, fun r hr => hP r (hreq r hr)⟩, fun j z hj hz => ?_⟩
        · exact Option.some_inj.1 (hcur.symm.trans (hfresh hl).2)
        -- nobody else holds the row that changes
        · refine ⟨(hL j z hz).1.stable fun u hu => ?_, (hL j z hz).2⟩
          rw [hrows, if_neg]
          rintro rfl
          exact hexcl j z hz _ hu i x (Ne.symm hj) hx hheld
  · rintro S t ⟨hI, hset⟩ - helse
    refine ⟨⟨hquiet _ _ hI helse.kept, helse.settings.trans hset⟩, fun j z _ hz => ?_⟩
    exact ⟨hz.1.stable fun u _ => by rw [helse.users], hz.2⟩

end

end Garant
