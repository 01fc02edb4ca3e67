import Garant.Lib.Transactions
import Garant.Schema
/-!
# Accounts and their credentials

The columns of `users` that say who a row belongs to and what proves it, the
one-time transfer codes, and the tokens handed out. Every request here runs
against `AccountStore` one statement at a time (`Lib.Transactions`): a row loaded
without a lock keeps the value it was loaded with, and a commit writes only the
columns the request changed (`flush`).

`history` is not in the program. It lists what was committed or handed out, in
order, so that the order can be spoken of.
-/
open Transactions

namespace Garant

/-- `users`: identity, PIN and TOTP columns. -/
structure UserAccount where
  tg_user_id : ℤ
  username : Option String
  display_name : String
  photo_url : Option String
  trust_deposit_balance : Money
  pin_hash : Option String
  pin_attempts : ℕ
  pin_locked_until : Option Time
  pin_reset_code_hash : Option String
  pin_reset_expires : Option Time
  pin_last_activity_at : Option Time
  pin_session_epoch : ℕ
  totp_secret : Option String
  totp_enabled : Bool
  totp_last_counter : ℤ
  totp_session_epoch : ℕ
deriving DecidableEq

/-- `account_transfer_codes`. -/
structure AccountTransferCode where
  source_user_id : ℕ
  code_hash : String
  expires_at : Time
  consumed_at : Option Time
  target_tg_user_id : Option ℤ
  created_at : Time
deriving DecidableEq

/-- What a PIN or TOTP session token says. -/
structure SessionToken where
  user_id : ℕ
  epoch : ℕ
  exp : Time
deriving DecidableEq

/-- The two kinds of session tokens, each with its own epoch. -/
inductive SessionKind
  | pin
  | totp
deriving DecidableEq

def UserAccount.epoch : SessionKind → UserAccount → ℕ
  | .pin, a => a.pin_session_epoch
  | .totp, a => a.totp_session_epoch

/-- One thing that happened. -/
inductive Deed
  /-- `confirm_transfer` took the code for the target. -/
  | used (code_id target_id : ℕ)
  /-- The code was consumed without a transfer. -/
  | withdrawn (code_id : ℕ)
  /-- A session token was handed out. -/
  | issued (kind : SessionKind) (token : SessionToken)
  /-- The commit of an operation that revokes the user's sessions. -/
  | revoked (kind : SessionKind) (user_id : ℕ)
  /-- A TOTP code was found valid, and its counter not used. -/
  | accepted (user_id : ℕ) (secret : String) (counter : ℤ)
  /-- Another secret was committed. -/
  | rekeyed (user_id : ℕ)
deriving DecidableEq

structure AccountSettings where
  account_transfer_code_ttl_seconds : ℤ
  pin_max_attempts : ℕ
  pin_lock_minutes : ℤ
  pin_session_ttl_seconds : ℤ
  pin_session_jwt_ttl_seconds : ℤ
  totp_session_ttl_seconds : ℤ

/-- The state the requests share. -/
structure AccountStore where
  settings : AccountSettings
  now : Time
  users : Table UserAccount
  transfer_codes : Table AccountTransferCode
  /-- Whether other tables hold anything of the user: a deal, a service, a
  review, a deposit, a withdrawal or funds. -/
  tradable : ℕ → Bool
  /-- The Redis keys `totp-claim:{user}:{counter}` and when they expire. -/
  totp_claims : ℕ → ℤ → Option Time
  history : List Deed

/-- A row that a statement locks. -/
inductive AccountLock
  | user (id : ℕ)
  | code (id : ℕ)
deriving DecidableEq

/-! ## Writing a row back -/

/-- A column: changed ones are written, the others stay as they are. -/
def column {α : Type} [DecidableEq α] (seen new cur : α) : α := if new = seen then cur else new

/-- The `UPDATE` of a row that was loaded as `seen` and is now `new` in the
session, over the committed `cur`. -/
def flush (seen new cur : UserAccount) : UserAccount where
  tg_user_id := column seen.tg_user_id new.tg_user_id cur.tg_user_id
  username := column seen.username new.username cur.username
  display_name := column seen.display_name new.display_name cur.display_name
  photo_url := column seen.photo_url new.photo_url cur.photo_url
  trust_deposit_balance := column seen.trust_deposit_balance new.trust_deposit_balance cur.trust_deposit_balance
  pin_hash := column seen.pin_hash new.pin_hash cur.pin_hash
  pin_attempts := column seen.pin_attempts new.pin_attempts cur.pin_attempts
  pin_locked_until := column seen.pin_locked_until new.pin_locked_until cur.pin_locked_until
  pin_reset_code_hash := column seen.pin_reset_code_hash new.pin_reset_code_hash cur.pin_reset_code_hash
  pin_reset_expires := column seen.pin_reset_expires new.pin_reset_expires cur.pin_reset_expires
  pin_last_activity_at := column seen.pin_last_activity_at new.pin_last_activity_at cur.pin_last_activity_at
  pin_session_epoch := column seen.pin_session_epoch new.pin_session_epoch cur.pin_session_epoch
  totp_secret := column seen.totp_secret new.totp_secret cur.totp_secret
  totp_enabled := column seen.totp_enabled new.totp_enabled cur.totp_enabled
  totp_last_counter := column seen.totp_last_counter new.totp_last_counter cur.totp_last_counter
  totp_session_epoch := column seen.totp_session_epoch new.totp_session_epoch cur.totp_session_epoch

section
variable {α : Type} [DecidableEq α] {seen new cur : α}

@[simp] theorem column_unchanged : column seen seen cur = cur := if_pos rfl

theorem column_changed (h : new ≠ seen) : column seen new cur = new := if_neg h

/-- Nothing is lost where the row is still as it was loaded. -/
@[simp] theorem column_fresh : column seen new seen = new := by
  unfold column
  split
  · next h => exact h.symm
  · rfl
end

@[simp] theorem flush_fresh (seen new : UserAccount) : flush seen new seen = new := by
  simp only [flush, column_fresh]

@[simp] theorem flush_unchanged (seen cur : UserAccount) : flush seen seen cur = cur := by
  simp only [flush, column_unchanged]

/-- Writes a loaded row back under its key; a row that is gone stays gone. -/
def AccountStore.flushUser (s : AccountStore) (user_id : ℕ) (seen new : UserAccount) : AccountStore :=
  match s.users.row user_id with
  | none => s
  | some cur => { s with users := s.users.set user_id (flush seen new cur) }

theorem AccountStore.flushUser_row {s : AccountStore} {user_id i : ℕ} {seen new b : UserAccount}
    (h : (s.flushUser user_id seen new).users.row i = some b) :
    ∃ a, s.users.row i = some a ∧ b = if i = user_id then flush seen new a else a := by
  unfold AccountStore.flushUser at h
  split at h
  · next hnone =>
    refine ⟨b, h, ?_⟩
    rw [if_neg]
    rintro rfl
    rw [hnone] at h
    cases h
  · next cur hcur =>
    rw [Table.set_row hcur] at h
    split at h
    · next hi =>
      subst hi
      cases h
      exact ⟨cur, hcur, by rw [if_pos rfl]⟩
    · next hi => exact ⟨b, h, by rw [if_neg hi]⟩

/-- Adds to what happened. -/
def AccountStore.note (s : AccountStore) (deeds : List Deed) : AccountStore := { s with history := s.history ++ deeds }

/-- A row that a request has loaded and changed, and what its commit stands
for: `deeds` under the secret committed so far, `after` under the new one. -/
structure UserWrite where
  user_id : ℕ
  seen : UserAccount
  new : UserAccount
  deeds : List Deed
  after : List Deed
deriving DecidableEq

/-- The commit of the `UPDATE`. If the row is gone the transaction rolls back. -/
def UserWrite.commit (w : UserWrite) (s : AccountStore) : AccountStore :=
  match s.users.row w.user_id with
  | none => s
  | some cur =>
    let rekeyed := if (flush w.seen w.new cur).totp_secret = cur.totp_secret then [] else [.rekeyed w.user_id]
    (s.flushUser w.user_id w.seen w.new).note (w.deeds ++ rekeyed ++ w.after)

/-! ## Sample -/

def sampleAccount (tg_user_id : ℤ) : UserAccount where
  tg_user_id := tg_user_id
  username := none
  display_name := ""
  photo_url := none
  trust_deposit_balance := ⟨0, by decide⟩
  pin_hash := none
  pin_attempts := 0
  pin_locked_until := none
  pin_reset_code_hash := none
  pin_reset_expires := none
  pin_last_activity_at := none
  pin_session_epoch := 0
  totp_secret := none
  totp_enabled := false
  totp_last_counter := -1
  totp_session_epoch := 0

/-- Three users, and a live transfer code of the first. -/
def sampleAccounts : AccountStore where
  settings := ⟨300, 5, 15, 1800, 86400, 86400⟩
  now := 0
  users := ((Table.empty.insert (sampleAccount 101)).insert (sampleAccount 102)).insert (sampleAccount 103)
  transfer_codes := Table.empty.insert ⟨1, "123456", seconds 300, none, none, 0⟩
  tradable := fun _ => false
  totp_claims := fun _ _ => none
  history := []

end Garant
