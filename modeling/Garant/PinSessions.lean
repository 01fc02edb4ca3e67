import Garant.Accounts
import Garant.Lib.Text
/-!
# PIN sessions

`routers/pin.py`, the two admin actions of `routers/admin/users.py` that revoke
sessions, and `require_pin_session`. `pin_check`, `pin_change` and
`pin_reset_confirm` load the user again under a lock and act on that; the others
act on the row as they loaded it at first, without a lock.

Where a request refuses and commits nothing, it ends. What an operation decides
comes with the verification of a PIN or a reset code it made on the way
(`PinDecision`).
-/
open Transactions

namespace Garant

/-- The hashes of `pin.py`. -/
structure PinHashes where
  hash_pin : String → String
  verify_pin : String → String → Bool
  verify_reset_code : String → String → Bool

/-! ## Which PINs are taken -/

/-- `is_pin_format_valid`: four digits, of any script. -/
def isPinFormatValid (pin : String) : Bool := pin.length = 4 && pin.toList.all fun c => (Text.decimalValue c).isSome

/-- `COMMON_PINS`. -/
def commonPins : List String :=
  ["0000", "1111", "2222", "3333", "4444", "5555", "6666", "7777", "8888", "9999", "1234", "0123", "4321", "9876",
    "2345", "3456", "4567", "5678", "6789", "0987", "8765", "7654", "6543", "5432", "3210", "1212", "2121", "1313",
    "1010", "2020", "3030", "4040", "5050", "6060", "7070", "8080", "9090", "1122", "2233", "3344", "4455", "5566",
    "1414", "2580", "1379", "3690", "0258", "0852", "1470", "0147", "7410", "1593", "1960", "1961", "1962", "1963",
    "1964", "1965", "1966", "1967", "1968", "1969", "1970", "1971", "1972", "1973", "1974", "1975", "1976", "1977",
    "1978", "1979", "1980", "1981", "1982", "1983", "1984", "1985", "1986", "1987", "1988", "1989", "1990", "1991",
    "1992", "1993", "1994", "1995", "1996", "1997", "1998", "1999", "2000", "2001", "2002", "2010", "1004", "6969",
    "4242", "0420", "0007", "0911", "1701", "2468", "1337"]

/-- `is_pin_too_common`. -/
def isPinTooCommon (pin : String) : Bool := pin ∈ commonPins

/-- `_ensure_format`, then `_ensure_strong`. -/
def acceptsPin (pin : String) : Bool := isPinFormatValid pin && !isPinTooCommon pin

example : (acceptsPin "7391", acceptsPin "1111", acceptsPin "739") = (true, false, false) := by decide +kernel

/-! ## What the operations decide -/

/-- Python truth of a nullable text column. -/
def present (x : Option String) : Bool := x.any (· ≠ "")

/-- `_is_locked`. -/
def isLocked (now : Time) (user : UserAccount) : Bool := user.pin_locked_until.any (now < ·)

/-- A wrong PIN or reset code counts, and too many lock. -/
def wrongAttempt (settings : AccountSettings) (now : Time) (user : UserAccount) : UserAccount :=
  if settings.pin_max_attempts ≤ user.pin_attempts + 1 then
    { user with pin_locked_until := some (now + seconds (settings.pin_lock_minutes * 60)), pin_attempts := 0 }
  else { user with pin_attempts := user.pin_attempts + 1 }

/-- What a request commits, and whether it then hands out a PIN token. -/
structure PinOutcome where
  new : UserAccount
  deeds : List Deed
  mint : Bool

/-- The verification an operation made of a PIN or a reset code, and what it commits. -/
structure PinDecision where
  verified : Option Bool
  outcome : Option PinOutcome

def PinDecision.refused : PinDecision := ⟨none, none⟩

def PinDecision.failed (s : AccountStore) (user : UserAccount) : PinDecision :=
  ⟨some false, some ⟨wrongAttempt s.settings s.now user, [], false⟩⟩

section
variable (hashes : PinHashes) (s : AccountStore) (user_id : ℕ) (user : UserAccount)

/-- `pin_setup`. -/
def pinSetup (pin : String) : Option PinOutcome :=
  if present user.pin_hash then none
  else if acceptsPin pin = false then none
  else some
    ⟨{ user with
        pin_hash := some (hashes.hash_pin pin), pin_attempts := 0, pin_locked_until := none,
        pin_reset_code_hash := none, pin_reset_expires := none, pin_last_activity_at := some s.now },
      [], true⟩

/-- `pin_check`, under the lock. -/
def pinCheck (pin : String) : PinDecision :=
  if isLocked s.now user then .refused
  else match user.pin_hash with
  | none => .refused
  | some pin_hash =>
    if hashes.verify_pin pin pin_hash then
      ⟨some true, some
        ⟨{ user with pin_attempts := 0, pin_locked_until := none, pin_last_activity_at := some s.now }, [], true⟩⟩
    else .failed s user

/-- `pin_change`, under the lock. A PIN too common is refused only once the old one has been verified. -/
def pinChange (old_pin new_pin : String) : PinDecision :=
  if isLocked s.now user then .refused
  else match user.pin_hash with
  | none => .refused
  | some pin_hash =>
    if hashes.verify_pin old_pin pin_hash then
      ⟨some true, if isPinTooCommon new_pin then none else some
        ⟨{ user with
            pin_hash := some (hashes.hash_pin new_pin), pin_attempts := 0, pin_locked_until := none,
            pin_session_epoch := user.pin_session_epoch + 1, pin_last_activity_at := some s.now },
          [.revoked .pin user_id], true⟩⟩
    else .failed s user

/-- `pin_reset_confirm`, under the lock. -/
def pinResetConfirm (code new_pin : String) : PinDecision :=
  if isLocked s.now user then .refused
  else match user.pin_reset_code_hash, user.pin_reset_expires with
  | some code_hash, some expires =>
    if code_hash = "" then .refused
    else if expires < s.now then
      ⟨none, some ⟨{ user with pin_reset_code_hash := none, pin_reset_expires := none }, [], false⟩⟩
    else if hashes.verify_reset_code code code_hash then
      ⟨some true, if isPinTooCommon new_pin then none else some
        ⟨{ user with
            pin_hash := some (hashes.hash_pin new_pin), pin_attempts := 0, pin_locked_until := none,
            pin_reset_code_hash := none, pin_reset_expires := none,
            pin_session_epoch := user.pin_session_epoch + 1, pin_last_activity_at := some s.now },
          [.revoked .pin user_id], true⟩⟩
    else .failed s user
  | _, _ => .refused

/-- `reset_pin`. -/
def resetPin : Option PinOutcome :=
  if present user.pin_hash || present user.pin_reset_code_hash then some
    ⟨{ user with
        pin_hash := none, pin_attempts := 0, pin_locked_until := none, pin_reset_code_hash := none,
        pin_reset_expires := none, pin_session_epoch := user.pin_session_epoch + 1 },
      [.revoked .pin user_id], false⟩
  else none

/-- `invalidate_sessions`. -/
def invalidateSessions : Option PinOutcome := some
  ⟨{ user with
      pin_session_epoch := user.pin_session_epoch + 1, totp_session_epoch := user.totp_session_epoch + 1 },
    [.revoked .pin user_id, .revoked .totp user_id], false⟩

end

/-! ## The requests -/

/-- The operation and whom it is about. -/
inductive PinOp
  | setup (user_id : ℕ) (pin : String)
  | check (user_id : ℕ) (pin : String)
  | change (user_id : ℕ) (old_pin new_pin : String)
  | resetConfirm (user_id : ℕ) (code new_pin : String)
  | resetPin (user_id : ℕ)
  | invalidateSessions (user_id : ℕ)
deriving DecidableEq

namespace PinOp

def user_id : PinOp → ℕ
  | setup u _ | check u _ | change u _ _ | resetConfirm u _ _ | resetPin u | invalidateSessions u => u

/-- Goes through `_lock_user_for_pin`. -/
def locks : PinOp → Bool
  | check .. | change .. | resetConfirm .. => true
  | _ => false

/-- What is checked on the body and the unlocked row before that. -/
def precheck (user : UserAccount) : PinOp → Bool
  | check _ pin => present user.pin_hash && isPinFormatValid pin
  | change _ old_pin new_pin => present user.pin_hash && isPinFormatValid old_pin && isPinFormatValid new_pin
  | resetConfirm _ code new_pin => code.length = 6 && isPinFormatValid new_pin
  | _ => true

/-- What the operation does with the row. -/
def decision (hashes : PinHashes) (s : AccountStore) (user : UserAccount) : PinOp → PinDecision
  | setup _ pin => ⟨none, pinSetup hashes s user pin⟩
  | check _ pin => pinCheck hashes s user pin
  | change u old_pin new_pin => pinChange hashes s u user old_pin new_pin
  | resetConfirm u code new_pin => pinResetConfirm hashes s u user code new_pin
  | resetPin u => ⟨none, Garant.resetPin u user⟩
  | invalidateSessions u => ⟨none, Garant.invalidateSessions u user⟩

end PinOp

/-- Where a request is. -/
inductive PinPc
  /-- Loads the user without a lock. -/
  | load (op : PinOp)
  | lockUser (op : PinOp)
  /-- Loads the user again under the lock (`populate_existing`). -/
  | reload (op : PinOp)
  /-- The `UPDATE`, which locks the row if the request has not. -/
  | update (w : UserWrite) (mint : Bool)
  | commit (w : UserWrite) (mint : Bool)
  /-- `_token_response`. -/
  | mint (user_id epoch : ℕ)
  | finished
deriving DecidableEq

/-- On with the row that the operation has loaded last. -/
def PinPc.decided (hashes : PinHashes) (op : PinOp) (s : AccountStore) (user : UserAccount) : PinPc :=
  match (op.decision hashes s user).outcome with
  | none => .finished
  | some o => .update ⟨op.user_id, user, o.new, o.deeds, []⟩ o.mint

/-- The next statement. -/
def PinPc.move (hashes : PinHashes) : PinPc → Move AccountStore AccountLock PinPc
  | .load op => .read fun s => match s.users.row op.user_id with
    | none => .finished
    | some user =>
      if op.locks then if op.precheck user then .lockUser op else .finished
      else .decided hashes op s user
  | .lockUser op => .lock (.user op.user_id) (.reload op)
  | .reload op => .read fun s => match s.users.row op.user_id with
    | none => .finished
    | some user => .decided hashes op s user
  | .update w minting => .lock (.user w.user_id) (.commit w minting)
  | .commit w minting => .commit w.commit fun s =>
      if minting ∧ (s.users.row w.user_id).isSome then .mint w.user_id w.new.pin_session_epoch else .finished
  | .mint u epoch => .exchange
      (fun s => s.note [.issued .pin ⟨u, epoch, s.now + seconds s.settings.pin_session_jwt_ttl_seconds⟩])
      fun _ => .finished
  | .finished => .done

/-- `require_pin_session` for a request of the user that shows the token. -/
def requirePinSession (s : AccountStore) (user_id : ℕ) (token : SessionToken) : Bool :=
  match s.users.row user_id with
  | none => false
  | some user =>
    present user.pin_hash && s.now < token.exp && token.user_id = user_id && token.epoch = user.pin_session_epoch &&
      user.pin_last_activity_at.all fun last => ¬ seconds s.settings.pin_session_ttl_seconds < s.now - last

end Garant
