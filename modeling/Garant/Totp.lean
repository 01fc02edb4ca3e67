import Garant.Accounts
import Garant.Invoices
/-!
# TOTP codes

`auth_2fa.py` and `routers/admin/twofa.py`: how a code is verified, and the
four kinds of requests that verify one. Each loads the admin's row without a
lock when it starts. `_consume_totp` guards against replay with a Redis claim
where Redis answers, and with a conditional `UPDATE` where it does not; `enable`
and `disable` only compare with the counter they loaded.

`ADMIN_TOTP_BYPASS` is unset and `require_redis_for_2fa` is off.
-/
open Transactions

namespace Garant

def totpPeriod : ℤ := 30
def driftWindows : ℤ := 1
def totpDigits : ℕ := 6

/-- `verify_totp_and_counter`. `hotp` gives the code of a secret and a counter. -/
def verifyTotpAndCounter (hotp : String → ℤ → String) (secret code : String) (at_ : Time) : Option ℤ :=
  if secret = "" ∨ code = "" then none
  else
    let code := strip code
    if ¬ code.toList.all Char.isDigit ∨ code.length ≠ totpDigits then none
    else
      let counter := at_ / 1000000 / totpPeriod
      [-driftWindows, 0, driftWindows].findSome? fun delta =>
        if hotp secret (counter + delta) = code then some (counter + delta) else none

/-- `totp_last_counter or -1`. -/
def lastCounter (user : UserAccount) : ℤ := if user.totp_last_counter = 0 then -1 else user.totp_last_counter

/-- The secret of a user whose TOTP is on. -/
def activeSecret (user : UserAccount) : Option String := if user.totp_enabled then user.totp_secret.filter (· ≠ "") else none

/-- `validate_totp_session` for a request of the user that shows the token. -/
def validateTotpSession (s : AccountStore) (user_id : ℕ) (token : SessionToken) : Bool :=
  match s.users.row user_id with
  | none => false
  | some user =>
    s.now < token.exp && token.user_id = user_id && token.epoch = user.totp_session_epoch && user.totp_enabled

section
variable (hotp : String → ℤ → String) (now : Time) (user_id : ℕ) (user : UserAccount)

/-- A code that verifies against the user's secret and is above the last counter. -/
def freshCounter (secret code : String) : Option ℤ :=
  (verifyTotpAndCounter hotp secret code now).filter (lastCounter user < ·)

/-- What the enrolment and rotation form sends, and what `_pop_pending` returns. -/
structure EnableForm where
  secret : Option String
  code : String
  current_code : Option String
  pending : Option String
deriving DecidableEq

/-- The end of `enable`, once the secret is known. -/
def enableWith (secret code : String) (deeds : List Deed) : Option UserWrite :=
  (verifyTotpAndCounter hotp secret code now).map fun new_counter =>
    ⟨user_id, user,
      { user with
        totp_secret := some secret, totp_enabled := true, totp_last_counter := new_counter,
        totp_session_epoch := user.totp_session_epoch + 1 },
      deeds, [.accepted user_id secret new_counter, .revoked .totp user_id]⟩

/-- `enable` for a user whose TOTP is on. -/
def rotateTotp (current : String) (form : EnableForm) : Option UserWrite := do
  let current_code ← form.current_code.filter (· ≠ "")
  let current_counter ← freshCounter hotp now user current current_code
  let secret ← form.secret.filter (· ≠ "") <|> form.pending.filter (· ≠ "")
  if secret = current ∧ form.code = current_code then none
  else if secret = current ∧ (freshCounter hotp now user secret form.code).isNone then none
  else enableWith hotp now user_id user secret form.code [.accepted user_id current current_counter]

/-- `enable` for a user whose TOTP is off. -/
def enrolTotp (form : EnableForm) : Option UserWrite := do
  let pending ← form.pending
  if form.secret.any (fun s => s ≠ "" ∧ s ≠ pending) then none
  else enableWith hotp now user_id user pending form.code []

/-- `enable`. -/
def enableTotp (form : EnableForm) : Option UserWrite :=
  match activeSecret user with
  | some current => rotateTotp hotp now user_id user current form
  | none => enrolTotp hotp now user_id user form

/-- `disable`. -/
def disableTotp (code : String) : Option UserWrite := do
  let secret ← activeSecret user
  let matched ← freshCounter hotp now user secret code
  pure ⟨user_id, user,
    { user with
      totp_last_counter := matched, totp_enabled := false, totp_secret := none,
      totp_session_epoch := user.totp_session_epoch + 1 },
    [.accepted user_id secret matched], [.revoked .totp user_id]⟩

/-- The write of `_consume_totp`. -/
def consumed (matched : ℤ) : UserWrite := ⟨user_id, user, { user with totp_last_counter := matched }, [], []⟩

end

/-! ## The requests -/

/-- The requests of an admin that verify a code. `redis` is whether Redis
answers this request. -/
inductive TotpOp
  | enable (user_id : ℕ) (form : EnableForm)
  | disable (user_id : ℕ) (code : String)
  /-- `open_session`. -/
  | openSession (user_id : ℕ) (code : String) (redis : Bool)
  /-- Any endpoint behind `TotpUser` or `TotpOrArbiterUser`. -/
  | gated (user_id : ℕ) (code : String) (redis : Bool)
deriving DecidableEq

namespace TotpOp

def user_id : TotpOp → ℕ
  | enable u _ | disable u _ | openSession u _ _ | gated u _ _ => u

end TotpOp

/-- A code that `_consume_totp` has verified against the loaded row. -/
structure Verified where
  user_id : ℕ
  user : UserAccount
  secret : String
  matched : ℤ
  /-- `open_session`, which hands out a token. -/
  mint : Bool
deriving DecidableEq

/-- Where a request is. -/
inductive TotpPc
  | load (op : TotpOp)
  /-- The Redis claim. -/
  | claim (v : Verified)
  /-- The conditional `UPDATE`: its snapshot, its row lock, and the check again. -/
  | conditional (v : Verified)
  | condLock (v : Verified)
  | condCheck (v : Verified)
  | condAccept (v : Verified)
  /-- The code is accepted; the request goes on and commits, or fails. -/
  | accepted (v : Verified)
  | commitAccepted (v : Verified)
  /-- `enable` and `disable`. -/
  | update (w : UserWrite)
  | commit (w : UserWrite)
  | mint (user_id epoch : ℕ)
  | finished
deriving DecidableEq

/-- `SET NX EX` on the claim: whether the key was free. -/
def AccountStore.claimFree (s : AccountStore) (user_id : ℕ) (counter : ℤ) : Bool :=
  (s.totp_claims user_id counter).all (· ≤ s.now)

def AccountStore.claimTotp (s : AccountStore) (v : Verified) : AccountStore :=
  if s.claimFree v.user_id v.matched then
    { s with
      totp_claims := fun u c => if u = v.user_id ∧ c = v.matched then
        some (s.now + seconds (totpPeriod * (2 * driftWindows + 1) + 1)) else s.totp_claims u c
      history := s.history ++ [.accepted v.user_id v.secret v.matched] }
  else s

section
variable (hotp : String → ℤ → String)

/-- `_consume_totp` up to its guards. -/
def TotpPc.consume (s : AccountStore) (user_id : ℕ) (user : UserAccount) (code : String) (redis mint : Bool) : TotpPc :=
  match activeSecret user with
  | none => .finished
  | some secret => match freshCounter hotp s.now user secret code with
    | none => .finished
    | some matched =>
      if redis then .claim ⟨user_id, user, secret, matched, mint⟩ else .conditional ⟨user_id, user, secret, matched, mint⟩

/-- On with the row that the request has loaded. -/
def TotpPc.decided (s : AccountStore) (user : UserAccount) : TotpOp → TotpPc
  | .enable u form => ((enableTotp hotp s.now u user form).map .update).getD .finished
  | .disable u code => ((disableTotp hotp s.now u user code).map .update).getD .finished
  | .openSession u code redis => .consume hotp s u user code redis true
  | .gated u code redis => .consume hotp s u user code redis false

/-- Whether the conditional `UPDATE` matches the row. -/
def AccountStore.below (s : AccountStore) (v : Verified) : Bool :=
  (s.users.row v.user_id).any fun cur => cur.totp_last_counter < v.matched

/-- The next statement. -/
def TotpPc.move : TotpPc → Move AccountStore AccountLock TotpPc
  | .load op => .read fun s => match s.users.row op.user_id with
    | none => .finished
    | some user => .decided hotp s user op
  | .claim v => .exchange (fun s => s.claimTotp v) fun s =>
      if s.claimFree v.user_id v.matched then .accepted v else .finished
  | .conditional v => .read fun s => if s.below v then .condLock v else .finished
  | .condLock v => .lock (.user v.user_id) (.condCheck v)
  | .condCheck v => .read fun s => if s.below v then .condAccept v else .finished
  | .condAccept v => .exchange (fun s => s.note [.accepted v.user_id v.secret v.matched]) fun _ => .accepted v
  | .accepted v => .lock (.user v.user_id) (.commitAccepted v)
  | .commitAccepted v => .commit (consumed v.user_id v.user v.matched).commit fun s =>
      if v.mint ∧ (s.users.row v.user_id).isSome then .mint v.user_id v.user.totp_session_epoch else .finished
  | .update w => .lock (.user w.user_id) (.commit w)
  | .commit w => .commit w.commit fun _ => .finished
  | .mint u epoch => .exchange
      (fun s => s.note [.issued .totp ⟨u, epoch, s.now + seconds s.settings.totp_session_ttl_seconds⟩])
      fun _ => .finished
  | .finished => .done

end

end Garant
