import Garant.InitData
import Garant.Invoices
import Garant.Accounts
import Garant.Lib.Transactions
/-!
# Signing in

`get_current_user` of `deps.py`, the handshake of `routers/ws.py` and
`ensure_user_row`, which both use for a Telegram id they have not met: an
`INSERT … ON CONFLICT` and a second `SELECT`. Requests run a statement at a time
and in any order, and rows are loaded without a lock.

`one_row_per_telegram_id`: no Telegram id and no username ever belongs to two
rows, and whoever is served is served as the row of the id that Telegram signed,
never as one that was locked out when it was last read. `sign_in_converges`:
while no account is transferred, all requests of one Telegram id are served as
one and the same row however they race, and a request fails only for a username
that another row has, for init data that cannot be read or for a value that a
column does not take. `sign_in_never_fails`: none does if every request is
`SignIn.Plain` and presents a username of its own Telegram id.
`session_counts`: `sessions_count` counts every pause of half an hour, and no
pause of 25 minutes or less.
-/
open Transactions

namespace Garant

/-! ## What a request brings -/

/-- The columns of `users` that signing in reads and writes. -/
structure LoginRow where
  tg_user_id : ℤ
  username : Option String
  display_name : String
  photo_url : Option String
  language_code : Option String
  last_ip : Option String
  last_login_at : Option Time
  login_count : ℕ
  sessions_count : ℕ
  is_admin : Bool
  is_banned : Bool
  ban_reason : Option String
  is_frozen : Bool
  freeze_reason : Option String
deriving DecidableEq

/-- A field of the signed user: its key is missing, or what it holds. -/
inductive UserField
  | missing
  | null
  | text (codes : List ℕ)
  | other (truthy : Bool)
deriving DecidableEq

/-- The fields of the signed user that signing in reads. -/
structure TgUser where
  id : ℤ
  username : UserField
  first_name : UserField
  photo_url : UserField
  language_code : UserField
deriving DecidableEq

/-- The settings, the peers in `TRUSTED_PROXIES`, and `str.lower` of code points. -/
structure LoginSettings where
  init_data : InitDataSettings
  trusted : String → Bool
  lower : List ℕ → List ℕ

/-- A request: a REST call with its headers, or the first frame of a socket,
`none` if it did not come in time. -/
inductive SignIn
  | rest (authorization peer forwarded_for real_ip : Option String) (now : Time)
  | ws (frame : Option String) (now : Time)
deriving DecidableEq

/-- Why a request ends before the database is asked. -/
inductive AuthFailure
  /-- 401, or the socket is closed with 4001. -/
  | unauthorized (detail : String)
  /-- Signed, but not what Telegram sends; nothing catches the exception. -/
  | badData
deriving DecidableEq

/-- Why a request fails with a 500, or a socket with a 1011. -/
inductive LoginCrash
  /-- The init data cannot be read, or its username is no text. -/
  | badData
  /-- A column does not take a value. -/
  | unstorable
  /-- Another row has the username. -/
  | nameTaken
  /-- The row is gone. -/
  | vanished
  /-- `scalar_one_or_none` met two rows. -/
  | twoRows
deriving DecidableEq

/-- How signing in ends. -/
inductive LoginAnswer
  | rejected (detail : String)
  /-- 403, with what the client shows. -/
  | lockedOut (code message : String) (reason admin_username : Option String)
  /-- The socket is closed with 4003. -/
  | refused
  | crashed (why : LoginCrash)
  | served (user_id : ℕ) (user : LoginRow)
deriving DecidableEq

def SignIn.now : SignIn → Time
  | .rest _ _ _ _ now => now
  | .ws _ now => now

/-- A REST request is a login, a handshake is not. -/
def SignIn.bumps : SignIn → Bool
  | .rest .. => true
  | .ws .. => false

/-! ## Who asks -/

/-- A text without surrogates. -/
def readText (codes : List ℕ) : Option String :=
  if codes.all (fun n => n.isValidChar) then some (String.ofList (codes.map Char.ofNat)) else none

def isObject : Json.Value → Bool
  | .obj _ => true
  | _ => false

/-- `not value`. -/
def falsy : Option Json.Value → Bool
  | none | some .null | some (.bool false) | some (.int 0) | some (.str []) | some (.arr []) | some (.obj []) => true
  | _ => false

/-- `tg_user.get(name)`. -/
def userField (user : Json.Value) (name : String) : UserField :=
  match user.get name.toList with
  | none => .missing
  | some .null => .null
  | some (.str codes) => .text codes
  | some v => .other (falsy (some v) = false)

/-- An id that a `BigInteger` holds. -/
def readId : Option Json.Value → Except AuthFailure ℤ
  | some (.int id) => if -2 ^ 63 ≤ id ∧ id < 2 ^ 63 then pure id else throw .badData
  | _ => throw .badData

/-- `tg_user.get("id")`, and the fields that are read later. -/
def tgUser (user : Json.Value) (no_id : String) : Except AuthFailure TgUser := do
  if isObject user = false then throw .badData
  if falsy (user.get "id".toList) then throw (.unauthorized no_id)
  let id ← readId (user.get "id".toList)
  pure ⟨id, userField user "username", userField user "first_name", userField user "photo_url",
    userField user "language_code"⟩

/-- `verify_init_data`, and what becomes of its exceptions. -/
def verified (settings : LoginSettings) (now : Time) (init_data : String) : Except AuthFailure Json.Value :=
  match verifyInitData settings.init_data (now / 1000000 : ℚ) init_data with
  | .ok user => pure user
  | .error (.init_data msg) => throw (.unauthorized msg)
  | .error _ => throw .badData

def _WS_AUTH_MAX_BYTES : ℕ := 8 * 1024

/-- `_read_auth_frame`. -/
def readAuthFrame : Option String → Except AuthFailure String
  | none => throw (.unauthorized "Auth timeout")
  | some raw =>
    if raw.length > _WS_AUTH_MAX_BYTES then throw (.unauthorized "Auth payload too large")
    else match Json.loads raw.toList with
      | none => throw (.unauthorized "Auth: invalid JSON")
      | some payload => match payload.get "type".toList with
        | some (.str type) =>
          if type ≠ Json.codePoints "auth".toList then throw (.unauthorized "Auth: bad envelope")
          else match payload.get "init_data".toList with
            | some (.str (c :: codes)) => match readText (c :: codes) with
              | some init_data => pure init_data
              | none => throw .badData -- `encode` refuses a surrogate
            | _ => throw (.unauthorized "Auth: missing init_data")
        | _ => throw (.unauthorized "Auth: bad envelope")

/-- The init string, from the header or the frame. -/
def SignIn.initData : SignIn → Except AuthFailure String
  | .rest authorization _ _ _ _ => do
    let header := authorization.getD ""
    if header = "" then throw (.unauthorized "Authorization header missing")
    if (header.toList.take 4).map Char.toLower ≠ "tma ".toList then throw (.unauthorized "Invalid Authorization header")
    pure (String.ofList (header.toList.drop 4))
  | .ws frame _ => readAuthFrame frame

/-- The user a request comes from, before the database is asked. -/
def authenticate (settings : LoginSettings) (r : SignIn) : Except AuthFailure TgUser := do
  let init_data ← r.initData
  let user ← verified settings r.now init_data
  tgUser user (if r.bumps then "User ID not found in init data" else "No user id")

/-- `_client_ip`. -/
def clientIp (settings : LoginSettings) : SignIn → Option String
  | .ws .. => none
  | .rest _ peer forwarded_for real_ip _ =>
    if peer.any fun p => p ≠ "" ∧ settings.trusted p then
      match forwarded_for.filter (· ≠ ""), real_ip.filter (· ≠ "") with
      | some fwd, _ => some (strip (String.ofList (fwd.toList.takeWhile (· ≠ ','))))
      | none, some real => some (strip real)
      | none, none => peer
    else peer

/-- `str.strip` of code points. -/
def stripCodes (codes : List ℕ) : List ℕ :=
  ((codes.dropWhile fun n => isSpace (Char.ofNat n)).reverse.dropWhile fun n => isSpace (Char.ofNat n)).reverse

/-- `_normalise_language_code`. -/
def normaliseLanguageCode (settings : LoginSettings) : UserField → Option (List ℕ)
  | .text raw =>
    let code := settings.lower (stripCodes raw)
    if code = [] then none else some (code.take 16)
  | _ => none

/-- `(value or "").strip()`, which only a text has. -/
def UserField.strip : UserField → Except LoginCrash (List ℕ)
  | .text codes => pure (stripCodes codes)
  | .other true => throw .badData
  | _ => pure []

/-! ## What the columns take -/

/-- A `Text` column: UTF-8 without a NUL. -/
def pgText (codes : List ℕ) : Except LoginCrash String :=
  match readText codes with
  | some s => if Char.ofNat 0 ∈ s.toList then throw .unstorable else pure s
  | none => throw .unstorable

/-- A `String(width)` column; blanks behind the width are cut off. -/
def varchar (width : ℕ) (codes : List ℕ) : Except LoginCrash String := do
  let s ← pgText codes
  if s.length ≤ width then pure s
  else if (s.toList.drop width).all (· = ' ') then pure (String.ofList (s.toList.take width))
  else throw .unstorable

def textCodes (s : String) : List ℕ := Json.codePoints s.toList

/-- A field as a parameter of a statement. -/
def UserField.value : UserField → Except LoginCrash (Option (List ℕ))
  | .text codes => pure (some codes)
  | .other _ => throw .unstorable
  | _ => pure none

/-- `get(name, "")`, for a column that is not nullable. -/
def UserField.required : UserField → Except LoginCrash (List ℕ)
  | .missing => pure []
  | .text codes => pure codes
  | _ => throw .unstorable

def storedIp (ip : Option String) : Except LoginCrash (Option String) := ip.mapM fun ip => varchar 45 (textCodes ip)

/-- `if observed and user.column != observed: user.column = observed`. -/
def assigned (width : ℕ) (cur : Option String) (observed : List ℕ) : Except LoginCrash (Option String) :=
  if observed = [] ∨ cur.map textCodes = some observed then pure cur
  else some <$> varchar width observed

/-- `if user.last_ip != ip: user.last_ip = ip`. -/
def assignedIp (cur ip : Option String) : Except LoginCrash (Option String) := if cur = ip then pure cur else storedIp ip

/-! ## The statements -/

/-- `_LAST_LOGIN_DEBOUNCE`. -/
def _LAST_LOGIN_DEBOUNCE : Time := seconds (5 * 60)

/-- `_SESSION_GAP`. -/
def _SESSION_GAP : Time := seconds (30 * 60)

/-- `now - last_login_at >= gap`, and so it is before the first login. -/
def quietFor (gap now : Time) (last_login_at : Option Time) : Bool := last_login_at.all fun last => gap ≤ now - last

/-- The session ping. -/
def LoginRow.ping (now : Time) (ip : Option String) (u : LoginRow) : LoginRow :=
  if quietFor _LAST_LOGIN_DEBOUNCE now u.last_login_at then
    { u with
      last_login_at := some now
      login_count := u.login_count + 1
      sessions_count := if quietFor _SESSION_GAP now u.last_login_at then u.sessions_count + 1 else u.sessions_count
      last_ip := ip }
  else u

/-- What `get_current_user` makes of a row it has loaded, as the columns take it. -/
def LoginRow.refresh (settings : LoginSettings) (r : SignIn) (user : TgUser) (u : LoginRow) : Except LoginCrash LoginRow := do
  let observed_username ← user.username.strip
  let username ← assigned 64 u.username observed_username
  let language_code ← assigned 16 u.language_code ((normaliseLanguageCode settings user.language_code).getD [])
  let pinged := u.ping r.now (clientIp settings r)
  let last_ip ← assignedIp u.last_ip pinged.last_ip
  pure { pinged with username := username, language_code := language_code, last_ip := last_ip }

/-- The row of a first touch, as the columns take it. -/
def SignIn.newRow (settings : LoginSettings) (r : SignIn) (user : TgUser) : Except LoginCrash LoginRow := do
  let username ← (← user.username.value).mapM (varchar 64)
  let display_name ← varchar 128 (← user.first_name.required)
  let photo_url ← (← user.photo_url.value).mapM pgText
  let language_code ← (normaliseLanguageCode settings user.language_code).mapM (varchar 16)
  let last_ip ← storedIp (clientIp settings r)
  pure {
    tg_user_id := user.id
    username := username
    display_name := display_name
    photo_url := photo_url
    language_code := language_code
    last_ip := last_ip
    last_login_at := if r.bumps then some r.now else none
    login_count := if r.bumps then 1 else 0
    sessions_count := if r.bumps then 1 else 0
    is_admin := false
    is_banned := false
    ban_reason := none
    is_frozen := false
    freeze_reason := none }

/-- `DO UPDATE SET`. -/
def LoginRow.bump (excluded u : LoginRow) : LoginRow :=
  { u with
    login_count := u.login_count + 1
    sessions_count := u.sessions_count + 1
    last_login_at := excluded.last_login_at
    last_ip := excluded.last_ip }

/-- The keys of the rows with this Telegram id. -/
def withId (users : Table LoginRow) (tg_user_id : ℤ) : List ℕ := users.ids fun u => u.tg_user_id = tg_user_id

/-- Another row than `user_id` has the username. -/
def nameTaken (users : Table LoginRow) (user_id : ℕ) (username : Option String) : Bool :=
  (users.ids fun u => u.username.isSome ∧ u.username = username).any (· ≠ user_id)

/-- The `INSERT … ON CONFLICT (tg_user_id)`. -/
def SignIn.upsert (settings : LoginSettings) (r : SignIn) (user : TgUser) (users : Table LoginRow) :
    Except LoginCrash (Table LoginRow) := do
  let row ← r.newRow settings user
  match withId users user.id with
  | [] => if nameTaken users users.next row.username then throw .nameTaken else pure (users.insert row)
  | ids => pure (if r.bumps then users.mapRows fun i u => if i ∈ ids then row.bump u else u else users)

/-- The `UPDATE` of a row loaded as `seen` that is `new` in the session, over the committed `cur`. -/
def LoginRow.flush (seen new cur : LoginRow) : LoginRow :=
  { cur with
    username := column seen.username new.username cur.username
    language_code := column seen.language_code new.language_code cur.language_code
    last_ip := column seen.last_ip new.last_ip cur.last_ip
    last_login_at := column seen.last_login_at new.last_login_at cur.last_login_at
    login_count := column seen.login_count new.login_count cur.login_count
    sessions_count := column seen.sessions_count new.sessions_count cur.sessions_count }

/-- The `UPDATE` of the changed columns. -/
def commitRow (user_id : ℕ) (seen new : LoginRow) (users : Table LoginRow) : Except LoginCrash (Table LoginRow) :=
  match users.row user_id with
  | some cur =>
    if nameTaken users user_id (LoginRow.flush seen new cur).username then throw .nameTaken
    else pure (users.set user_id (LoginRow.flush seen new cur))
  | none => throw .vanished

/-- A transaction that fails is rolled back. -/
def rollbackTo (users : Table LoginRow) (x : Except LoginCrash (Table LoginRow)) : Table LoginRow := x.toOption.getD users

/-- `_first_admin_username`. -/
def firstAdminUsername (users : Table LoginRow) : Option String :=
  (users.ids fun u => u.is_admin ∧ u.username.isSome).head?.bind fun i => (users.row i).bind (·.username)

/-- `_build_lockout_exception`. -/
def lockoutAnswer (u : LoginRow) (users : Table LoginRow) : LoginAnswer :=
  if u.is_banned then .lockedOut "banned" "Аккаунт заблокирован" u.ban_reason (firstAdminUsername users)
  else .lockedOut "frozen" "Аккаунт заморожен" u.freeze_reason (firstAdminUsername users)

/-- Where a request is. -/
inductive LoginPc
  | select (r : SignIn) (user : TgUser)
  | upsert (r : SignIn) (user : TgUser)
  | reread (r : SignIn) (user : TgUser)
  | lockout (r : SignIn) (u : LoginRow)
  | update (r : SignIn) (user : TgUser) (user_id : ℕ) (seen new : LoginRow)
  | answered (r : SignIn) (a : LoginAnswer)
deriving DecidableEq

section
variable (settings : LoginSettings)

def SignIn.entry (r : SignIn) : LoginPc :=
  match authenticate settings r with
  | .ok user => .select r user
  | .error (.unauthorized detail) => .answered r (.rejected detail)
  | .error .badData => .answered r (.crashed .badData)

/-- A row that is banned or frozen is refused. -/
def SignIn.gate (r : SignIn) (u : LoginRow) (next : LoginPc) : LoginPc :=
  if u.is_banned ∨ u.is_frozen then
    if r.bumps then .lockout r u else .answered r .refused
  else next

/-- What follows a step that can fail. -/
def SignIn.andThen {α : Type} (r : SignIn) (x : Except LoginCrash α) (next : α → LoginPc) : LoginPc :=
  match x with
  | .ok a => next a
  | .error why => .answered r (.crashed why)

/-- What the first `SELECT` leads to. -/
def SignIn.selected (r : SignIn) (user : TgUser) (users : Table LoginRow) : LoginPc :=
  match withId users user.id with
  | [] => .upsert r user
  | [i] => match users.row i with
    | some u => r.gate u <|
      if r.bumps then r.andThen (u.refresh settings r user) fun new =>
        if new ≠ u then .update r user i u new else .answered r (.served i u)
      else .answered r (.served i u)
    | none => .upsert r user
  | _ => .answered r (.crashed .twoRows)

/-- What the `SELECT` behind the upsert leads to. -/
def SignIn.reselected (r : SignIn) (user : TgUser) (users : Table LoginRow) : LoginPc :=
  match withId users user.id with
  | [i] => match users.row i with
    | some u => r.gate u (.answered r (.served i u))
    | none => .answered r (.crashed .vanished)
  | [] => .answered r (.crashed .vanished)
  | _ => .answered r (.crashed .twoRows)

/-- The next statement. -/
def LoginPc.move : LoginPc → Move (Table LoginRow) Empty LoginPc
  | .select r user => .read (r.selected settings user)
  | .upsert r user => .commit (fun users => rollbackTo users (r.upsert settings user users)) fun users =>
    r.andThen (r.upsert settings user users) fun _ => .reread r user
  | .reread r user => .read (r.reselected user)
  | .lockout r u => .read fun users => .answered r (lockoutAnswer u users)
  | .update r _ user_id seen new => .commit (fun users => rollbackTo users (commitRow user_id seen new users)) fun users =>
    r.andThen (commitRow user_id seen new users) fun _ => .answered r (.served user_id new)
  | .answered _ _ => .done

end

/-! ## Plain requests -/

/-- Characters that Postgres takes. -/
def CleanText (codes : List ℕ) : Prop := ∀ n ∈ codes, n.isValidChar ∧ n ≠ 0

/-- They fit a column of so many characters. -/
def NarrowText (width : ℕ) (codes : List ℕ) : Prop := codes.length ≤ width ∧ CleanText codes

/-- What the field holds, if anything, is a text that satisfies `p`. -/
def UserField.Holds (p : List ℕ → Prop) : UserField → Prop
  | .text codes => p codes
  | .other _ => False
  | _ => True

/-- The fields of the user fit their columns. -/
structure TgUser.Plain (settings : LoginSettings) (user : TgUser) : Prop where
  username : user.username.Holds (NarrowText 64)
  first_name : user.first_name.Holds (NarrowText 128)
  named : user.first_name ≠ .null
  photo_url : user.photo_url.Holds CleanText
  language_code : ∀ code, normaliseLanguageCode settings user.language_code = some code → CleanText code

/-- What a request writes fits the columns. -/
structure SignIn.Storable (settings : LoginSettings) (r : SignIn) (user : TgUser) : Prop where
  user : user.Plain settings
  ip : ∀ ip, clientIp settings r = some ip → NarrowText 45 (textCodes ip)

/-- Init data whose hash is ASCII, whose `auth_date` is not too large for a float
and whose user is a JSON object with an integer for an id, as far as they are there. -/
structure Readable (settings : LoginSettings) (now : Time) (init_data : String) : Prop where
  hash : ∀ s, receivedHash init_data = some s → s.all Text.isAscii = true
  auth_date : ∀ n, authDate init_data = some n → overflows n = false
  json : ∀ s, (signedFields init_data).first "user" = some s → Json.loads s ≠ none
  user : ∀ user, verifyInitData settings.init_data (now / 1000000 : ℚ) init_data = .ok user → isObject user = true ∧
    (falsy (user.get "id".toList) = true ∨ ∃ id, user.get "id".toList = some (.int id) ∧ -2 ^ 63 ≤ id ∧ id < 2 ^ 63)

/-- A request whose init data can be read and whose values can be stored. -/
structure SignIn.Plain (settings : LoginSettings) (r : SignIn) : Prop where
  frame : ∀ raw now payload codes, r = .ws (some raw) now → Json.loads raw.toList = some payload →
    payload.get "init_data".toList = some (.str codes) → ∀ n ∈ codes, n.isValidChar
  readable : ∀ init_data, r.initData = .ok init_data → Readable settings r.now init_data
  storable : ∀ user, authenticate settings r = .ok user → r.Storable settings user

/-- A failure is that of a value, and `bad` is then the case. -/
def CrashIf {α : Type} (bad : Prop) (x : Except LoginCrash α) : Prop :=
  ∀ why, x = .error why → (why = .badData ∨ why = .unstorable) ∧ bad

section
variable {settings : LoginSettings} {r : SignIn} {user : TgUser} {codes : List ℕ} {u : LoginRow} {width : ℕ}

theorem bind_errors {ε α β : Type} {p : ε → Prop} {x : Except ε α} {f : α → Except ε β} (hx : ∀ e, x = .error e → p e)
    (hf : ∀ a, x = .ok a → ∀ e, f a = .error e → p e) : ∀ e, (x >>= f) = .error e → p e := by
  cases x with
  | error e =>
    intro e' he'
    cases he'
    exact hx e rfl
  | ok a => exact hf a rfl

theorem CrashIf.bind {α β : Type} {bad : Prop} {x : Except LoginCrash α} {f : α → Except LoginCrash β} (hx : CrashIf bad x)
    (hf : ∀ a, x = .ok a → CrashIf bad (f a)) : CrashIf bad (x >>= f) := bind_errors hx hf

theorem CrashIf.mono {α : Type} {bad bad' : Prop} {x : Except LoginCrash α} (hx : CrashIf bad x) (h : bad → bad') :
    CrashIf bad' x := fun why he => (hx why he).imp_right h

theorem CrashIf.pure {α : Type} {bad : Prop} {a : α} : CrashIf bad (Pure.pure a : Except LoginCrash α) := by
  rintro why ⟨⟩

theorem CrashIf.mapM {α β : Type} {bad : Prop} {x : Option α} {f : α → Except LoginCrash β}
    (hf : ∀ a, x = some a → CrashIf bad (f a)) : CrashIf bad (x.mapM f) := by
  cases x with
  | none => exact .pure
  | some a => exact (hf a rfl).bind fun _ _ => .pure

theorem pgText_crash : CrashIf (¬CleanText codes) (pgText codes) := by
  unfold pgText
  split
  · rename_i s hs
    have hvalid : ∀ n ∈ codes, n.isValidChar := by
      unfold readText at hs
      split at hs
      · rename_i hall
        simpa using hall
      · cases hs
    split
    · rename_i hnul
      rintro why ⟨⟩
      refine ⟨.inr rfl, fun hclean => ?_⟩
      simp only [readText, List.all_eq_true, decide_eq_true_eq, if_pos hvalid, Option.some.injEq] at hs
      rw [← hs, String.toList_ofList] at hnul
      obtain ⟨n, hn, heq⟩ := List.mem_map.1 hnul
      have hzero : n = 0 := by
        have hnat := congrArg Char.toNat heq
        rwa [Char.toNat_ofNat, if_pos (hvalid n hn)] at hnat
      exact (hclean n hn).2 hzero
    · exact .pure
  · rename_i hnone
    rintro why ⟨⟩
    refine ⟨.inr rfl, fun hclean => ?_⟩
    have hall : codes.all (fun n => n.isValidChar) = true := by
      simpa using fun n hn => (hclean n hn).1
    rw [readText, if_pos hall] at hnone
    cases hnone

theorem pgText_length {s : String} (h : pgText codes = .ok s) : s.length = codes.length := by
  unfold pgText at h
  split at h
  · rename_i s' hs
    split at h
    · cases h
    · cases h
      unfold readText at hs
      split at hs <;> cases hs
      rw [← String.length_toList, String.toList_ofList, List.length_map]
  · cases h

theorem varchar_crash : CrashIf (¬NarrowText width codes) (varchar width codes) := by
  refine (pgText_crash.mono fun hbad h => hbad h.2).bind fun s hs => ?_
  rw [pgText_length hs]
  split
  · exact .pure
  · rename_i hlong
    split
    · exact .pure
    · rintro why ⟨⟩
      exact ⟨.inr rfl, fun h => hlong h.1⟩

theorem NarrowText.strip (h : NarrowText width codes) : NarrowText width (stripCodes codes) := by
  have hsub : (stripCodes codes).Sublist codes := by
    refine List.Sublist.trans ?_ (List.dropWhile_sublist fun n => isSpace (Char.ofNat n))
    exact List.reverse_sublist.1 (by rw [stripCodes, List.reverse_reverse]; exact List.dropWhile_sublist _)
  exact ⟨hsub.length_le.trans h.1, fun n hn => h.2 n (hsub.subset hn)⟩

theorem normaliseLanguageCode_length {field : UserField} {code : List ℕ}
    (h : normaliseLanguageCode settings field = some code) : code.length ≤ 16 := by
  unfold normaliseLanguageCode at h
  split at h
  · dsimp only at h
    split at h
    · cases h
    · cases h
      exact List.length_take_le _ _
  · cases h

theorem storedIp_crash {ip : Option String} :
    CrashIf (¬∀ a, ip = some a → NarrowText 45 (textCodes a)) (storedIp ip) :=
  .mapM fun a ha => varchar_crash.mono fun hbad h => hbad (h a ha)

theorem UserField.value_crash {field : UserField} {p : List ℕ → Prop} : CrashIf (¬field.Holds p) field.value := by
  cases field with
  | other truthy =>
    rintro why ⟨⟩
    exact ⟨.inr rfl, id⟩
  | _ => exact .pure

theorem value_text {field : UserField} (h : field.value = .ok (some codes)) : field = .text codes := by
  cases field <;> cases h
  rfl

/-- A first touch fails only for what the request brings. -/
theorem newRow_crash : CrashIf (¬r.Storable settings user) (r.newRow settings user) := by
  refine (UserField.value_crash.mono fun hbad h => hbad h.user.username).bind fun value hvalue => ?_
  have hname : CrashIf (¬r.Storable settings user) (value.mapM (varchar 64)) := by
    refine .mapM fun codes hcodes => varchar_crash.mono fun hbad h => hbad ?_
    have htext : user.username = .text codes := value_text (hcodes ▸ hvalue)
    have hholds := h.user.username
    rwa [htext] at hholds
  refine hname.bind fun username _ => ?_
  refine CrashIf.bind (x := user.first_name.required) ?_ fun codes hcodes => ?_
  · cases hname : user.first_name with
    | null =>
      rintro why ⟨⟩
      exact ⟨.inr rfl, fun h => h.user.named hname⟩
    | other truthy =>
      rintro why ⟨⟩
      refine ⟨.inr rfl, fun h => ?_⟩
      have hholds := h.user.first_name
      rwa [hname] at hholds
    | _ => exact .pure
  refine (varchar_crash.mono fun hbad h => hbad ?_).bind fun display_name _ => ?_
  · cases hname : user.first_name <;> rw [hname] at hcodes <;> cases hcodes
    · exact ⟨Nat.zero_le _, fun n hn => by cases hn⟩
    · have hholds := h.user.first_name
      rwa [hname] at hholds
  refine (UserField.value_crash.mono fun hbad h => hbad h.user.photo_url).bind fun photo hphoto => ?_
  have hstored : CrashIf (¬r.Storable settings user) (photo.mapM pgText) := by
    refine .mapM fun codes hcodes => pgText_crash.mono fun hbad h => hbad ?_
    have htext : user.photo_url = .text codes := value_text (hcodes ▸ hphoto)
    have hholds := h.user.photo_url
    rwa [htext] at hholds
  refine hstored.bind fun photo_url _ => ?_
  have hlanguage : CrashIf (¬r.Storable settings user)
      ((normaliseLanguageCode settings user.language_code).mapM (varchar 16)) :=
    .mapM fun code hcode => varchar_crash.mono fun hbad h =>
      hbad ⟨normaliseLanguageCode_length hcode, h.user.language_code code hcode⟩
  refine hlanguage.bind fun language_code _ => ?_
  exact (storedIp_crash.mono fun hbad h => hbad h.ip).bind fun _ _ => .pure

theorem assigned_crash {cur : Option String} : CrashIf (¬NarrowText width codes) (assigned width cur codes) := by
  unfold assigned
  split
  · exact .pure
  · exact varchar_crash.bind fun _ _ => .pure

theorem assignedIp_crash {cur ip : Option String} :
    CrashIf (cur ≠ ip ∧ ¬∀ a, ip = some a → NarrowText 45 (textCodes a)) (assignedIp cur ip) := by
  unfold assignedIp
  split
  · exact .pure
  · rename_i hne
    exact storedIp_crash.mono fun hbad => ⟨hne, hbad⟩

/-- The ping writes the address of the request, or nothing. -/
theorem ping_last_ip {now : Time} {ip : Option String} :
    (u.ping now ip).last_ip = ip ∨ (u.ping now ip).last_ip = u.last_ip := by
  unfold LoginRow.ping
  split
  · exact .inl rfl
  · exact .inr rfl

/-- Refreshing a row fails only for what the request brings. -/
theorem refresh_crash : CrashIf (¬r.Storable settings user) (u.refresh settings r user) := by
  refine CrashIf.bind (x := user.username.strip) ?_ fun observed hobserved => ?_
  · cases hname : user.username with
    | other truthy =>
      cases truthy with
      | false => exact .pure
      | true =>
        rintro why ⟨⟩
        refine ⟨.inl rfl, fun h => ?_⟩
        have hholds := h.user.username
        rwa [hname] at hholds
    | _ => exact .pure
  refine (assigned_crash.mono fun hbad h => hbad ?_).bind fun username _ => ?_
  · have hholds := h.user.username
    cases hname : user.username with
    | text codes =>
      rw [hname] at hobserved hholds
      cases hobserved
      exact hholds.strip
    | other truthy =>
      rw [hname] at hholds
      exact hholds.elim
    | _ =>
      rw [hname] at hobserved
      cases hobserved
      exact ⟨Nat.zero_le _, fun n hn => by cases hn⟩
  refine (assigned_crash.mono fun hbad h => hbad ?_).bind fun language_code _ => ?_
  · cases hcode : normaliseLanguageCode settings user.language_code with
    | none => exact ⟨Nat.zero_le _, fun n hn => by cases hn⟩
    | some code => exact ⟨normaliseLanguageCode_length hcode, h.user.language_code code hcode⟩
  refine (assignedIp_crash.mono fun hbad h => ?_).bind fun _ _ => .pure
  rcases ping_last_ip with hip | hip
  · exact hbad.2 (hip ▸ h.ip)
  · exact hbad.1 hip.symm

theorem requireField_error {field : Option (List Char)} {msg : String} {e : InitFailure}
    (h : requireField field msg = .error e) :
    ∃ detail, e = .init_data detail := by
  unfold requireField at h
  split at h <;> cases h
  exact ⟨_, rfl⟩

theorem failIf_error {c : Prop} [Decidable c] {e e' : InitFailure} (h : failIf c e = .error e') : c ∧ e' = e := by
  unfold failIf at h
  split at h <;> cases h
  exact ⟨by assumption, rfl⟩

/-- Readable init data is accepted or turned away. -/
theorem verifyInitData_readable {now : Time} {init_data : String} (h : Readable settings now init_data) :
    ∀ e, verifyInitData settings.init_data (now / 1000000 : ℚ) init_data = .error e → ∃ detail, e = .init_data detail := by
  unfold verifyInitData
  split
  · intro e he
    unfold parseUnsigned at he
    split at he
    · cases he
      exact ⟨_, rfl⟩
    · dsimp only at he
      split at he <;> cases he
      exact ⟨_, rfl⟩
  split
  · rintro e ⟨⟩
    exact ⟨_, rfl⟩
  refine bind_errors (fun e => requireField_error) fun hash hhash => ?_
  refine bind_errors (fun e he => ?_) fun _ _ => ?_
  · obtain ⟨hascii, -⟩ := failIf_error he
    rw [h.hash hash (requireField_ok hhash)] at hascii
    cases hascii
  refine bind_errors (fun e he => ⟨_, (failIf_error he).2⟩) fun _ _ => ?_
  refine bind_errors (fun e => requireField_error) fun date hdate => ?_
  refine bind_errors (fun e he => ?_) fun n hn => ?_
  · unfold readAuthDate at he
    split at he <;> cases he
    exact ⟨_, rfl⟩
  refine bind_errors (fun e he => ?_) fun _ _ => ?_
  · obtain ⟨hover, -⟩ := failIf_error he
    have hread : Text.readInt date = some n := by
      unfold readAuthDate at hn
      split at hn <;> cases hn
      assumption
    have hsmall := h.auth_date n (by rw [authDate, requireField_ok hdate]; exact hread)
    exact absurd hover (by rw [hsmall]; exact Bool.false_ne_true)
  refine bind_errors (fun e he => ⟨_, (failIf_error he).2⟩) fun _ _ => ?_
  refine bind_errors (fun e he => ⟨_, (failIf_error he).2⟩) fun _ _ => ?_
  refine bind_errors (fun e => requireField_error) fun user hu => ?_
  intro e he
  unfold loadUser at he
  split at he
  · cases he
  · exact absurd (by assumption) (h.json user (requireField_ok hu))

/-- A plain request is not stopped by what it brings. -/
theorem authenticate_plain (h : r.Plain settings) : authenticate settings r ≠ .error .badData := by
  have herrors : ∀ e, authenticate settings r = .error e → e ≠ .badData := by
    refine bind_errors (fun e he => ?_) fun init_data hinit => bind_errors (fun e he => ?_) fun user hu => ?_
    · rintro rfl
      cases r with
      | rest authorization peer forwarded_for real_ip now =>
        simp only [SignIn.initData] at he
        split at he
        · cases he
        · split at he <;> cases he
      | ws frame now =>
        simp only [SignIn.initData, readAuthFrame] at he
        split at he
        · cases he
        split at he
        · cases he
        split at he
        · cases he
        rename_i payload hpayload
        split at he
        · split at he
          · cases he
          split at he
          · rename_i c codes hcodes
            split at he
            · cases he
            · rename_i hnone
              have hall : (c :: codes).all (fun n => n.isValidChar) = true := by
                simpa only [List.all_eq_true, decide_eq_true_eq] using h.frame _ now payload _ rfl hpayload hcodes
              rw [readText, if_pos hall] at hnone
              cases hnone
          · cases he
        · cases he
    · rintro rfl
      unfold verified at he
      split at he
      · cases he
      · cases he
      · rename_i hdetail hfail
        obtain ⟨detail, rfl⟩ := verifyInitData_readable (h.readable init_data hinit) _ hfail
        exact hdetail detail rfl
    · have hverified : verifyInitData settings.init_data (r.now / 1000000 : ℚ) init_data = .ok user := by
        unfold verified at hu
        split at hu <;> cases hu
        assumption
      obtain ⟨hobject, hid⟩ := (h.readable init_data hinit).user user hverified
      intro e he
      unfold tgUser at he
      rw [if_neg (by simp [hobject])] at he
      by_cases hfalsy : falsy (user.get "id".toList) = true
      · rw [if_pos hfalsy] at he
        cases he
        rintro ⟨⟩
      · obtain ⟨id, hid, hrange⟩ := hid.resolve_left hfalsy
        have hread : readId (user.get "id".toList) = .ok id := by rw [hid, readId, if_pos hrange]; rfl
        rw [if_neg hfalsy, hread] at he
        cases he
  exact fun hbad => herrors _ hbad rfl

end

/-! ## Runs -/

/-- What `confirm_transfer` makes of the source when the target is deleted. -/
def LoginRow.takeOver (source target : LoginRow) : LoginRow :=
  { source with
    tg_user_id := target.tg_user_id
    username := if target.username.getD "" = "" then source.username else target.username
    photo_url := if target.photo_url.getD "" = "" then source.photo_url else target.photo_url
    display_name := if target.display_name ≠ "" ∧ source.display_name = "" then target.display_name
      else source.display_name }

/-- The columns that only signing in writes. -/
def LoginRow.logins (u : LoginRow) : Option Time × ℕ × ℕ := (u.last_login_at, u.login_count, u.sessions_count)

/-- A user is banned, freed, given rights, or edits the profile: everything but
the identity and what only signing in writes. -/
inductive Edits (s : Table LoginRow) : Table LoginRow → Prop
  | edit {u : ℕ} {row row' : LoginRow} (h : s.row u = some row) (hid : row'.tg_user_id = row.tg_user_id)
      (hname : row'.username = row.username) (hlogins : row'.logins = row.logins) : Edits s (s.set u row')

/-- What happens to the rows elsewhere: edits, and transfers of accounts. -/
inductive RowsChange (s : Table LoginRow) : Table LoginRow → Prop
  | edits {t : Table LoginRow} (h : Edits s t) : RowsChange s t
  | transfer {source target : ℕ} {a b : LoginRow} (hs : s.row source = some a) (ht : s.row target = some b)
      (hne : source ≠ target) : RowsChange s ((s.erase target).set source (a.takeOver b))

abbrev LoginSys := Transactions.Sys (Table LoginRow) Empty LoginPc

def LoginStep (settings : LoginSettings) (Env : Table LoginRow → Table LoginRow → Prop) :
    Event SignIn → LoginSys → LoginSys → Prop :=
  Transactions.Step (LoginPc.move settings) (SignIn.entry settings) Env

/-- The unique columns. -/
structure Distinct (users : Table LoginRow) : Prop where
  ids : ∀ {i j : ℕ} {a b : LoginRow}, users.row i = some a → users.row j = some b → a.tg_user_id = b.tg_user_id → i = j
  names : ∀ {i j : ℕ} {a b : LoginRow}, users.row i = some a → users.row j = some b → a.username = b.username →
    a.username ≠ none → i = j

section
variable {settings : LoginSettings} {users t : Table LoginRow} {r : SignIn} {user : TgUser} {i j : ℕ}
  {a b row row' : LoginRow}

theorem Distinct.empty : Distinct Table.empty :=
  ⟨fun h => (by cases h), fun h => (by cases h)⟩

theorem mem_withId {tg : ℤ} : i ∈ withId users tg ↔ ∃ u, users.row i = some u ∧ u.tg_user_id = tg := by
  simp [withId, Table.mem_ids]

theorem nameTaken_iff {name : Option String} :
    nameTaken users i name = true ↔ name ≠ none ∧ ∃ j u, j ≠ i ∧ users.row j = some u ∧ u.username = name := by
  simp only [nameTaken, List.any_eq_true, Table.mem_ids, decide_eq_true_eq, Option.isSome_iff_ne_none, ne_eq]
  constructor
  · rintro ⟨j, ⟨u, hu, hsome, rfl⟩, hne⟩
    exact ⟨hsome, j, u, hne, hu, rfl⟩
  · rintro ⟨hsome, j, u, hne, hu, rfl⟩
    exact ⟨j, ⟨u, hu, hsome, rfl⟩, hne⟩

/-- Of distinct rows, at most one has the id. -/
theorem Distinct.withId (h : Distinct users) (hi : users.row i = some a) : withId users a.tg_user_id = [i] := by
  have hall : ∀ j ∈ Garant.withId users a.tg_user_id, j = i := by
    intro j hj
    obtain ⟨u, hu, hid⟩ := mem_withId.1 hj
    exact h.ids hu hi hid
  have hmem : i ∈ Garant.withId users a.tg_user_id := mem_withId.2 ⟨a, hi, rfl⟩
  exact List.perm_singleton.1 ((List.perm_ext_iff_of_nodup (Table.nodup_ids _) (List.nodup_singleton i)).2 fun j =>
    ⟨fun hj => List.mem_singleton.2 (hall j hj), fun hj => List.mem_singleton.1 hj ▸ hmem⟩)

theorem withId_eq_nil {tg : ℤ} : withId users tg = [] ↔ ∀ i u, users.row i = some u → u.tg_user_id ≠ tg := by
  simp [withId, Table.ids_eq_nil]

/-! ## Distinct rows stay distinct -/

/-- A row is replaced by one whose id and username no other row has. -/
theorem Distinct.replace (h : Distinct users) (hi : users.row i = some row)
    (hid : ∀ j b, j ≠ i → users.row j = some b → b.tg_user_id ≠ row'.tg_user_id)
    (hname : nameTaken users i row'.username = false) : Distinct (users.set i row') := by
  have hfree : ∀ j b, j ≠ i → users.row j = some b → row'.username ≠ none → b.username ≠ row'.username := by
    intro j b hne hb hsome heq
    exact absurd (nameTaken_iff.2 ⟨hsome, j, b, hne, hb, heq⟩) (by simp [hname])
  constructor
  · intro j k a b hj hk heq
    rw [Table.set_row hi] at hj hk
    split at hj <;> split at hk
    · omega
    · cases hj
      rename_i hki
      exact absurd heq.symm (hid k b hki hk)
    · cases hk
      rename_i hji _
      exact absurd heq (hid j a hji hj)
    · exact h.ids hj hk heq
  · intro j k a b hj hk heq hsome
    rw [Table.set_row hi] at hj hk
    split at hj <;> split at hk
    · omega
    · cases hj
      rename_i hki
      exact absurd heq.symm (hfree k b hki hk hsome)
    · cases hk
      rename_i hji _
      exact absurd heq (hfree j a hji hj (heq ▸ hsome))
    · exact h.names hj hk heq hsome

theorem Distinct.set (h : Distinct users) (hi : users.row i = some row) (hid : row'.tg_user_id = row.tg_user_id)
    (hname : nameTaken users i row'.username = false) : Distinct (users.set i row') :=
  h.replace hi (fun _ _ hne hb heq => hne (h.ids hb hi (heq.trans hid))) hname

theorem Distinct.erase (h : Distinct users) : Distinct (users.erase i) := by
  have hrow : ∀ {j b}, (users.erase i).row j = some b → users.row j = some b := by
    intro j b hj
    rw [Table.erase_row] at hj
    split at hj
    · cases hj
    · exact hj
  exact ⟨fun hj hk => h.ids (hrow hj) (hrow hk), fun hj hk => h.names (hrow hj) (hrow hk)⟩

theorem Distinct.insert (h : Distinct users) (hid : Garant.withId users row.tg_user_id = [])
    (hname : nameTaken users users.next row.username = false) : Distinct (users.insert row) := by
  have hfree : ∀ j b, users.row j = some b → row.username ≠ none → b.username ≠ row.username := by
    intro j b hb hsome heq
    have htaken : nameTaken users users.next row.username = true :=
      nameTaken_iff.2 ⟨hsome, j, b, (Table.lt_next hb).ne, hb, heq⟩
    exact absurd htaken (by simp [hname])
  constructor
  · intro j k a b hj hk heq
    rw [Table.insert_row] at hj hk
    split at hj <;> split at hk
    · omega
    · cases hj
      exact absurd heq.symm (withId_eq_nil.1 hid k b hk)
    · cases hk
      exact absurd heq (withId_eq_nil.1 hid j a hj)
    · exact h.ids hj hk heq
  · intro j k a b hj hk heq hsome
    rw [Table.insert_row] at hj hk
    split at hj <;> split at hk
    · omega
    · cases hj
      exact absurd heq.symm (hfree k b hk hsome)
    · cases hk
      exact absurd heq (hfree j a hj (heq ▸ hsome))
    · exact h.names hj hk heq hsome

/-- A map of the rows that leaves both columns alone. -/
theorem Distinct.mapRows {f : ℕ → LoginRow → LoginRow} (h : Distinct users)
    (hid : ∀ i u, (f i u).tg_user_id = u.tg_user_id) (hname : ∀ i u, (f i u).username = u.username) :
    Distinct (users.mapRows f) := by
  constructor
  · intro j k a b hj hk heq
    simp only [Table.mapRows_row, Option.map_eq_some_iff] at hj hk
    obtain ⟨a, ha, rfl⟩ := hj
    obtain ⟨b, hb, rfl⟩ := hk
    exact h.ids ha hb (by rwa [hid, hid] at heq)
  · intro j k a b hj hk heq hsome
    simp only [Table.mapRows_row, Option.map_eq_some_iff] at hj hk
    obtain ⟨a, ha, rfl⟩ := hj
    obtain ⟨b, hb, rfl⟩ := hk
    rw [hname] at hsome
    exact h.names ha hb (by rwa [hname, hname] at heq) hsome

theorem rollbackTo_keeps {p : Table LoginRow → Prop} {x : Except LoginCrash (Table LoginRow)} (h : p users)
    (hx : ∀ t, x = .ok t → p t) : p (rollbackTo users x) := by
  cases x with
  | error why => exact h
  | ok t => exact hx t rfl

theorem newRow_ok (h : r.newRow settings user = .ok row) :
    (∀ name, row.username = some name → ∃ codes, user.username = .text codes ∧ varchar 64 codes = .ok name) ∧
      row.tg_user_id = user.id ∧ row.is_banned = false ∧ row.is_frozen = false ∧
      row.logins = if r.bumps then (some r.now, 1, 1) else (none, 0, 0) := by
  simp only [SignIn.newRow, bind_accepts] at h
  obtain ⟨value, hvalue, username, hname, first_name, -, display_name, -, photo, -, photo_url, -, language_code, -,
    last_ip, -, h⟩ := h
  cases h
  refine ⟨?_, rfl, rfl, rfl, ?_⟩
  · rintro name rfl
    cases value with
    | none => cases hname
    | some codes =>
      obtain ⟨s, hs, heq⟩ := bind_accepts.1 hname
      cases heq
      exact ⟨codes, value_text hvalue, hs⟩
  · unfold LoginRow.logins
    split <;> rfl

/-- The upsert makes the row of a new id, or touches the rows that have it. -/
theorem upsert_ok (h : r.upsert settings user users = .ok t) : ∃ row, r.newRow settings user = .ok row ∧
    (withId users user.id = [] ∧ nameTaken users users.next row.username = false ∧ t = users.insert row ∨
      withId users user.id ≠ [] ∧
        t = if r.bumps then users.mapRows fun i u => if i ∈ withId users user.id then row.bump u else u else users) := by
  obtain ⟨row, hrow, h⟩ := bind_accepts.1 h
  refine ⟨row, hrow, ?_⟩
  split at h
  · rename_i hids
    split at h
    · cases h
    · rename_i hname
      cases h
      exact .inl ⟨hids, by simpa using hname, rfl⟩
  · rename_i hids
    cases h
    exact .inr ⟨hids, rfl⟩

theorem commitRow_ok {seen new : LoginRow} (h : commitRow i seen new users = .ok t) : ∃ cur, users.row i = some cur ∧
    nameTaken users i (LoginRow.flush seen new cur).username = false ∧ t = users.set i (LoginRow.flush seen new cur) := by
  unfold commitRow at h
  split at h
  · rename_i cur hcur
    split at h
    · cases h
    · rename_i hname
      cases h
      exact ⟨cur, hcur, by simpa using hname, rfl⟩
  · cases h

theorem upsert_error {why : LoginCrash} (h : r.upsert settings user users = .error why) :
    (why = .badData ∨ why = .unstorable) ∧ ¬r.Storable settings user ∨ why = .nameTaken ∧ withId users user.id = [] ∧
      ∃ row, r.newRow settings user = .ok row ∧ nameTaken users users.next row.username = true := by
  cases hrow : r.newRow settings user with
  | error why' =>
    rw [SignIn.upsert, hrow] at h
    cases h
    exact .inl (newRow_crash _ hrow)
  | ok row =>
    rw [SignIn.upsert, hrow] at h
    change (match withId users user.id with | [] => _ | _ => _) = _ at h
    split at h
    · rename_i hids
      split at h
      · cases h
        exact .inr ⟨rfl, hids, row, rfl, by assumption⟩
      · cases h
    · cases h

theorem commitRow_error {seen new : LoginRow} {why : LoginCrash} (h : commitRow i seen new users = .error why) :
    why = .vanished ∧ users.row i = none ∨ why = .nameTaken ∧ ∃ cur, users.row i = some cur ∧
      nameTaken users i (LoginRow.flush seen new cur).username = true := by
  unfold commitRow at h
  split at h
  · split at h
    · cases h
      exact .inr ⟨rfl, _, by assumption, by assumption⟩
    · cases h
  · cases h
    exact .inl ⟨rfl, by assumption⟩

theorem Distinct.upsert (h : Distinct users) : Distinct (rollbackTo users (r.upsert settings user users)) := by
  refine rollbackTo_keeps h fun t ht => ?_
  obtain ⟨row, hrow, ⟨hids, hname, rfl⟩ | ⟨-, rfl⟩⟩ := upsert_ok ht
  · exact h.insert (by rw [(newRow_ok hrow).2.1, hids]) hname
  · split
    · refine h.mapRows (fun i u => ?_) (fun i u => ?_)
      · split <;> rfl
      · split <;> rfl
    · exact h

theorem Distinct.commitRow {seen new : LoginRow} (h : Distinct users) :
    Distinct (rollbackTo users (commitRow i seen new users)) := by
  refine rollbackTo_keeps h fun t ht => ?_
  obtain ⟨cur, hcur, hname, rfl⟩ := commitRow_ok ht
  exact h.set hcur rfl hname

theorem Distinct.edits (h : Distinct users) (hedit : Edits users t) : Distinct t := by
  obtain ⟨hu, hid, hname, -⟩ := hedit
  rename_i u row row'
  refine h.set hu hid ?_
  rw [hname, Bool.eq_false_iff]
  intro htaken
  obtain ⟨hsome, j, b, hne, hb, heq⟩ := nameTaken_iff.1 htaken
  exact hne (h.names hb hu heq (heq ▸ hsome))

theorem Distinct.rowsChange (h : Distinct users) (hother : RowsChange users t) : Distinct t := by
  cases hother with
  | edits hedit => exact h.edits hedit
  | @transfer source target a b hs ht hne =>
    have hrow : ∀ {j c}, (users.erase target).row j = some c → j ≠ target ∧ users.row j = some c := by
      intro j c hj
      rw [Table.erase_row] at hj
      split at hj
      · cases hj
      · exact ⟨by assumption, hj⟩
    refine h.erase.replace (by rw [Table.erase_row, if_neg hne, hs]) ?_ ?_
    · intro j c _ hj heq
      exact (hrow hj).1 (h.ids (hrow hj).2 ht heq)
    · rw [Bool.eq_false_iff]
      intro htaken
      obtain ⟨hsome, j, c, hjs, hj, heq⟩ := nameTaken_iff.1 htaken
      obtain ⟨hjt, hj⟩ := hrow hj
      -- the name is the source's own or that of the deleted row
      simp only [LoginRow.takeOver] at heq hsome
      split at heq
      · rw [if_pos (by assumption)] at hsome
        exact hjs (h.names hj hs heq (heq ▸ hsome))
      · rw [if_neg (by assumption)] at hsome
        exact hjt (h.names hj ht heq (heq ▸ hsome))

/-! ## Whoever is served -/

/-- The row with this Telegram id. -/
def HasRow (users : Table LoginRow) (i : ℕ) (tg : ℤ) : Prop := ∃ u, users.row i = some u ∧ u.tg_user_id = tg

/-- A look-up finds nothing or the one row. -/
theorem Distinct.found (h : Distinct users) (tg : ℤ) : Garant.withId users tg = [] ∨
    ∃ i u, Garant.withId users tg = [i] ∧ users.row i = some u ∧ u.tg_user_id = tg := by
  rcases hids : Garant.withId users tg with _ | ⟨i, rest⟩
  · exact .inl rfl
  · obtain ⟨u, hu, rfl⟩ := mem_withId.1 (hids ▸ List.mem_cons_self : i ∈ Garant.withId users tg)
    exact .inr ⟨i, u, hids ▸ h.withId hu, hu, rfl⟩

@[simp] theorem ping_tg_user_id {now : Time} {ip : Option String} : (row.ping now ip).tg_user_id = row.tg_user_id := by
  unfold LoginRow.ping
  split <;> rfl

@[simp] theorem ping_flags {now : Time} {ip : Option String} :
    (row.ping now ip).is_banned = row.is_banned ∧ (row.ping now ip).is_frozen = row.is_frozen := by
  unfold LoginRow.ping
  split <;> exact ⟨rfl, rfl⟩

/-- The refreshed row is the pinged one, but for three columns. -/
theorem refresh_eq (h : row.refresh settings r user = .ok row') : row' = { row.ping r.now (clientIp settings r) with
    username := row'.username, language_code := row'.language_code, last_ip := row'.last_ip } := by
  simp only [LoginRow.refresh, bind_accepts] at h
  obtain ⟨observed_username, -, username, -, language_code, -, last_ip, -, h⟩ := h
  cases h
  rfl

theorem assigned_ok {width : ℕ} {cur c : Option String} {observed : List ℕ} (h : assigned width cur observed = .ok c) :
    c = cur ∨ observed ≠ [] ∧ ∃ s, varchar width observed = .ok s ∧ c = some s := by
  unfold assigned at h
  split at h
  · cases h
    exact .inl rfl
  · rename_i hnew
    cases hs : varchar width observed with
    | error why =>
      rw [hs] at h
      cases h
    | ok s =>
      rw [hs] at h
      cases h
      exact .inr ⟨fun hnone => hnew (.inl hnone), s, rfl, rfl⟩

/-- The name is the row's, or the one that was presented. -/
theorem refresh_username (h : row.refresh settings r user = .ok row') : row'.username = row.username ∨
    ∃ codes s, user.username = .text codes ∧ varchar 64 (stripCodes codes) = .ok s ∧ row'.username = some s := by
  simp only [LoginRow.refresh, bind_accepts] at h
  obtain ⟨observed_username, hstrip, username, hname, language_code, -, last_ip, -, h⟩ := h
  cases h
  refine (assigned_ok hname).imp_right ?_
  rintro ⟨hsome, s, hs, rfl⟩
  unfold UserField.strip at hstrip
  split at hstrip <;> cases hstrip
  · exact ⟨_, s, by assumption, hs, rfl⟩
  · exact absurd rfl hsome

theorem refresh_tg_user_id (h : row.refresh settings r user = .ok row') : row'.tg_user_id = row.tg_user_id := by
  rw [refresh_eq h]
  exact ping_tg_user_id

theorem refresh_flags (h : row.refresh settings r user = .ok row') :
    row'.is_banned = row.is_banned ∧ row'.is_frozen = row.is_frozen := by
  rw [refresh_eq h]
  exact ping_flags

/-- The row is one of the signed id, and is not locked out. -/
def Welcome (settings : LoginSettings) (r : SignIn) (u : LoginRow) : Prop :=
  ∃ user, authenticate settings r = .ok user ∧ u.tg_user_id = user.id ∧ u.is_banned = false ∧ u.is_frozen = false

/-- What a request knows: whom it comes from, and that the row it is served as is welcome. -/
def LoginPc.Sound (settings : LoginSettings) : LoginPc → Prop
  | .select r user | .upsert r user | .reread r user => authenticate settings r = .ok user
  | .update r user _ _ new => authenticate settings r = .ok user ∧ Welcome settings r new
  | .answered r (.served _ u) => Welcome settings r u
  | .answered _ (.crashed why) => why ≠ .twoRows
  | _ => True

theorem SignIn.entry_sound : (r.entry settings).Sound settings := by
  unfold SignIn.entry
  split
  · assumption
  · trivial
  · rintro ⟨⟩

theorem andThen_keeps {α : Type} {p : LoginPc → Prop} {x : Except LoginCrash α} {next : α → LoginPc}
    (herror : ∀ why, x = .error why → p (.answered r (.crashed why))) (hok : ∀ a, x = .ok a → p (next a)) :
    p (r.andThen x next) := by
  cases x with
  | error why => exact herror why rfl
  | ok a => exact hok a rfl

theorem gate_open {next : LoginPc} (hb : row.is_banned = false) (hf : row.is_frozen = false) : r.gate row next = next := by
  rw [SignIn.gate, if_neg]
  simp [hb, hf]

theorem gate_locked {next : LoginPc} (h : ¬(row.is_banned = false ∧ row.is_frozen = false)) :
    r.gate row next = if r.bumps then .lockout r row else .answered r .refused := by
  rw [SignIn.gate, if_pos]
  rw [not_and_or] at h
  simpa using h

theorem SignIn.gate_sound {next : LoginPc} (h : row.is_banned = false → row.is_frozen = false → next.Sound settings) :
    (r.gate row next).Sound settings := by
  unfold SignIn.gate
  split
  · split <;> trivial
  · rename_i hopen
    simp only [not_or, Bool.not_eq_true] at hopen
    exact h hopen.1 hopen.2

theorem SignIn.selected_none (h : withId users user.id = []) : r.selected settings user users = .upsert r user := by
  rw [SignIn.selected, h]

theorem SignIn.selected_row (h : withId users user.id = [i]) (hi : users.row i = some row) :
    r.selected settings user users = r.gate row (if r.bumps then r.andThen (row.refresh settings r user) fun new =>
      if new ≠ row then .update r user i row new else .answered r (.served i row)
    else .answered r (.served i row)) := by
  rw [SignIn.selected, h]
  dsimp only
  rw [hi]

theorem SignIn.reselected_row (h : withId users user.id = [i]) (hi : users.row i = some row) :
    r.reselected user users = r.gate row (.answered r (.served i row)) := by
  rw [SignIn.reselected, h]
  dsimp only
  rw [hi]

theorem SignIn.selected_sound (hI : Distinct users) (h : authenticate settings r = .ok user) :
    (r.selected settings user users).Sound settings := by
  rcases hI.found user.id with hnone | ⟨i, u, hids, hu, hid⟩
  · rw [SignIn.selected_none hnone]
    exact h
  · rw [SignIn.selected_row hids hu]
    refine SignIn.gate_sound fun hb hf => ?_
    split
    · refine andThen_keeps (fun why hwhy => ?_) fun new hnew => ?_
      · rcases (refresh_crash why hwhy).1 with rfl | rfl <;> rintro ⟨⟩
      · split
        · exact ⟨h, user, h, (refresh_tg_user_id hnew).trans hid, (refresh_flags hnew).1.trans hb,
            (refresh_flags hnew).2.trans hf⟩
        · exact ⟨user, h, hid, hb, hf⟩
    · exact ⟨user, h, hid, hb, hf⟩

theorem SignIn.reselected_sound (hI : Distinct users) (h : authenticate settings r = .ok user) :
    (r.reselected user users).Sound settings := by
  rcases hI.found user.id with hnone | ⟨i, u, hids, hu, hid⟩
  · rw [SignIn.reselected, hnone]
    rintro ⟨⟩
  · rw [SignIn.reselected_row hids hu]
    exact SignIn.gate_sound fun hb hf => ⟨user, h, hid, hb, hf⟩

theorem login_distinct {S : LoginSys} {x y : Transactions.Session Empty LoginPc} (hI : Distinct S.store)
    (h : Moves (LoginPc.move settings) S i x y t) : Distinct t := by
  obtain ⟨pc, held⟩ := x
  cases pc with
  | select r user | reread r user | lockout r u =>
    obtain ⟨-, rfl⟩ := h.of_read rfl
    exact hI
  | upsert r user =>
    obtain ⟨-, rfl⟩ := h.of_commit rfl
    exact hI.upsert
  | update r user id seen new =>
    obtain ⟨-, rfl⟩ := h.of_commit rfl
    exact hI.commitRow
  | answered r a => exact (h.of_done rfl).elim

/-- What a request knows after a statement. -/
theorem login_sound_move {S : LoginSys} {x y : Transactions.Session Empty LoginPc} (hI : Distinct S.store)
    (hx : x.pc.Sound settings) (h : Moves (LoginPc.move settings) S i x y t) : y.pc.Sound settings := by
  obtain ⟨pc, held⟩ := x
  cases pc with
  | select r user =>
    obtain ⟨rfl, -⟩ := h.of_read rfl
    exact SignIn.selected_sound hI hx
  | upsert r user =>
    obtain ⟨rfl, -⟩ := h.of_commit rfl
    refine andThen_keeps (fun why hwhy => ?_) fun _ _ => hx
    rcases upsert_error hwhy with ⟨rfl | rfl, -⟩ | ⟨rfl, -⟩ <;> rintro ⟨⟩
  | reread r user =>
    obtain ⟨rfl, -⟩ := h.of_read rfl
    exact SignIn.reselected_sound hI hx
  | lockout r u =>
    obtain ⟨rfl, -⟩ := h.of_read rfl
    dsimp only [lockoutAnswer]
    split <;> trivial
  | update r user id seen new =>
    obtain ⟨rfl, -⟩ := h.of_commit rfl
    refine andThen_keeps (fun why hwhy => ?_) fun _ _ => hx.2
    rcases commitRow_error hwhy with ⟨rfl, -⟩ | ⟨rfl, -⟩ <;> rintro ⟨⟩
  | answered r a => exact (h.of_done rfl).elim

/-- The rule for runs. -/
theorem login_sound {s : LoginSys} (hstart : Distinct users)
    (h : Reach (LoginStep settings RowsChange) Free (Sys.idle users) s) :
    Distinct s.store ∧ ∀ i x, s.sessions.row i = some x → x.pc.Sound settings :=
  Transactions.outline (I := Distinct) (L := fun _ _ x => x.pc.Sound settings) h hstart
    (fun _ _ _ _ => SignIn.entry_sound)
    (fun _ i x _ _ hI hL _ hx hm =>
      ⟨login_distinct hI hm, login_sound_move hI (hL i x hx) hm, fun j z _ hz => hL j z hz⟩)
    (fun _ _ hI _ hother => ⟨hI.rowsChange hother, fun _ _ _ hz => hz⟩)

/-- No Telegram id and no username belongs to two rows, and whoever is served is
served as a row that had the signed Telegram id and was not locked out when it
was last read. No look-up ever meets two rows. -/
theorem one_row_per_telegram_id {s : LoginSys} (hstart : Distinct users)
    (h : Reach (LoginStep settings RowsChange) Free (Sys.idle users) s) :
    (∀ i j a b, s.store.row i = some a → s.store.row j = some b →
      a.tg_user_id = b.tg_user_id ∨ (a.username = b.username ∧ a.username ≠ none) → i = j) ∧
    (∀ i r id u held, s.sessions.row i = some ⟨.answered r (.served id u), held⟩ →
      ∃ user, authenticate settings r = .ok user ∧ u.tg_user_id = user.id ∧ u.is_banned = false ∧ u.is_frozen = false) ∧
    ∀ i r held, s.sessions.row i ≠ some ⟨.answered r (.crashed .twoRows), held⟩ := by
  obtain ⟨hdistinct, hsound⟩ := login_sound hstart h
  refine ⟨fun i j a b hi hj heq => ?_, fun i r id u held hi => hsound i _ hi, fun i r held hi => hsound i _ hi rfl⟩
  rcases heq with hid | ⟨hname, hsome⟩
  · exact hdistinct.ids hi hj hid
  · exact hdistinct.names hi hj hname hsome

end

/-! ## Two first calls -/

def sampleLogins : LoginSettings :=
  ⟨{ sampleInitSettings with init_data_max_age_seconds := 86400 }, fun _ => false,
    fun codes => codes.map fun n => (Char.ofNat n).toLower.toNat⟩

def sampleCall (now : Time) : SignIn := .rest (some ("tma " ++ sampleInit false)) none none none now

def sampleTgUser : TgUser := ⟨1, .missing, .missing, .missing, .missing⟩

/-- The sample's calls come after five seconds, seven minutes and fifty minutes. -/
def sampleTimes : List Time := [seconds 5, seconds 420, seconds 3000]

theorem sampleCalls_signed {now : Time} (hnow : now ∈ sampleTimes) :
    authenticate sampleLogins (sampleCall now) = .ok sampleTgUser := by
  -- one evaluation for all of them: the signature is the same
  have hall : (sampleTimes.all fun now =>
      (authenticate sampleLogins (sampleCall now)).toOption = some sampleTgUser) = true := by
    decide +kernel
  have h := of_decide_eq_true (List.all_eq_true.1 hall now hnow)
  cases hv : authenticate sampleLogins (sampleCall now) with
  | error e =>
    rw [hv] at h
    cases h
  | ok user =>
    rw [hv] at h
    cases h
    rfl

theorem sampleCall_signed : authenticate sampleLogins (sampleCall (seconds 5)) = .ok sampleTgUser :=
  sampleCalls_signed (by decide)

def sampleFirstCall : SignIn := sampleCall (seconds 5)

theorem sampleFirstCall_entry : sampleFirstCall.entry sampleLogins = .select sampleFirstCall sampleTgUser := by
  rw [SignIn.entry, show authenticate sampleLogins sampleFirstCall = _ from sampleCall_signed]

/-- The rows after the first upsert, and after the second. -/
def sampleTouched : Table LoginRow :=
  rollbackTo Table.empty (sampleFirstCall.upsert sampleLogins sampleTgUser Table.empty)
def sampleTouchedTwice : Table LoginRow :=
  rollbackTo sampleTouched (sampleFirstCall.upsert sampleLogins sampleTgUser sampleTouched)

def sampleNewcomer : LoginRow :=
  ⟨1, none, "", none, none, none, some (seconds 5), 2, 2, false, false, none, false, none⟩

theorem sampleNewcomer_served :
    sampleFirstCall.reselected sampleTgUser sampleTouchedTwice = .answered sampleFirstCall (.served 1 sampleNewcomer) := by
  have hids : withId sampleTouchedTwice sampleTgUser.id = [1] := by decide +kernel
  have hrow : sampleTouchedTwice.row 1 = some sampleNewcomer := by decide +kernel
  rw [SignIn.reselected_row hids hrow, gate_open rfl rfl]

/-- Both calls of a new user look before either has written. -/
theorem sampleRace (Env : Table LoginRow → Table LoginRow → Prop) (Ok : Event SignIn → LoginSys → Prop)
    (hstart : ∀ s, Ok (.start sampleFirstCall) s) (hmove : ∀ i s, Ok (.move i) s) :
    ∃ s, Reach (LoginStep sampleLogins Env) Ok (.idle Table.empty) s ∧ s.store = sampleTouchedTwice ∧
      ∀ i, i = 1 ∨ i = 2 → s.sessions.row i = some ⟨.answered sampleFirstCall (.served 1 sampleNewcomer), []⟩ := by
  have h₀ : Reach (LoginStep sampleLogins Env) Ok (.idle Table.empty) (.idle Table.empty) := .refl
  have h₁ := run_start h₀ sampleFirstCall (hstart _)
  have h₂ := run_start h₁ sampleFirstCall (hstart _)
  rw [sampleFirstCall_entry] at h₂
  have h₃ := run_read (p := .upsert sampleFirstCall sampleTgUser) h₂ 1 rfl rfl (SignIn.selected_none rfl) (hmove _ _)
  have h₄ := run_read (p := .upsert sampleFirstCall sampleTgUser) h₃ 2 rfl rfl (SignIn.selected_none rfl) (hmove _ _)
  have h₅ := run_commit (p := .reread sampleFirstCall sampleTgUser) h₄ 1 rfl rfl (by decide +kernel) (hmove _ _)
  have h₆ := run_commit (p := .reread sampleFirstCall sampleTgUser) h₅ 2 rfl rfl (by decide +kernel) (hmove _ _)
  have h₇ := run_read h₆ 1 rfl rfl sampleNewcomer_served (hmove _ _)
  have h₈ := run_read h₇ 2 rfl rfl sampleNewcomer_served (hmove _ _)
  refine ⟨_, h₈, rfl, ?_⟩
  rintro i (rfl | rfl) <;> rfl

theorem sampleLogins_distinct : ∃ s, Reach (LoginStep sampleLogins RowsChange) Free (.idle Table.empty) s ∧
    ∃ user, authenticate sampleLogins sampleFirstCall = .ok user ∧ sampleNewcomer.tg_user_id = user.id := by
  obtain ⟨s, hs, -, hserved⟩ := sampleRace RowsChange Free (fun _ => trivial) fun _ _ => trivial
  obtain ⟨-, hsigned, -⟩ := one_row_per_telegram_id .empty hs
  obtain ⟨user, huser, hid, -⟩ := hsigned 1 _ _ _ _ (hserved 1 (.inl rfl))
  exact ⟨s, hs, user, huser, hid⟩

section
variable {settings : LoginSettings} {users t : Table LoginRow} {r : SignIn} {user : TgUser} {i j : ℕ}
  {a b row row' : LoginRow}

/-! ## Racing first touches -/

/-- Every row stays, with its Telegram id. -/
def SameIds (users t : Table LoginRow) : Prop := ∀ i tg, HasRow users i tg → HasRow t i tg

theorem SameIds.refl : SameIds users users := fun _ _ h => h

theorem SameIds.set (hi : users.row i = some row) (hid : row'.tg_user_id = row.tg_user_id) :
    SameIds users (users.set i row') := by
  rintro j tg ⟨u, hu, rfl⟩
  by_cases hji : j = i
  · subst hji
    rw [hi] at hu
    cases hu
    exact ⟨row', by rw [Table.set_row hi, if_pos rfl], hid⟩
  · exact ⟨u, by rw [Table.set_row_ne hji, hu], rfl⟩

theorem SameIds.insert : SameIds users (users.insert row) := by
  rintro j tg ⟨u, hu, rfl⟩
  exact ⟨u, by rw [Table.insert_row, if_neg (Table.lt_next hu).ne, hu], rfl⟩

theorem SameIds.mapRows {f : ℕ → LoginRow → LoginRow} (hid : ∀ i u, (f i u).tg_user_id = u.tg_user_id) :
    SameIds users (users.mapRows f) := by
  rintro j tg ⟨u, hu, rfl⟩
  exact ⟨f j u, by rw [Table.mapRows_row, hu]; rfl, hid j u⟩

theorem sameIds_upsert : SameIds users (rollbackTo users (r.upsert settings user users)) := by
  refine rollbackTo_keeps .refl fun t ht => ?_
  obtain ⟨row, -, ⟨-, -, rfl⟩ | ⟨-, rfl⟩⟩ := upsert_ok ht
  · exact .insert
  · split
    · exact .mapRows fun i u => by split <;> rfl
    · exact .refl

theorem sameIds_commitRow {seen new : LoginRow} : SameIds users (rollbackTo users (commitRow i seen new users)) := by
  refine rollbackTo_keeps .refl fun t ht => ?_
  obtain ⟨cur, hcur, -, rfl⟩ := commitRow_ok ht
  exact .set hcur rfl

theorem sameIds_edits (h : Edits users t) : SameIds users t := by
  obtain ⟨hu, hid, -, -⟩ := h
  exact .set hu hid

/-- After an upsert there is a row. -/
theorem exists_upsert (h : r.upsert settings user users = .ok t) :
    ∃ i, HasRow (rollbackTo users (r.upsert settings user users)) i user.id := by
  rcases hids : withId users user.id with _ | ⟨i, rest⟩
  · obtain ⟨row, hrow, ⟨-, -, rfl⟩ | ⟨hne, -⟩⟩ := upsert_ok h
    · rw [h]
      exact ⟨users.next, row, by rw [rollbackTo, Except.toOption, Option.getD_some, Table.insert_row, if_pos rfl],
        (newRow_ok hrow).2.1⟩
    · exact absurd hids hne
  · obtain ⟨u, hu, hid⟩ := mem_withId.1 (hids ▸ List.mem_cons_self : i ∈ withId users user.id)
    exact ⟨i, sameIds_upsert i user.id ⟨u, hu, hid⟩⟩

/-- What a request has found is still there. -/
def LoginPc.Seated (settings : LoginSettings) (users : Table LoginRow) : LoginPc → Prop
  | .reread _ user => ∃ i, HasRow users i user.id
  | .update _ _ i _ new => HasRow users i new.tg_user_id
  | .answered _ (.served i u) => HasRow users i u.tg_user_id
  | .answered r (.crashed why) => why = .nameTaken ∨ (why = .badData ∨ why = .unstorable) ∧ ¬r.Plain settings
  | _ => True

theorem LoginPc.Seated.mono {pc : LoginPc} (h : pc.Seated settings users) (hsame : SameIds users t) :
    pc.Seated settings t := by
  cases pc with
  | reread r user =>
    obtain ⟨i, hi⟩ := h
    exact ⟨i, hsame i _ hi⟩
  | update r user i seen new => exact hsame i _ h
  | answered r a =>
    cases a with
    | served i u => exact hsame i _ h
    | _ => exact h
  | _ => trivial

theorem SignIn.entry_seated : (r.entry settings).Seated settings users := by
  unfold SignIn.entry
  split
  · trivial
  · trivial
  · rename_i hbad
    exact .inr ⟨.inl rfl, fun hplain => authenticate_plain hplain hbad⟩

theorem SignIn.gate_seated {next : LoginPc} (h : next.Seated settings users) : (r.gate row next).Seated settings users := by
  unfold SignIn.gate
  split
  · split <;> trivial
  · exact h

/-- A statement keeps every row, and what the request has found after it is there. -/
theorem login_seated {S : LoginSys} {x y : Transactions.Session Empty LoginPc} (hI : Distinct S.store)
    (hsound : x.pc.Sound settings) (hx : x.pc.Seated settings S.store) (h : Moves (LoginPc.move settings) S i x y t) :
    y.pc.Seated settings t ∧ SameIds S.store t := by
  obtain ⟨pc, held⟩ := x
  cases pc with
  | select r user =>
    obtain ⟨rfl, rfl⟩ := h.of_read rfl
    refine ⟨?_, .refl⟩
    rcases hI.found user.id with hnone | ⟨k, u, hids, hu, hid⟩
    · rw [SignIn.selected_none hnone]
      trivial
    · rw [SignIn.selected_row hids hu]
      refine SignIn.gate_seated ?_
      split
      · refine andThen_keeps (fun why hwhy => ?_) fun new hnew => ?_
        · obtain ⟨hwhy, hbad⟩ := refresh_crash why hwhy
          exact .inr ⟨hwhy, fun hplain => hbad (hplain.storable user hsound)⟩
        · split
          · exact ⟨u, hu, (refresh_tg_user_id hnew).symm⟩
          · exact ⟨u, hu, rfl⟩
      · exact ⟨u, hu, rfl⟩
  | upsert r user =>
    obtain ⟨rfl, rfl⟩ := h.of_commit rfl
    refine ⟨andThen_keeps (fun why hwhy => ?_) fun v hv => exists_upsert hv, sameIds_upsert⟩
    rcases upsert_error hwhy with ⟨hwhy, hbad⟩ | ⟨rfl, -⟩
    · exact .inr ⟨hwhy, fun hplain => hbad (hplain.storable user hsound)⟩
    · exact .inl rfl
  | reread r user =>
    obtain ⟨rfl, rfl⟩ := h.of_read rfl
    refine ⟨?_, .refl⟩
    obtain ⟨k, v, hv, hid⟩ := hx
    rcases hI.found user.id with hnone | ⟨l, u, hids, hu, -⟩
    · exact absurd hid (withId_eq_nil.1 hnone k v hv)
    · rw [SignIn.reselected_row hids hu]
      exact SignIn.gate_seated ⟨u, hu, rfl⟩
  | lockout r u =>
    obtain ⟨rfl, rfl⟩ := h.of_read rfl
    refine ⟨?_, .refl⟩
    dsimp only [lockoutAnswer]
    split <;> trivial
  | update r user id seen new =>
    obtain ⟨rfl, rfl⟩ := h.of_commit rfl
    refine ⟨?_, sameIds_commitRow⟩
    refine andThen_keeps (fun why hwhy => ?_) fun _ _ => sameIds_commitRow id _ hx
    obtain ⟨cur, hcur, -⟩ := hx
    rcases commitRow_error hwhy with ⟨-, hgone⟩ | ⟨rfl, -⟩
    · rw [hcur] at hgone
      cases hgone
    · exact .inl rfl
  | answered r a => exact (h.of_done rfl).elim

/-- The rule for runs without transfers. -/
theorem login_seated_run {Ok : Event SignIn → LoginSys → Prop} {s : LoginSys} (hstart : Distinct users)
    (h : Reach (LoginStep settings Edits) Ok (Sys.idle users) s) :
    Distinct s.store ∧ ∀ i x, s.sessions.row i = some x → x.pc.Sound settings ∧ x.pc.Seated settings s.store :=
  Transactions.outline (I := Distinct) (L := fun u _ x => x.pc.Sound settings ∧ x.pc.Seated settings u) h hstart
    (fun _ _ _ _ => ⟨SignIn.entry_sound, SignIn.entry_seated⟩)
    (fun _ i x _ _ hI hL _ hx hm =>
      have hmove := login_seated hI (hL i x hx).1 (hL i x hx).2 hm
      ⟨login_distinct hI hm, ⟨login_sound_move hI (hL i x hx).1 hm, hmove.1⟩,
        fun j z _ hz => ⟨(hL j z hz).1, (hL j z hz).2.mono hmove.2⟩⟩)
    (fun _ _ hI _ hother => ⟨hI.edits hother, fun _ _ _ hz => ⟨hz.1, hz.2.mono (sameIds_edits hother)⟩⟩)

/-- While no account is transferred, however the requests of one Telegram id
race: all that are served are served as the one row with that id, which stays;
and a request fails only for a username that another row has, or for init data
that cannot be read or a value that cannot be stored. -/
theorem sign_in_converges {s : LoginSys} (hstart : Distinct users)
    (h : Reach (LoginStep settings Edits) Free (Sys.idle users) s) :
    (∀ i r id u held, s.sessions.row i = some ⟨.answered r (.served id u), held⟩ →
      withId s.store u.tg_user_id = [id]) ∧
    ∀ i r why held, s.sessions.row i = some ⟨.answered r (.crashed why), held⟩ →
      why = .nameTaken ∨ (why = .badData ∨ why = .unstorable) ∧ ¬r.Plain settings := by
  obtain ⟨hdistinct, hseated⟩ := login_seated_run hstart h
  refine ⟨fun i r id u held hi => ?_, fun i r why held hi => (hseated i _ hi).2⟩
  obtain ⟨cur, hcur, hid⟩ := (hseated i _ hi).2
  rw [← hid]
  exact hdistinct.withId hcur

theorem sampleLogins_converge : ∃ s, Reach (LoginStep sampleLogins Edits) Free (.idle Table.empty) s ∧
    withId s.store 1 = [1] ∧ ∀ i, i = 1 ∨ i = 2 →
      s.sessions.row i = some ⟨.answered sampleFirstCall (.served 1 sampleNewcomer), []⟩ := by
  obtain ⟨s, hs, -, hserved⟩ := sampleRace Edits Free (fun _ => trivial) fun _ _ => trivial
  exact ⟨s, hs, (sign_in_converges .empty hs).1 1 _ _ _ _ (hserved 1 (.inl rfl)), hserved⟩

/-! ## Usernames that are nobody else's -/

/-- Each username is of one Telegram id, as far as the rows go. -/
def Owned (owner : String → ℤ) (users : Table LoginRow) : Prop :=
  ∀ i u name, users.row i = some u → u.username = some name → owner name = u.tg_user_id

/-- A user presents a name of their own, with or without white space around it. -/
def TgUser.Own (owner : String → ℤ) (user : TgUser) : Prop :=
  ∀ codes name, user.username = .text codes → varchar 64 codes = .ok name ∨ varchar 64 (stripCodes codes) = .ok name →
    owner name = user.id

/-- Every request that starts is plain, and presents a name of its own. -/
def Presents (settings : LoginSettings) (owner : String → ℤ) : Event SignIn → LoginSys → Prop
  | .start r, _ => r.Plain settings ∧ ∀ user, authenticate settings r = .ok user → user.Own owner
  | _, _ => True

def LoginPc.request : LoginPc → SignIn
  | .select r _ | .upsert r _ | .reread r _ | .lockout r _ | .update r _ _ _ _ | .answered r _ => r

/-- The name a request is about to write is its own. -/
def LoginPc.Named (owner : String → ℤ) : LoginPc → Prop
  | .select _ user | .upsert _ user => user.Own owner
  | .update _ _ _ seen new => new.username = seen.username ∨ ∃ name, new.username = some name ∧ owner name = new.tg_user_id
  | .answered _ (.crashed why) => why ≠ .nameTaken
  | _ => True

variable {owner : String → ℤ}

/-- A name is free if nobody else has the id it belongs to. -/
theorem Owned.free (h : Owned owner users) {name : Option String} {tg : ℤ} (hown : ∀ n, name = some n → owner n = tg)
    (hrow : ∀ j u, j ≠ i → users.row j = some u → u.tg_user_id ≠ tg) : nameTaken users i name = false := by
  rw [Bool.eq_false_iff]
  intro htaken
  obtain ⟨hsome, j, u, hne, hu, heq⟩ := nameTaken_iff.1 htaken
  obtain ⟨n, hn⟩ := Option.ne_none_iff_exists'.1 hsome
  exact hrow j u hne hu ((h j u n hu (heq.trans hn)).symm.trans (hown n hn))

theorem Owned.set (h : Owned owner users) (hi : users.row i = some row)
    (hrow : ∀ n, row'.username = some n → owner n = row'.tg_user_id) : Owned owner (users.set i row') := by
  intro j u n hu hn
  rw [Table.set_row hi] at hu
  split at hu
  · cases hu
    exact hrow n hn
  · exact h j u n hu hn

theorem TgUser.Own.newRow (hown : user.Own owner) (hrow : r.newRow settings user = .ok row) :
    ∀ name, row.username = some name → owner name = user.id := by
  intro name hname
  obtain ⟨codes, htext, hs⟩ := (newRow_ok hrow).1 name hname
  exact hown codes name htext (.inl hs)

theorem Owned.upsert (h : Owned owner users) (hown : user.Own owner) :
    Owned owner (rollbackTo users (r.upsert settings user users)) := by
  refine rollbackTo_keeps h fun t ht => ?_
  obtain ⟨row, hrow, ⟨-, -, rfl⟩ | ⟨-, rfl⟩⟩ := upsert_ok ht
  · intro j u n hu hn
    rw [Table.insert_row] at hu
    split at hu
    · cases hu
      rw [(newRow_ok hrow).2.1]
      exact hown.newRow hrow n hn
    · exact h j u n hu hn
  · split
    · intro j u n hu hn
      simp only [Table.mapRows_row, Option.map_eq_some_iff] at hu
      obtain ⟨v, hv, rfl⟩ := hu
      split at hn
      · rw [if_pos (by assumption)]
        exact h j v n hv hn
      · rw [if_neg (by assumption)]
        exact h j v n hv hn
    · exact h

theorem Owned.edits (h : Owned owner users) (hedit : Edits users t) : Owned owner t := by
  obtain ⟨hu, hid, hname, -⟩ := hedit
  rename_i u row row'
  exact h.set hu fun n hn => hid ▸ h u row n hu (hname ▸ hn)

/-- The name that the commit writes belongs to the row. -/
theorem flush_own {seen new cur : LoginRow} (h : Owned owner users) (hcur : users.row i = some cur)
    (hid : new.tg_user_id = cur.tg_user_id)
    (hname : new.username = seen.username ∨ ∃ name, new.username = some name ∧ owner name = new.tg_user_id) :
    ∀ n, (LoginRow.flush seen new cur).username = some n → owner n = cur.tg_user_id := by
  intro n hn
  simp only [LoginRow.flush, column] at hn
  split at hn
  · exact h i cur n hcur hn
  · rename_i hne
    obtain ⟨name, hnew, hown⟩ := hname.resolve_left hne
    rw [hnew] at hn
    cases hn
    rw [hown, hid]

theorem Owned.not_taken {seen new cur : LoginRow} (h : Owned owner users) (hI : Distinct users)
    (hcur : users.row i = some cur) (hid : new.tg_user_id = cur.tg_user_id)
    (hname : new.username = seen.username ∨ ∃ name, new.username = some name ∧ owner name = new.tg_user_id) :
    nameTaken users i (LoginRow.flush seen new cur).username = false :=
  h.free (flush_own h hcur hid hname) fun _ _ hne hu heq => hne (hI.ids hu hcur heq)

theorem SignIn.entry_named (hown : ∀ user, authenticate settings r = .ok user → user.Own owner) :
    (r.entry settings).Named owner := by
  unfold SignIn.entry
  split
  · exact hown _ (by assumption)
  · trivial
  · rintro ⟨⟩

theorem SignIn.entry_request : (r.entry settings).request = r := by
  unfold SignIn.entry
  split <;> rfl

theorem gate_request {next : LoginPc} (h : next.request = r) : (r.gate row next).request = r := by
  unfold SignIn.gate
  split
  · split <;> rfl
  · exact h

theorem andThen_request {α : Type} {x : Except LoginCrash α} {next : α → LoginPc} (h : ∀ a, (next a).request = r) :
    (r.andThen x next).request = r := by
  cases x with
  | error why => rfl
  | ok a => exact h a

/-- A session stays that of its request. -/
theorem move_request {S : LoginSys} {x y : Transactions.Session Empty LoginPc} (hI : Distinct S.store)
    (h : Moves (LoginPc.move settings) S i x y t) : y.pc.request = x.pc.request := by
  obtain ⟨pc, held⟩ := x
  cases pc with
  | select r user =>
    obtain ⟨rfl, -⟩ := h.of_read rfl
    rcases hI.found user.id with hnone | ⟨k, u, hids, hu, -⟩
    · rw [SignIn.selected_none hnone]
      rfl
    · rw [SignIn.selected_row hids hu]
      refine gate_request ?_
      split
      · exact andThen_request fun new => by split <;> rfl
      · rfl
  | upsert r user =>
    obtain ⟨rfl, -⟩ := h.of_commit rfl
    exact andThen_request fun _ => rfl
  | reread r user =>
    obtain ⟨rfl, -⟩ := h.of_read rfl
    rcases hI.found user.id with hnone | ⟨k, u, hids, hu, -⟩
    · rw [SignIn.reselected, hnone]
      rfl
    · rw [SignIn.reselected_row hids hu]
      exact gate_request rfl
  | lockout r u =>
    obtain ⟨rfl, -⟩ := h.of_read rfl
    rfl
  | update r user id seen new =>
    obtain ⟨rfl, -⟩ := h.of_commit rfl
    exact andThen_request fun _ => rfl
  | answered r a => exact (h.of_done rfl).elim

theorem SignIn.gate_named {next : LoginPc} (h : next.Named owner) : (r.gate row next).Named owner := by
  unfold SignIn.gate
  split
  · split <;> trivial
  · exact h

/-- What a statement writes is owned, and what the request is about to write is its own. -/
theorem login_named {S : LoginSys} {x y : Transactions.Session Empty LoginPc} (hI : Distinct S.store)
    (hO : Owned owner S.store) (hseated : x.pc.Seated settings S.store) (hx : x.pc.Named owner)
    (h : Moves (LoginPc.move settings) S i x y t) : y.pc.Named owner ∧ Owned owner t := by
  obtain ⟨pc, held⟩ := x
  cases pc with
  | select r user =>
    obtain ⟨rfl, rfl⟩ := h.of_read rfl
    refine ⟨?_, hO⟩
    rcases hI.found user.id with hnone | ⟨k, u, hids, hu, hid⟩
    · rw [SignIn.selected_none hnone]
      exact hx
    · rw [SignIn.selected_row hids hu]
      refine SignIn.gate_named ?_
      split
      · refine andThen_keeps (fun why hwhy => ?_) fun new hnew => ?_
        · rcases (refresh_crash why hwhy).1 with rfl | rfl <;> rintro ⟨⟩
        · split
          · refine (refresh_username hnew).imp_right ?_
            rintro ⟨codes, name, htext, hs, hname⟩
            exact ⟨name, hname, by rw [refresh_tg_user_id hnew, hid, hx codes name htext (.inr hs)]⟩
          · trivial
      · trivial
  | upsert r user =>
    obtain ⟨rfl, rfl⟩ := h.of_commit rfl
    refine ⟨andThen_keeps (fun why hwhy => ?_) fun _ _ => trivial, hO.upsert hx⟩
    rcases upsert_error hwhy with ⟨rfl | rfl, -⟩ | ⟨-, hids, row, hrow, htaken⟩
    · rintro ⟨⟩
    · rintro ⟨⟩
    · have hfree : nameTaken S.store S.store.next row.username = false :=
        hO.free (hx.newRow hrow) fun j u _ hu => withId_eq_nil.1 hids j u hu
      rw [hfree] at htaken
      cases htaken
  | reread r user =>
    obtain ⟨rfl, rfl⟩ := h.of_read rfl
    refine ⟨?_, hO⟩
    rcases hI.found user.id with hnone | ⟨k, u, hids, hu, -⟩
    · rw [SignIn.reselected, hnone]
      rintro ⟨⟩
    · rw [SignIn.reselected_row hids hu]
      exact SignIn.gate_named trivial
  | lockout r u =>
    obtain ⟨rfl, rfl⟩ := h.of_read rfl
    refine ⟨?_, hO⟩
    dsimp only [lockoutAnswer]
    split <;> trivial
  | update r user id seen new =>
    obtain ⟨rfl, rfl⟩ := h.of_commit rfl
    obtain ⟨cur, hcur, hid⟩ := hseated
    have hfree := hO.not_taken hI hcur hid.symm hx
    refine ⟨andThen_keeps (fun why hwhy => ?_) fun _ _ => trivial, rollbackTo_keeps hO fun v hv => ?_⟩
    · rcases commitRow_error hwhy with ⟨rfl, -⟩ | ⟨-, cur', hcur', htaken⟩
      · rintro ⟨⟩
      · rw [hcur] at hcur'
        cases hcur'
        rw [hfree] at htaken
        cases htaken
    · obtain ⟨cur', hcur', -, rfl⟩ := commitRow_ok hv
      rw [hcur] at hcur'
      cases hcur'
      exact hO.set hcur (flush_own hO hcur hid.symm hx)
  | answered r a => exact (h.of_done rfl).elim

/-- While no account is transferred and every request is plain and presents a
username of its own Telegram id only, no request fails: it is rejected before the
database is asked, refused because the row is locked out, or served. -/
theorem sign_in_never_fails {s : LoginSys} (hstart : Distinct users) (howned : Owned owner users)
    (h : Reach (LoginStep settings Edits) (Presents settings owner) (Sys.idle users) s) :
    ∀ i r why held, s.sessions.row i ≠ some ⟨.answered r (.crashed why), held⟩ := by
  have hrun := h.with_invariant fun u hu => login_seated_run hstart hu
  have hnamed := Transactions.outline_started (I := Owned owner)
    (L := fun _ _ x => x.pc.Named owner ∧ x.pc.request.Plain settings) hrun howned
    (fun S r i _ hok => ⟨SignIn.entry_named hok.1.2, SignIn.entry_request ▸ hok.1.1⟩)
    (fun S i x y u hI hL hok hx hm => ?_)
    (fun _ _ hI _ hother => ⟨hI.edits hother, fun _ _ _ hz => ⟨hz.1, hz.2⟩⟩)
  · intro i r why held hi
    obtain ⟨hname, hplain⟩ := hnamed.2 i _ hi
    rcases ((login_seated_run hstart h).2 i _ hi).2 with hwhy | ⟨-, hbad⟩
    · exact hname hwhy
    · exact hbad hplain
  · obtain ⟨hy, hu⟩ := login_named hok.2.1 hI (hok.2.2 i x hx).2 (hL i x hx).1 hm
    exact ⟨hu, ⟨hy, move_request hok.2.1 hm ▸ (hL i x hx).2⟩, fun j z _ hz => hL j z hz⟩

theorem get_int {user : Json.Value} {name : String} {n : ℤ} (h : (user.get name.toList).bind (·.toInt) = some n) :
    user.get name.toList = some (.int n) := by
  obtain ⟨v, hv, hn⟩ := Option.bind_eq_some_iff.1 h
  cases v <;> cases hn
  exact hv

theorem sampleInit_readable : Readable sampleLogins (seconds 5) (sampleInit false) := by
  refine ⟨fun s hs => ?_, fun n hn => ?_, fun s hs hnone => ?_, fun user huser => ?_⟩
  · have hall : (receivedHash (sampleInit false)).all (fun s => s.all Text.isAscii) = true := by decide +kernel
    rwa [hs] at hall
  · have hdate : authDate (sampleInit false) = some 5 := by decide +kernel
    cases hdate.symm.trans hn
    decide +kernel
  · have hjson : (((signedFields (sampleInit false)).first "user").bind Json.loads).isSome = true := by decide +kernel
    rw [hs, Option.bind_some, hnone] at hjson
    cases hjson
  · have hone : ((verifyInitData sampleLogins.init_data (seconds 5 / 1000000 : ℚ) (sampleInit false)).toOption.all fun user =>
        isObject user ∧ (user.get "id".toList).bind (·.toInt) = some 1) = true := by
      decide +kernel
    rw [huser] at hone
    obtain ⟨hobject, hid⟩ := of_decide_eq_true hone
    exact ⟨hobject, .inr ⟨1, get_int hid, by decide, by decide⟩⟩

theorem sampleCall_plain : sampleFirstCall.Plain sampleLogins := by
  refine ⟨fun raw now payload codes hws => (by cases hws), fun init_data hinit => ?_, fun user huser => ?_⟩
  · have hsome : sampleFirstCall.initData.toOption = some (sampleInit false) := by decide +kernel
    rw [hinit] at hsome
    cases hsome
    exact sampleInit_readable
  · rw [show authenticate sampleLogins sampleFirstCall = _ from sampleCall_signed] at huser
    cases huser
    exact ⟨⟨trivial, trivial, by decide, trivial, fun code hcode => by cases hcode⟩, fun ip hip => by cases hip⟩

theorem sampleLogins_never_fail : ∃ s, Reach (LoginStep sampleLogins Edits) (Presents sampleLogins fun _ => 1)
    (.idle Table.empty) s ∧ s.store = sampleTouchedTwice ∧
      ∀ i r why held, s.sessions.row i ≠ some ⟨.answered r (.crashed why), held⟩ := by
  have hpresents : ∀ s, Presents sampleLogins (fun _ => 1) (.start sampleFirstCall) s := by
    refine fun s => ⟨sampleCall_plain, fun user huser codes name hname => ?_⟩
    rw [show authenticate sampleLogins sampleFirstCall = _ from sampleCall_signed] at huser
    cases huser
    cases hname
  obtain ⟨s, hs, hstore, -⟩ := sampleRace Edits _ hpresents fun _ _ => trivial
  exact ⟨s, hs, hstore, sign_in_never_fails .empty (fun i u n hu => by cases hu) hs⟩

/-! ## One request after the other -/

/-- At most `n` statements of a request alone. -/
def LoginPc.run (settings : LoginSettings) : ℕ → LoginPc → Table LoginRow → LoginPc × Table LoginRow
  | 0, pc, users => (pc, users)
  | n + 1, pc, users => match pc.move settings with
    | .read next => LoginPc.run settings n (next users) users
    | .commit write next => LoginPc.run settings n (next users) (write users)
    | _ => (pc, users)

/-- A whole request, of four statements at most. -/
def SignIn.serve (settings : LoginSettings) (r : SignIn) (users : Table LoginRow) : LoginPc × Table LoginRow :=
  LoginPc.run settings 4 (r.entry settings) users

/-- The Telegram id that the request is served for. -/
def LoginPc.servedId : LoginPc → Option ℤ
  | .answered _ (.served _ u) => some u.tg_user_id
  | _ => none

/-- The row as the request leaves it. -/
def SignIn.touched (settings : LoginSettings) (r : SignIn) (user : TgUser) (u : LoginRow) : Except LoginCrash LoginRow :=
  if r.bumps then u.refresh settings r user else pure u

/-- What a whole request does to the rows. -/
inductive Visit (settings : LoginSettings) (r : SignIn) (users : Table LoginRow) : Option ℤ → Table LoginRow → Prop
  | turnedAway : Visit settings r users none users
  | firstTouch {user : TgUser} {row : LoginRow} (h : withId users user.id = []) (hrow : r.newRow settings user = .ok row) :
      Visit settings r users (some user.id) (users.insert row)
  | known {i : ℕ} {user : TgUser} {u v : LoginRow} (h : users.row i = some u) (hv : r.touched settings user u = .ok v) :
      Visit settings r users (some u.tg_user_id) (users.set i v)

theorem run_answered {n : ℕ} {ans : LoginAnswer} :
    LoginPc.run settings n (.answered r ans) users = (.answered r ans, users) := by
  cases n <;> rfl

theorem set_self (hi : users.row i = some row) : users.set i row = users := by
  apply Table.ext
  · funext j
    by_cases hji : j = i
    · rw [hji, Table.set_row hi, if_pos rfl, hi]
    · exact Table.set_row_ne hji
  · rfl

theorem flush_refresh (h : row.refresh settings r user = .ok row') : LoginRow.flush row row' row = row' := by
  have hcolumn : ∀ {α : Type} [DecidableEq α] (x y : α), column x y x = y := by
    intro α _ x y
    unfold column
    split
    · next h => exact h.symm
    · rfl
  rw [refresh_eq h]
  simp only [LoginRow.flush, hcolumn, LoginRow.ping]
  split <;> rfl

theorem run_lockout {n : ℕ} : (LoginPc.run settings (n + 1) (.lockout r row) users).1.servedId = none ∧
    (LoginPc.run settings (n + 1) (.lockout r row) users).2 = users := by
  change (LoginPc.run settings n (.answered r (lockoutAnswer row users)) users).1.servedId = none ∧
    (LoginPc.run settings n (.answered r (lockoutAnswer row users)) users).2 = users
  rw [run_answered]
  refine ⟨?_, rfl⟩
  unfold lockoutAnswer
  split <;> rfl

theorem run_update {n : ℕ} {seen new : LoginRow} : LoginPc.run settings (n + 1) (.update r user i seen new) users =
    (r.andThen (commitRow i seen new users) fun _ => .answered r (.served i new),
      rollbackTo users (commitRow i seen new users)) := by
  change LoginPc.run settings n (r.andThen (commitRow i seen new users) fun _ => .answered r (.served i new))
    (rollbackTo users (commitRow i seen new users)) = _
  cases commitRow i seen new users with
  | error why => exact run_answered
  | ok t => exact run_answered

theorem run_upsert {n : ℕ} : LoginPc.run settings (n + 1) (.upsert r user) users =
    LoginPc.run settings n (r.andThen (r.upsert settings user users) fun _ => .reread r user)
      (rollbackTo users (r.upsert settings user users)) := rfl

theorem run_reread {n : ℕ} : LoginPc.run settings (n + 1) (.reread r user) users =
    LoginPc.run settings n (r.reselected user users) users := rfl

/-- A request that knows its row. -/
theorem run_known (hi : users.row i = some row) (hids : withId users user.id = [i]) :
    Visit settings r users (LoginPc.run settings 3 (r.selected settings user users) users).1.servedId
      (LoginPc.run settings 3 (r.selected settings user users) users).2 := by
  have hsame : r.touched settings user row = .ok row →
      Visit settings r users (LoginPc.run settings 3 (.answered r (.served i row)) users).1.servedId
        (LoginPc.run settings 3 (.answered r (.served i row)) users).2 := by
    intro hv
    have hknown : Visit settings r users _ (users.set i row) := .known hi hv
    rwa [set_self hi] at hknown
  rw [SignIn.selected_row hids hi]
  by_cases hopen : row.is_banned = false ∧ row.is_frozen = false
  · rw [gate_open hopen.1 hopen.2]
    split
    · rename_i hbumps
      refine andThen_keeps (p := fun pc => Visit settings r users (LoginPc.run settings 3 pc users).1.servedId
        (LoginPc.run settings 3 pc users).2) (fun why _ => ?_) fun new hnew => ?_
      · rw [run_answered]
        exact .turnedAway
      · have hv : r.touched settings user row = .ok new := by rw [SignIn.touched, if_pos hbumps, hnew]
        split
        · rw [run_update]
          cases hcommit : commitRow i row new users with
          | error why => exact .turnedAway
          | ok after =>
            obtain ⟨cur, hcur, -, rfl⟩ := commitRow_ok hcommit
            rw [hi] at hcur
            cases hcur
            have hknown : Visit settings r users _ (users.set i new) := .known hi hv
            rw [flush_refresh hnew]
            simpa only [SignIn.andThen, rollbackTo, Except.toOption, Option.getD_some, LoginPc.servedId,
              refresh_tg_user_id hnew] using hknown
        · rename_i hsame'
          rw [not_ne_iff.1 hsame'] at hv
          exact hsame hv
    · rename_i hbumps
      exact hsame (by rw [SignIn.touched, if_neg hbumps]; rfl)
  · rw [gate_locked hopen]
    split
    · rw [run_lockout.1, run_lockout.2]
      exact .turnedAway
    · rw [run_answered]
      exact .turnedAway

/-- A first touch. -/
theorem run_new (hI : Distinct users) (hids : withId users user.id = []) :
    Visit settings r users (LoginPc.run settings 3 (.upsert r user) users).1.servedId
      (LoginPc.run settings 3 (.upsert r user) users).2 := by
  rw [run_upsert]
  have hdistinct : Distinct (rollbackTo users (r.upsert settings user users)) := hI.upsert
  cases hupsert : r.upsert settings user users with
  | error why => exact .turnedAway
  | ok after =>
    obtain ⟨new, hnew, ⟨-, -, rfl⟩ | ⟨hne, -⟩⟩ := upsert_ok hupsert
    · have hrow : (users.insert new).row users.next = some new := by rw [Table.insert_row, if_pos rfl]
      obtain ⟨-, hid, hb, hf, -⟩ := newRow_ok hnew
      rw [hupsert] at hdistinct
      have hids' : withId (users.insert new) user.id = [users.next] := hid ▸ Distinct.withId hdistinct hrow
      change Visit settings r users (LoginPc.run settings 2 (.reread r user) (users.insert new)).1.servedId
        (LoginPc.run settings 2 (.reread r user) (users.insert new)).2
      rw [run_reread]
      rw [SignIn.reselected_row hids' hrow, gate_open hb hf, run_answered]
      have hvisit : Visit settings r users (some user.id) (users.insert new) := .firstTouch hids hnew
      simpa only [LoginPc.servedId, hid] using hvisit
    · exact absurd hids hne

theorem run_distinct {n : ℕ} {pc : LoginPc} (hI : Distinct users) : Distinct (LoginPc.run settings n pc users).2 := by
  induction n generalizing pc users with
  | zero => exact hI
  | succ n ih =>
    cases pc with
    | select r user => exact show Distinct (LoginPc.run settings n (r.selected settings user users) users).2 from ih hI
    | upsert r user => exact ih hI.upsert
    | reread r user => exact show Distinct (LoginPc.run settings n (r.reselected user users) users).2 from ih hI
    | lockout r u => exact show Distinct (LoginPc.run settings n (.answered r (lockoutAnswer u users)) users).2 from ih hI
    | update r user id seen new => exact ih hI.commitRow
    | answered r ans => exact hI

/-- A whole request turns the user away, makes the row or refreshes it. -/
theorem serve_visit (hI : Distinct users) :
    Visit settings r users (r.serve settings users).1.servedId (r.serve settings users).2 := by
  unfold SignIn.serve SignIn.entry
  split
  · rename_i user huser
    change Visit settings r users (LoginPc.run settings 3 (r.selected settings user users) users).1.servedId
      (LoginPc.run settings 3 (r.selected settings user users) users).2
    rcases hI.found user.id with hnone | ⟨i, u, hids, hu, -⟩
    · rw [SignIn.selected_none hnone]
      exact run_new hI hnone
    · exact run_known hu hids
  · rw [run_answered]
    exact .turnedAway
  · rw [run_answered]
    exact .turnedAway

end

/-! ## What the counters count -/

/-- The rows, and when the owner of one Telegram id was served by REST calls, latest first. -/
structure Visits where
  users : Table LoginRow
  log : List Time

/-- A request is served to its end. -/
def Visits.request (settings : LoginSettings) (tg_user_id : ℤ) (s : Visits) (r : SignIn) : Visits where
  users := (r.serve settings s.users).2
  log := if (r.serve settings s.users).1.servedId = some tg_user_id ∧ r.bumps then r.now :: s.log else s.log

inductive VisitAct
  | request (r : SignIn)
  | edit

/-- Requests one after the other, and edits between them. -/
inductive VisitStep (settings : LoginSettings) (tg_user_id : ℤ) : VisitAct → Visits → Visits → Prop
  | request {r : SignIn} {s : Visits} : VisitStep settings tg_user_id (.request r) s (s.request settings tg_user_id r)
  | edit {s : Visits} {t : Table LoginRow} (h : Edits s.users t) : VisitStep settings tg_user_id .edit s ⟨t, s.log⟩

/-- The clock does not go back. -/
def ClockKept : VisitAct → Visits → Prop
  | .request r, s => ∀ last ∈ s.log.head?, last ≤ r.now
  | .edit, _ => True

/-- How many pauses between the calls satisfy `p`. -/
def pauses (p : Time → Bool) : List Time → ℕ
  | later :: earlier :: log => (if p (later - earlier) then 1 else 0) + pauses p (earlier :: log)
  | _ => 0

/-- A pause that must count, and one that may. -/
def longPause (d : Time) : Bool := _SESSION_GAP ≤ d
def fairPause (d : Time) : Bool := _SESSION_GAP - _LAST_LOGIN_DEBOUNCE < d

/-- What the login columns say about the calls so far. The last stamp is less
than the debounce old. -/
def Counted (logins : Option Time × ℕ × ℕ) : List Time → Prop
  | [] => logins = (none, 0, 0)
  | now :: log => ∃ last, logins.1 = some last ∧ last ≤ now ∧ now - last < _LAST_LOGIN_DEBOUNCE ∧
      1 + pauses longPause (now :: log) ≤ logins.2.2 ∧ logins.2.2 ≤ 1 + pauses fairPause (now :: log) ∧
      ∀ first ∈ (now :: log).getLast?, ((logins.2.1 : ℤ) - 1) * _LAST_LOGIN_DEBOUNCE ≤ last - first

section
variable {settings : LoginSettings} {users t : Table LoginRow} {r : SignIn} {user : TgUser} {i j : ℕ}
  {row row' : LoginRow} {log : List Time} {tg : ℤ}

theorem refresh_logins (h : row.refresh settings r user = .ok row') :
    row'.logins = (row.ping r.now (clientIp settings r)).logins := by
  rw [refresh_eq h]
  rfl

theorem Counted.first {now : Time} {ip : Option String} (h : Counted row.logins []) :
    Counted (row.ping now ip).logins [now] := by
  have hlast : row.last_login_at = none := congrArg Prod.fst h
  have hlogins : row.login_count = 0 := congrArg (fun x => x.2.1) h
  have hsessions : row.sessions_count = 0 := congrArg (fun x => x.2.2) h
  have hquiet : ∀ gap, quietFor gap now row.last_login_at = true := fun gap => by rw [hlast]; rfl
  rw [LoginRow.ping, if_pos (hquiet _), if_pos (hquiet _), hlogins, hsessions]
  refine ⟨now, rfl, le_rfl, by rw [sub_self]; decide, le_rfl, le_rfl, ?_⟩
  rintro first ⟨⟩
  simp [LoginRow.logins]

/-- One more call, at a later time. -/
theorem Counted.next {earlier now : Time} {ip : Option String} (h : Counted row.logins (earlier :: log))
    (hle : earlier ≤ now) :
    Counted (row.ping now ip).logins (now :: earlier :: log) := by
  obtain ⟨last, hlast, hpast, hrecent, hlow, hhigh, hlogins⟩ := h
  replace hlast : row.last_login_at = some last := hlast
  have hquiet : ∀ gap, quietFor gap now row.last_login_at = decide (gap ≤ now - last) := fun gap => by rw [hlast]; rfl
  have hlong : longPause (now - earlier) = true → _SESSION_GAP ≤ now - last := fun hp => by
    have hgap : _SESSION_GAP ≤ now - earlier := of_decide_eq_true hp
    linarith
  have hfair : _SESSION_GAP ≤ now - last → fairPause (now - earlier) = true := fun hgap => by
    refine decide_eq_true ?_
    linarith
  rw [LoginRow.ping, hquiet, hquiet]
  by_cases hping : _LAST_LOGIN_DEBOUNCE ≤ now - last
  · rw [if_pos (decide_eq_true hping)]
    refine ⟨now, rfl, le_rfl, by rw [sub_self]; decide, ?_, ?_, ?_⟩
    · simp only [pauses, LoginRow.logins, decide_eq_true_eq]
      replace hlow : 1 + pauses longPause (earlier :: log) ≤ row.sessions_count := hlow
      by_cases hp : longPause (now - earlier) = true
      · rw [if_pos hp, if_pos (hlong hp)]
        omega
      · rw [if_neg hp]
        split <;> omega
    · simp only [pauses, LoginRow.logins, decide_eq_true_eq]
      replace hhigh : row.sessions_count ≤ 1 + pauses fairPause (earlier :: log) := hhigh
      by_cases hgap : _SESSION_GAP ≤ now - last
      · rw [if_pos hgap, if_pos (hfair hgap)]
        omega
      · rw [if_neg hgap]
        omega
    · intro first hfirst
      have hbound : ((row.login_count : ℤ) - 1) * _LAST_LOGIN_DEBOUNCE ≤ last - first := hlogins first hfirst
      simp only [LoginRow.logins, Nat.cast_add, Nat.cast_one]
      linarith
  · rw [if_neg (by simpa using hping)]
    refine ⟨last, hlast, hpast.trans hle, not_le.1 hping, ?_, ?_, fun first hfirst => hlogins first hfirst⟩
    · have hshort : ¬longPause (now - earlier) = true := fun hp => hping (le_trans (by decide) (hlong hp))
      rw [pauses, if_neg hshort, zero_add]
      exact hlow
    · rw [pauses]
      exact hhigh.trans (by omega)

/-- What a run of whole requests keeps. -/
structure Visits.Inv (tg : ℤ) (s : Visits) : Prop where
  distinct : Distinct s.users
  counted : ∀ i u, s.users.row i = some u → u.tg_user_id = tg → Counted u.logins s.log
  present : s.log ≠ [] → ∃ i, HasRow s.users i tg

theorem Visits.Inv.edits {s : Visits} (h : s.Inv tg) (hedit : Edits s.users t) : (Visits.mk t s.log).Inv tg := by
  refine ⟨h.distinct.edits hedit, ?_, fun hlog => ?_⟩
  · obtain ⟨hu, hid, -, hlogins⟩ := hedit
    rename_i k row row'
    intro i u hi hutg
    rw [Table.set_row hu] at hi
    split at hi
    · cases hi
      rw [hlogins]
      exact h.counted k row hu (hid ▸ hutg)
    · exact h.counted i u hi hutg
  · obtain ⟨i, hi⟩ := h.present hlog
    exact ⟨i, sameIds_edits hedit i tg hi⟩

theorem touched_tg_user_id (hv : r.touched settings user row = .ok row') : row'.tg_user_id = row.tg_user_id := by
  unfold SignIn.touched at hv
  split at hv
  · exact refresh_tg_user_id hv
  · cases hv
    rfl

/-- What a request that is served leaves in the columns of its row. -/
theorem Counted.touched (h : Counted row.logins log) (hclock : ∀ last ∈ log.head?, last ≤ r.now)
    (hv : r.touched settings user row = .ok row') : Counted row'.logins (if r.bumps then r.now :: log else log) := by
  unfold SignIn.touched at hv
  split at hv
  · rename_i hbumps
    rw [refresh_logins hv, if_pos hbumps]
    cases log with
    | nil => exact h.first
    | cons earlier log => exact h.next (hclock earlier rfl)
  · rename_i hbumps
    cases hv
    rwa [if_neg hbumps]

theorem Counted.newRow (hrow : r.newRow settings user = .ok row) :
    Counted row.logins (if r.bumps then [r.now] else []) := by
  rw [(newRow_ok hrow).2.2.2.2]
  split
  · refine ⟨r.now, rfl, le_rfl, by rw [sub_self]; decide, le_rfl, le_rfl, ?_⟩
    rintro first ⟨⟩
    simp
  · rfl

/-- The invariant after a whole request. -/
theorem Visits.Inv.request {s : Visits} (h : s.Inv tg) (hclock : ClockKept (.request r) s) :
    (s.request settings tg r).Inv tg := by
  have hvisit : Visit settings r s.users _ _ := serve_visit h.distinct
  have hdistinct : Distinct (r.serve settings s.users).2 := run_distinct h.distinct
  unfold Visits.request
  generalize (r.serve settings s.users).2 = after at hvisit hdistinct ⊢
  generalize (r.serve settings s.users).1.servedId = who at hvisit ⊢
  cases hvisit with
  | turnedAway =>
    rw [if_neg fun hserved => by cases hserved.1]
    exact h
  | @firstTouch user new hids hnew =>
    by_cases hid : user.id = tg
    · -- nobody with this id was served before
      have hnone : s.log = [] := by
        by_contra hlog
        obtain ⟨i, u, hu, hutg⟩ := h.present hlog
        exact withId_eq_nil.1 hids i u hu (hutg.trans hid.symm)
      have hlog : (if some user.id = some tg ∧ r.bumps = true then r.now :: s.log else s.log) =
          if r.bumps then [r.now] else [] := by
        rw [hnone, hid]
        simp
      rw [hlog]
      refine ⟨hdistinct, fun i u hu hutg => ?_,
        fun _ => ⟨s.users.next, new, by rw [Table.insert_row, if_pos rfl], (newRow_ok hnew).2.1.trans hid⟩⟩
      rw [Table.insert_row] at hu
      split at hu
      · cases hu
        exact Counted.newRow hnew
      · exact absurd (hutg.trans hid.symm) (withId_eq_nil.1 hids i u hu)
    · rw [if_neg fun hserved => hid (Option.some.inj hserved.1)]
      refine ⟨hdistinct, fun i u hu hutg => ?_, fun hlog => ?_⟩
      · rw [Table.insert_row] at hu
        split at hu
        · cases hu
          exact absurd ((newRow_ok hnew).2.1.symm.trans hutg) hid
        · exact h.counted i u hu hutg
      · obtain ⟨i, hi⟩ := h.present hlog
        exact ⟨i, SameIds.insert i tg hi⟩
  | @known i user u new hu hnew =>
    have hrow : ∀ j v, (s.users.set i new).row j = some v → v.tg_user_id = tg →
        j = i ∧ v = new ∧ u.tg_user_id = tg ∨ j ≠ i ∧ s.users.row j = some v := by
      intro j v hv hvtg
      rw [Table.set_row hu] at hv
      split at hv
      · cases hv
        exact .inl ⟨by assumption, rfl, (touched_tg_user_id hnew).symm.trans hvtg⟩
      · exact .inr ⟨by assumption, hv⟩
    by_cases hid : u.tg_user_id = tg
    · have hlog : (if some u.tg_user_id = some tg ∧ r.bumps = true then r.now :: s.log else s.log) =
          if r.bumps then r.now :: s.log else s.log := by
        rw [hid]
        simp
      rw [hlog]
      refine ⟨hdistinct, fun j v hv hvtg => ?_, fun _ => ⟨i, _, by rw [Table.set_row hu, if_pos rfl],
        (touched_tg_user_id hnew).trans hid⟩⟩
      rcases hrow j v hv hvtg with ⟨-, rfl, -⟩ | ⟨hji, hj⟩
      · exact (h.counted i u hu hid).touched hclock hnew
      · exact absurd (h.distinct.ids hj hu (hvtg.trans hid.symm)) hji
    · rw [if_neg fun hserved => hid (Option.some.inj hserved.1)]
      refine ⟨hdistinct, fun j v hv hvtg => ?_, fun hlog => ?_⟩
      · rcases hrow j v hv hvtg with ⟨-, -, hutg⟩ | ⟨-, hj⟩
        · exact absurd hutg hid
        · exact h.counted j v hj hvtg
      · obtain ⟨j, hj⟩ := h.present hlog
        exact ⟨j, SameIds.set hu (touched_tg_user_id hnew) j tg hj⟩

/-- Over any run of whole requests of any users, `sessions_count` counts every
pause of half an hour between two calls of its user, and no pause of 25 minutes
or less; and `login_count` grows by one in five minutes at most. -/
theorem session_counts {s : Visits} {u : LoginRow} {now first : Time} (hstart : Distinct users)
    (hnew : withId users tg = []) (h : Reach (VisitStep settings tg) ClockKept ⟨users, []⟩ s)
    (hu : s.users.row i = some u) (hid : u.tg_user_id = tg) (hlast : s.log.head? = some now)
    (hfirst : s.log.getLast? = some first) :
    1 + pauses longPause s.log ≤ u.sessions_count ∧ u.sessions_count ≤ 1 + pauses fairPause s.log ∧
      ((u.login_count : ℤ) - 1) * _LAST_LOGIN_DEBOUNCE ≤ now - first := by
  have hinv : s.Inv tg := h.invariant (I := Visits.Inv tg)
    ⟨hstart, fun i u hu hid => absurd hid (withId_eq_nil.1 hnew i u hu), fun hlog => absurd rfl hlog⟩
    (fun a s t hs hok hstep => by
      cases hstep with
      | request => exact hs.request hok
      | edit hedit => exact hs.edits hedit)
  have hcounted := hinv.counted i u hu hid
  cases hlog : s.log with
  | nil => rw [hlog] at hlast; cases hlast
  | cons now' log =>
    rw [hlog] at hlast hfirst hcounted
    cases hlast
    obtain ⟨last, -, hpast, -, hlow, hhigh, hlogins⟩ := hcounted
    have hbound : ((u.login_count : ℤ) - 1) * _LAST_LOGIN_DEBOUNCE ≤ last - first := hlogins first hfirst
    exact ⟨hlow, hhigh, by linarith⟩

end

/-! ## Three calls -/

/-- A call of the sample user. -/
def Visits.call (s : Visits) (now : Time) : Visits := s.request sampleLogins 1 (sampleCall now)

/-- Calls after five seconds, seven minutes and fifty minutes. -/
def sampleVisits : Visits := (((Visits.mk Table.empty []).call (seconds 5)).call (seconds 420)).call (seconds 3000)

/-- What is left of a call once it is known whose it is. -/
def Visits.signedCall (s : Visits) (now : Time) : Visits :=
  let served := LoginPc.run sampleLogins 4 (.select (sampleCall now) sampleTgUser) s.users
  ⟨served.2, if served.1.servedId = some 1 then now :: s.log else s.log⟩

theorem Visits.call_signed {s : Visits} {now : Time} (hnow : now ∈ sampleTimes) : s.call now = s.signedCall now := by
  have hserve : (sampleCall now).serve sampleLogins s.users =
      LoginPc.run sampleLogins 4 (.select (sampleCall now) sampleTgUser) s.users := by
    rw [SignIn.serve, SignIn.entry, sampleCalls_signed hnow]
  have hbumps : (sampleCall now).bumps = true := rfl
  unfold Visits.call Visits.request Visits.signedCall
  simp only [hserve, hbumps, and_true]
  rfl

theorem sampleVisits_signed : sampleVisits =
    (((Visits.mk Table.empty []).signedCall (seconds 5)).signedCall (seconds 420)).signedCall (seconds 3000) := by
  rw [sampleVisits, Visits.call_signed (by decide), Visits.call_signed (by decide), Visits.call_signed (by decide)]

theorem sampleVisits_counts : ∃ u, sampleVisits.users.row 1 = some u ∧ u.sessions_count = 2 ∧ u.login_count = 3 ∧
    1 + pauses longPause sampleVisits.log ≤ u.sessions_count ∧ u.sessions_count ≤ 1 + pauses fairPause sampleVisits.log := by
  have hlog₁ : ((Visits.mk Table.empty []).call (seconds 5)).log = [seconds 5] := by
    rw [Visits.call_signed (by decide)]
    decide +kernel
  have hlog₂ : (((Visits.mk Table.empty []).call (seconds 5)).call (seconds 420)).log = [seconds 420, seconds 5] := by
    rw [Visits.call_signed (by decide), Visits.call_signed (by decide)]
    decide +kernel
  have hlog₃ : sampleVisits.log = [seconds 3000, seconds 420, seconds 5] := by
    rw [sampleVisits_signed]
    decide +kernel
  have hrun : Reach (VisitStep sampleLogins 1) ClockKept ⟨Table.empty, []⟩ sampleVisits := by
    refine .step (.step (.step .refl ?_ .request) ?_ .request) ?_ .request
    · intro last hlast
      cases hlast
    · intro last hlast
      have hsome : some (seconds 5) = some last := (congrArg List.head? hlog₁).symm.trans hlast
      cases hsome
      decide
    · intro last hlast
      have hsome : some (seconds 420) = some last := (congrArg List.head? hlog₂).symm.trans hlast
      cases hsome
      decide
  have hrow : (sampleVisits.users.row 1).any
      (fun u => u.tg_user_id = 1 ∧ u.sessions_count = 2 ∧ u.login_count = 3) = true := by
    rw [sampleVisits_signed]
    decide +kernel
  cases hu : sampleVisits.users.row 1 with
  | none =>
    rw [hu] at hrow
    cases hrow
  | some u =>
    rw [hu] at hrow
    obtain ⟨hid, hsessions, hlogins⟩ := of_decide_eq_true hrow
    have hcounts := session_counts .empty rfl hrun hu hid (congrArg List.head? hlog₃) (congrArg List.getLast? hlog₃)
    exact ⟨u, rfl, hsessions, hlogins, hcounts.1, hcounts.2.1⟩

end Garant
