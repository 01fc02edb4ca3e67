import Garant.Lib.Json
import Garant.Lib.Sha
/-!
# Signed init data

`verify_init_data` checks the hash of a Telegram init string over its decoded
pairs, sorted and joined by line breaks, and then acts on two of the pairs.
`init_data_determines`: two strings accepted with one hash have one user and one
`auth_date`, if in neither a pair sorted before one of these fields hides a line
that begins with its name. Such a line can be read as the field itself, which
`hidden_user_line` does.
-/
open Text Sha

namespace Garant

/-! ## The check -/

inductive Environment
  | development
  | test
  | staging
  | production
deriving DecidableEq

/-- The settings `verify_init_data` reads. -/
structure InitDataSettings where
  environment : Environment
  bot_token : String
  allow_unsigned_init_data : Bool
  init_data_max_age_seconds : ℤ

/-- What `verify_init_data` raises. -/
inductive InitFailure
  /-- `InitDataError`. -/
  | init_data (msg : String)
  /-- Of `compare_digest`. -/
  | type_error
  /-- Of an integer that no float holds. -/
  | overflow_error
  /-- Of `json.loads`. -/
  | json_error
deriving DecidableEq

/-- A dictionary that `parse_qs` returns. -/
abbrev QueryDict := List (List Char × List (List Char))

/-- `parsed.get(name, [None])[0]`. -/
def QueryDict.first (parsed : QueryDict) (name : String) : Option (List Char) :=
  (parsed.find? fun e => e.1 = name.toList).bind (·.2.head?)

/-- `parsed.pop(name)`, as it leaves the dictionary. -/
def QueryDict.pop (parsed : QueryDict) (name : String) : QueryDict := parsed.filter fun e => e.1 ≠ name.toList

/-- A field that is there and not empty. -/
def requireField (field : Option (List Char)) (msg : String) : Except InitFailure (List Char) :=
  match field with
  | some (c :: s) => pure (c :: s)
  | _ => throw (.init_data msg)

/-- `if c: raise e`. -/
def failIf (c : Prop) [Decidable c] (e : InitFailure) : Except InitFailure Unit := if c then .error e else .ok ()

/-- `items`: the first value of each key, sorted. -/
def sortedItems (parsed : QueryDict) : List (List Char × List Char) :=
  (parsed.map fun e => (e.1, e.2.headD [])).insertionSort fun a b => toLex a ≤ toLex b

/-- `{k}={v}`. -/
def itemText (e : List Char × List Char) : List Char := e.1 ++ '=' :: e.2

def dataCheckString (items : List (List Char × List Char)) : List Char := ['\n'].intercalate (items.map itemText)

def hexChar (n : UInt8) : Char := if n < 10 then Char.ofNat (48 + n.toNat) else Char.ofNat (87 + n.toNat)

def hexdigest (digest : List UInt8) : List Char := digest.flatMap fun b => [hexChar (b / 16), hexChar (b % 16)]

/-- The key of the hash, from the bot token. -/
def secretKey (bot_token : String) : List UInt8 :=
  hmac sha256 (encodeUtf8 "WebAppData".toList) (encodeUtf8 bot_token.toList)

def signature (bot_token : String) (data_check_string : List Char) : List UInt8 :=
  hmac sha256 (secretKey bot_token) (encodeUtf8 data_check_string)

/-- No float is as large as the integer. -/
def overflows (n : ℤ) : Bool := 2 ^ 1024 - 2 ^ 970 ≤ n.natAbs

/-- `int` of the `auth_date` field. -/
def readAuthDate (auth_date_str : List Char) : Except InitFailure ℤ :=
  match readInt auth_date_str with
  | some auth_date => pure auth_date
  | none => throw (.init_data "init data auth_date is not numeric")

/-- `json.loads` of the user field. -/
def loadUser (user_json : List Char) : Except InitFailure Json.Value :=
  match Json.loads user_json with
  | some user => pure user
  | none => throw .json_error

/-- `_parse_unsigned`. -/
def parseUnsigned (settings : InitDataSettings) (init_data : String) : Except InitFailure Json.Value :=
  if settings.environment = .production ∨ settings.environment = .staging then
    throw (.init_data "unsigned init data is rejected outside development")
  else
    let user := do
      let user_json ← QueryDict.first (parseQs init_data.toList) "user"
      if user_json = [] then none else Json.loads user_json
    match user <|> Json.loads init_data.toList with
    | some user => pure user
    | none => throw (.init_data "Cannot parse unsigned init data")

/-- The pairs the hash is over. -/
def signedFields (init_data : String) : QueryDict := QueryDict.pop (parseQs init_data.toList) "hash"

def receivedHash (init_data : String) : Option (List Char) := QueryDict.first (parseQs init_data.toList) "hash"

/-- Everything behind the check of the hash. -/
def readFields (settings : InitDataSettings) (now : ℚ) (parsed : QueryDict) : Except InitFailure Json.Value := do
  let auth_date_str ← requireField (parsed.first "auth_date") "auth_date is missing from init data"
  let auth_date ← readAuthDate auth_date_str
  failIf (overflows auth_date) .overflow_error
  failIf (auth_date - now > 300) (.init_data "init data auth_date is in the future")
  failIf (now - auth_date > settings.init_data_max_age_seconds) (.init_data "init data expired")
  let user_json ← requireField (parsed.first "user") "user field missing from init data"
  loadUser user_json

/-- `verify_init_data`. -/
def verifyInitData (settings : InitDataSettings) (now : ℚ) (init_data : String) : Except InitFailure Json.Value :=
  if settings.allow_unsigned_init_data then parseUnsigned settings init_data
  else if settings.bot_token = "" then throw (.init_data "BOT_TOKEN is not configured")
  else do
    let received_hash ← requireField (receivedHash init_data) "hash is missing from init data"
    let parsed := signedFields init_data
    let computed := hexdigest (signature settings.bot_token (dataCheckString (sortedItems parsed)))
    failIf (received_hash.all isAscii = false) .type_error
    failIf (computed ≠ received_hash) (.init_data "init data signature mismatch")
    readFields settings now parsed

/-- The `auth_date` the age is judged by. -/
def authDate (init_data : String) : Option ℤ := ((signedFields init_data).first "auth_date").bind readInt

/-! ## What acceptance says -/

/-- The init string is accepted as the user's at `auth_date`. -/
structure Accepted (bot_token init_data : String) (auth_date : ℤ) (user : Json.Value) : Prop where
  signed : receivedHash init_data =
    some (hexdigest (signature bot_token (dataCheckString (sortedItems (signedFields init_data)))))
  auth_date : ∃ s, (signedFields init_data).first "auth_date" = some s ∧ readInt s = some auth_date
  user : ∃ s, (signedFields init_data).first "user" = some s ∧ Json.loads s = some user

section
variable {settings : InitDataSettings} {now : ℚ} {init_data : String} {parsed : QueryDict} {user : Json.Value}

theorem bind_accepts {ε α β : Type} {x : Except ε α} {f : α → Except ε β} {b : β} :
    (x >>= f) = .ok b ↔ ∃ a, x = .ok a ∧ f a = .ok b := by
  cases x <;> simp [bind, Except.bind]

theorem requireField_ok {field : Option (List Char)} {msg : String} {s : List Char} (h : requireField field msg = .ok s) :
    field = some s := by
  match field with
  | none | some [] => cases h
  | some (c :: s) =>
    cases h
    rfl

theorem failIf_ok {c : Prop} [Decidable c] {e : InitFailure} {u : Unit} : failIf c e = .ok u ↔ ¬c := by
  unfold failIf
  split <;> simp_all

theorem readAuthDate_ok {s : List Char} {n : ℤ} (h : readAuthDate s = .ok n) : readInt s = some n := by
  rw [readAuthDate] at h
  cases hs : readInt s with
  | none =>
    rw [hs] at h
    cases h
  | some m =>
    rw [hs] at h
    cases h
    rfl

theorem loadUser_ok {s : List Char} (h : loadUser s = .ok user) : Json.loads s = some user := by
  rw [loadUser] at h
  cases hs : Json.loads s with
  | none =>
    rw [hs] at h
    cases h
  | some v =>
    rw [hs] at h
    cases h
    rfl

theorem readFields_ok (h : readFields settings now parsed = .ok user) :
    ∃ auth_date, (∃ s, parsed.first "auth_date" = some s ∧ readInt s = some auth_date) ∧
      ∃ s, parsed.first "user" = some s ∧ Json.loads s = some user := by
  simp only [readFields, bind_accepts] at h
  obtain ⟨s, hs, n, hn, -, -, -, -, -, -, s', hs', huser⟩ := h
  exact ⟨n, ⟨s, requireField_ok hs, readAuthDate_ok hn⟩, s', requireField_ok hs', loadUser_ok huser⟩

theorem verifyInitData_ok (hsigned : settings.allow_unsigned_init_data = false)
    (h : verifyInitData settings now init_data = .ok user) :
    ∃ auth_date, Accepted settings.bot_token init_data auth_date user := by
  rw [verifyInitData, hsigned, if_neg Bool.false_ne_true] at h
  split at h
  · cases h
  simp only [bind_accepts, failIf_ok, not_not] at h
  obtain ⟨received_hash, hhash, -, -, -, heq, hfields⟩ := h
  obtain ⟨n, hdate, huser⟩ := readFields_ok hfields
  exact ⟨n, by rw [requireField_ok hhash, heq], hdate, huser⟩

end

/-! ## The check string -/

section
variable {k l : List Char} {e : List Char × List Char} {parsed : QueryDict}

theorem addValue_keys (d : QueryDict) (x : List Char × List Char) (h : (d.map (·.1)).Nodup) :
    ((addValue d x).map (·.1)).Nodup := by
  rw [addValue]
  split
  · have hmap : (d.map fun e => if e.1 = x.1 then (e.1, e.2 ++ [x.2]) else e).map (·.1) = d.map (·.1) := by
      rw [List.map_map]
      refine List.map_congr_left fun e _ => ?_
      simp only [Function.comp_apply]
      split <;> rfl
    rwa [hmap]
  · rename_i hx
    rw [List.map_append, List.nodup_append]
    refine ⟨h, List.nodup_singleton _, ?_⟩
    rintro k hk _ hk' rfl
    rw [List.map_singleton, List.mem_singleton] at hk'
    exact hx (hk' ▸ hk)

theorem parseQs_keys (qs : List Char) : ((parseQs qs).map (·.1)).Nodup := by
  rw [parseQs]
  generalize parseQsl qs = pairs
  have hall : ∀ d : QueryDict, (d.map (·.1)).Nodup → ((pairs.foldl addValue d).map (·.1)).Nodup := by
    induction pairs with
    | nil => exact fun _ h => h
    | cons x pairs ih => exact fun d h => ih _ (addValue_keys d x h)
  exact hall [] List.nodup_nil

theorem signedFields_keys (init_data : String) : ((signedFields init_data).map (·.1)).Nodup :=
  (parseQs_keys _).sublist (List.filter_sublist.map _)

/-- The items are in the order of their keys, which are different. -/
theorem sortedItems_sorted (h : (parsed.map (·.1)).Nodup) : (sortedItems parsed).Pairwise fun a b => a.1 < b.1 := by
  have hle : (sortedItems parsed).Pairwise fun a b => toLex a ≤ toLex b := List.pairwise_insertionSort _ _
  have hne : (sortedItems parsed).Pairwise fun a b => a.1 ≠ b.1 := by
    have hkeys : ((parsed.map fun e => (e.1, e.2.headD [])).map (·.1)).Nodup := by
      rw [List.map_map]
      exact h
    exact List.pairwise_map.1 (((List.perm_insertionSort _ _).map _).nodup_iff.2 hkeys)
  refine (hle.and hne).imp ?_
  rintro a b ⟨hab, hne⟩
  rcases Prod.Lex.toLex_le_toLex.1 hab with hlt | ⟨heq, -⟩
  · exact hlt
  · exact absurd heq hne

theorem mem_sortedItems {name : String} {s : List Char} (h : parsed.first name = some s) :
    (name.toList, s) ∈ sortedItems parsed := by
  obtain ⟨e, he, hs⟩ := Option.bind_eq_some_iff.1 h
  have hname := List.find?_some he
  rw [decide_eq_true_eq] at hname
  rw [sortedItems, List.mem_insertionSort, List.mem_map]
  exact ⟨e, List.mem_of_find?_eq_some he, by rw [hname, List.headD_eq_head?_getD, hs, Option.getD_some]⟩

theorem not_lt_of_prefix (h : k <+: l) : ¬l < k := by
  obtain ⟨r, rfl⟩ := h
  induction k with
  | nil => exact List.not_lt_nil _
  | cons c k ih =>
    rw [List.cons_append, List.cons_lt_cons_iff]
    rintro (hlt | ⟨-, hlt⟩)
    · exact lt_irrefl c hlt
    · exact ih hlt

/-- Of the items before a field none begins like it. -/
theorem not_prefix_itemText (hk : '=' ∉ k) (h : e.1 < k) : ¬(k ++ ['=']) <+: itemText e := by
  intro hp
  have hkey : k <+: e.1 ++ '=' :: e.2 := (List.prefix_append _ _).trans hp
  exact not_lt_of_prefix (prefix_of_break hk hkey) h

/-- The check string, with a break before it, is the lines of the items. -/
theorem checkString_lines {items : List (List Char × List Char)} (h : items ≠ []) :
    '\n' :: dataCheckString items = lines '\n' (items.map itemText) := by
  rw [dataCheckString]
  obtain ⟨e, items, rfl⟩ := List.exists_cons_of_ne_nil h
  induction items generalizing e with
  | nil => simp [lines]
  | cons e' items ih =>
    have hrest := ih e' (by simp)
    rw [List.map_cons, List.map_cons, List.intercalate_cons_cons, lines_cons, ← List.map_cons, ← hrest]
    simp

end

/-! ## One check string, one reading -/

/-- No item before the field holds, behind a line break, what its line begins with. -/
def Plain (items : List (List Char × List Char)) (name : String) : Prop :=
  ∀ e ∈ items, e.1 < name.toList → ¬('\n' :: (name.toList ++ ['='])) <:+: itemText e

instance (items : List (List Char × List Char)) (name : String) : Decidable (Plain items name) :=
  inferInstanceAs (Decidable (∀ e ∈ items, _))

/-- The pairs the hash is over hide no line of the user or the `auth_date` before it. -/
def PlainFields (init_data : String) : Prop :=
  Plain (sortedItems (signedFields init_data)) "user" ∧ Plain (sortedItems (signedFields init_data)) "auth_date"

instance (init_data : String) : Decidable (PlainFields init_data) := inferInstanceAs (Decidable (_ ∧ _))

def checkString (init_data : String) : List Char := dataCheckString (sortedItems (signedFields init_data))

/-- The two texts are the same if their hashes are. -/
def CollisionFree (bot_token : String) (x y : List Char) : Prop := signature bot_token x = signature bot_token y → x = y

section
variable {items items₁ items₂ : List (List Char × List Char)} {name : String} {u u₁ u₂ : List Char}

/-- The value of a field stands where its line first begins. -/
theorem field_at (hsorted : items.Pairwise fun a b => a.1 < b.1) (hu : (name.toList, u) ∈ items)
    (hname : '=' ∉ name.toList ∧ '\n' ∉ name.toList) (hplain : Plain items name) :
    ∃ x y, '\n' :: dataCheckString items = x ++ '\n' :: (name.toList ++ ['=']) ++ (u ++ y) ∧ (∀ d ∈ y.head?, d = '\n') ∧
      ∀ i < x.length, ¬('\n' :: (name.toList ++ ['='])) <+: (x ++ '\n' :: (name.toList ++ ['=']) ++ (u ++ y)).drop i := by
  obtain ⟨before, after, rfl⟩ := List.append_of_mem hu
  have hbreak : '\n' ∉ name.toList ++ ['='] := by simpa using hname.2
  refine ⟨lines '\n' (before.map itemText), lines '\n' (after.map itemText), ?_, head_lines, ?_⟩
  · rw [checkString_lines (by simp), List.map_append, List.map_cons, lines_append, lines_cons, itemText]
    simp
  · rw [List.append_assoc, List.cons_append]
    refine not_prefix_lines hbreak ?_
    intro text htext
    obtain ⟨e, he, rfl⟩ := List.mem_map.1 htext
    -- the keys before the field's are smaller
    have hlt : e.1 < name.toList := (List.pairwise_append.1 hsorted).2.2 e he _ List.mem_cons_self
    exact ⟨not_prefix_itemText hname.1 hlt, hplain e (List.mem_append_left _ he) hlt⟩

/-- Two lists of items with one check string: the values of a field are the same,
or one goes on behind a line break where the other ends. -/
theorem same_field (h : dataCheckString items₁ = dataCheckString items₂)
    (hs₁ : items₁.Pairwise fun a b => a.1 < b.1) (hs₂ : items₂.Pairwise fun a b => a.1 < b.1)
    (hu₁ : (name.toList, u₁) ∈ items₁) (hu₂ : (name.toList, u₂) ∈ items₂)
    (hname : '=' ∉ name.toList ∧ '\n' ∉ name.toList) (hp₁ : Plain items₁ name) (hp₂ : Plain items₂ name) :
    u₁ = u₂ ∨ (∃ t, u₂ = u₁ ++ '\n' :: t) ∨ ∃ t, u₁ = u₂ ++ '\n' :: t := by
  obtain ⟨x₁, y₁, heq₁, hy₁, hfirst₁⟩ := field_at hs₁ hu₁ hname hp₁
  obtain ⟨x₂, y₂, heq₂, hy₂, hfirst₂⟩ := field_at hs₂ hu₂ hname hp₂
  have hboth := heq₁.symm.trans ((congrArg ('\n' :: ·) h).trans heq₂)
  exact cut_at_break (first_unique hboth hfirst₁ hfirst₂).2 hy₁ hy₂

/-- A reader that is not misled by more lines reads the two values alike. -/
theorem read_same {β : Type} {read : List Char → Option β} {v w : β}
    (hread : ∀ s t v w, read s = some v → read (s ++ '\n' :: t) = some w → w = v)
    (h : u₁ = u₂ ∨ (∃ t, u₂ = u₁ ++ '\n' :: t) ∨ ∃ t, u₁ = u₂ ++ '\n' :: t) (h₁ : read u₁ = some v)
    (h₂ : read u₂ = some w) : v = w := by
  rcases h with rfl | ⟨t, rfl⟩ | ⟨t, rfl⟩
  · exact Option.some_inj.1 (h₁.symm.trans h₂)
  · exact (hread u₁ t v w h₁ h₂).symm
  · exact hread u₂ t w v h₂ h₁

end

/-! ## The hash -/

theorem hexChar_cancel : ∀ n < 256,
    (hexValue (hexChar (UInt8.ofNat n / 16))).getD 0 * 16 + (hexValue (hexChar (UInt8.ofNat n % 16))).getD 0 = n := by
  decide +kernel

theorem hexdigest_inj {a b : List UInt8} (h : hexdigest a = hexdigest b) : a = b := by
  induction a generalizing b with
  | nil =>
    cases b with
    | nil => rfl
    | cons y b => cases h
  | cons x a ih =>
    cases b with
    | nil => cases h
    | cons y b =>
      obtain ⟨hhigh, hlow, hrest⟩ : hexChar (x / 16) = hexChar (y / 16) ∧ hexChar (x % 16) = hexChar (y % 16) ∧
          hexdigest a = hexdigest b := by
        simpa [hexdigest] using h
      have hx := hexChar_cancel x.toNat x.toNat_lt
      have hy := hexChar_cancel y.toNat y.toNat_lt
      rw [UInt8.ofNat_toNat] at hx hy
      rw [hhigh, hlow, hy] at hx
      rw [ih hrest, UInt8.toNat_inj.1 hx]

/-- Two init strings accepted with one hash, whose check strings are then the same and
hide no line of either field before it: the user and the `auth_date` are the same. -/
theorem init_data_determines {settings₁ settings₂ : InitDataSettings} {now₁ now₂ : ℚ} {x₁ x₂ : String}
    {user₁ user₂ : Json.Value} (hsigned₁ : settings₁.allow_unsigned_init_data = false)
    (hsigned₂ : settings₂.allow_unsigned_init_data = false) (htoken : settings₁.bot_token = settings₂.bot_token)
    (hfree : CollisionFree settings₁.bot_token (checkString x₁) (checkString x₂))
    (hp₁ : PlainFields x₁) (hp₂ : PlainFields x₂) (h₁ : verifyInitData settings₁ now₁ x₁ = .ok user₁)
    (h₂ : verifyInitData settings₂ now₂ x₂ = .ok user₂) (hhash : receivedHash x₁ = receivedHash x₂) :
    user₁ = user₂ ∧ authDate x₁ = authDate x₂ := by
  obtain ⟨date₁, hacc₁⟩ := verifyInitData_ok hsigned₁ h₁
  obtain ⟨date₂, hacc₂⟩ := verifyInitData_ok hsigned₂ h₂
  have hcheck : checkString x₁ = checkString x₂ := by
    refine hfree (hexdigest_inj (Option.some_inj.1 ?_))
    rw [checkString, ← hacc₁.signed, hhash, hacc₂.signed, htoken, checkString]
  have hs₁ := sortedItems_sorted (signedFields_keys x₁)
  have hs₂ := sortedItems_sorted (signedFields_keys x₂)
  obtain ⟨d₁, hd₁, hn₁⟩ := hacc₁.auth_date
  obtain ⟨d₂, hd₂, hn₂⟩ := hacc₂.auth_date
  obtain ⟨u₁, hu₁, hj₁⟩ := hacc₁.user
  obtain ⟨u₂, hu₂, hj₂⟩ := hacc₂.user
  constructor
  · exact read_same (fun _ _ _ _ => Json.loads_append) (same_field hcheck hs₁ hs₂ (mem_sortedItems hu₁)
      (mem_sortedItems hu₂) (by decide) hp₁.1 hp₂.1) hj₁ hj₂
  · have hdate : date₁ = date₂ := read_same (fun _ _ _ _ => readInt_append) (same_field hcheck hs₁ hs₂
      (mem_sortedItems hd₁) (mem_sortedItems hd₂) (by decide) hp₁.2 hp₂.2) hn₁ hn₂
    rw [authDate, authDate, hd₁, hd₂, Option.bind_some, Option.bind_some, hn₁, hn₂, hdate]

/-! ## Examples -/

def sampleInitSettings : InitDataSettings := ⟨.production, "1:live", false, 900⟩

/-- The id of the user, if the init string is accepted. -/
def acceptedId (init_data : String) : Option ℤ :=
  (verifyInitData sampleInitSettings 5 init_data).toOption.bind fun user => (user.get "id".toList).bind (·.toInt)

theorem acceptedId_ok (init_data : String) (n : ℤ) (h : acceptedId init_data = some n) :
    ∃ user, verifyInitData sampleInitSettings 5 init_data = .ok user ∧
      (user.get "id".toList).bind (·.toInt) = some n := by
  rw [acceptedId] at h
  cases hv : verifyInitData sampleInitSettings 5 init_data with
  | error e =>
    rw [hv] at h
    cases h
  | ok user =>
    rw [hv] at h
    exact ⟨user, rfl, h⟩

def sampleHash : String := "d47b6ad939440757d5947e7bff3be9695ca3d15bbba972391691abcd514a7b56"

/-- The fields in another order, with escapes and a second user. -/
def sampleInit (reordered : Bool) : String :=
  if reordered then "user=%7B%22id%22:1%7D&q=a+b&user=none&hash=" ++ sampleHash ++ "&auth_date=5"
  else "auth_date=5&q=a%20b&user=\x7b\"id\":1\x7d&hash=" ++ sampleHash

theorem sampleInit_determined : ∃ user₁ user₂, verifyInitData sampleInitSettings 5 (sampleInit false) = .ok user₁ ∧
    verifyInitData sampleInitSettings 5 (sampleInit true) = .ok user₂ ∧
      user₁ = user₂ ∧ authDate (sampleInit false) = authDate (sampleInit true) := by
  obtain ⟨user₁, h₁, -⟩ := acceptedId_ok (sampleInit false) 1 (by decide +kernel)
  obtain ⟨user₂, h₂, -⟩ := acceptedId_ok (sampleInit true) 1 (by decide +kernel)
  have hcheck : checkString (sampleInit false) = checkString (sampleInit true) := by decide +kernel
  exact ⟨user₁, user₂, h₁, h₂, init_data_determines rfl rfl rfl (fun _ => hcheck) (by decide +kernel)
    (by decide +kernel) h₁ h₂ (by decide +kernel)⟩

/-- One check string: a user 1 and a field `z` of two lines, or a field `b` of three lines and a user 2. -/
def sampleHidden (second : Bool) : String :=
  (if second then "auth_date=5&b=x%0Auser=\x7b\"id\":1\x7d%0Az=y&user=\x7b\"id\":2\x7d&hash="
  else "auth_date=5&b=x&user=\x7b\"id\":1\x7d&z=y%0Auser=\x7b\"id\":2\x7d&hash=") ++
    "507e9afcd6bfaded4118d78f16f04643f60aada0991d24707ad0e3b89532035d"

theorem hidden_user_line : ∃ user₁ user₂, verifyInitData sampleInitSettings 5 (sampleHidden false) = .ok user₁ ∧
    verifyInitData sampleInitSettings 5 (sampleHidden true) = .ok user₂ ∧
      receivedHash (sampleHidden false) = receivedHash (sampleHidden true) ∧
        checkString (sampleHidden false) = checkString (sampleHidden true) ∧ user₁ ≠ user₂ := by
  obtain ⟨user₁, h₁, hid₁⟩ := acceptedId_ok (sampleHidden false) 1 (by decide +kernel)
  obtain ⟨user₂, h₂, hid₂⟩ := acceptedId_ok (sampleHidden true) 2 (by decide +kernel)
  refine ⟨user₁, user₂, h₁, h₂, by decide +kernel, by decide +kernel, ?_⟩
  rintro rfl
  rw [hid₁] at hid₂
  exact absurd hid₂ (by decide)

end Garant
